import Mathlib.Data.List.Infix
import Mathlib.Data.List.Nodup
import CodeAtlas.Proofs.Graph.Reach
import CodeAtlas.Proofs.Pipeline.Outcome
import CodeAtlas.Proofs.Pipeline.Sections

set_option autoImplicit false

namespace CodeAtlas

theorem Text.occursIn_iff {needle t : Text} : Text.occursIn needle t = true ↔ needle <:+: t := by
  induction t with
  | nil => simp [occursIn]
  | cons c rest ih => simp [occursIn, ih, List.infix_cons_iff]

theorem firstsBy_of_nodup {α κ : Type} [DecidableEq κ] {key : α → κ} {seen : List κ} {xs : List α}
    (hd : (xs.map key).Nodup) (hs : ∀ x ∈ xs, key x ∉ seen) : firstsBy key seen xs = xs := by
  induction xs generalizing seen with
  | nil => rfl
  | cons x rest ih =>
    rw [List.map_cons, List.nodup_cons] at hd
    have hrest : firstsBy key (key x :: seen) rest = rest := by
      apply ih hd.2
      intro y hy hm
      rcases List.mem_cons.1 hm with h | h
      · exact hd.1 (List.mem_map.2 ⟨y, hy, h⟩)
      · exact hs y (.tail _ hy) h
    simp [firstsBy, hs x (.head _), hrest]

theorem distinct_of_nodup {α : Type} [DecidableEq α] {xs : List α} (hd : xs.Nodup) :
    distinct xs = xs :=
  firstsBy_of_nodup (by simpa using hd) (by simp)

def SourceFile.chunk (f : SourceFile) : Chunk :=
  ⟨f.path, f.content, if f.language = [] then "text" else f.language⟩

namespace Retrieval

def requested (files : List SourceFile) (g : Graph) (hops : Nat) (scope : Scope)
    (target : Option Text) : List Text :=
  if target.getD [] = [] then files.map (·.path)
  else match scope with
    | .repository => files.map (·.path)
    | .file => g.related (target.getD []) hops ++ [target.getD []]
    | .module =>
      match files.find? fun f => target.getD [] <:+: f.path with
      | some f => g.preorder f.path
      | none => []

theorem nodup_requested {files : List SourceFile} (hd : (files.map (·.path)).Nodup) (g : Graph)
    (hops : Nat) (scope : Scope) (target : Option Text) :
    (requested files g hops scope target).Nodup := by
  unfold requested
  by_cases ht : target.getD [] = []
  · rw [if_pos ht]
    exact hd
  · rw [if_neg ht]
    cases scope with
    | repository => exact hd
    | file =>
      refine List.nodup_append.2 ⟨g.nodup_related _ hops, List.nodup_singleton _, ?_⟩
      intro path hpath other hother he
      rw [List.mem_singleton.1 hother] at he
      exact g.not_mem_related_self _ hops (he ▸ hpath)
    | module =>
      cases files.find? fun f => target.getD [] <:+: f.path with
      | some f => exact g.nodup_preorder f.path
      | none => exact List.nodup_nil

theorem entry_ofFiles (files : List SourceFile) (target : Text) :
    entry? (Codebase.ofFiles files) target =
      (files.find? fun f => target <:+: f.path).map (·.path) := by
  have hp : ∀ path, Text.occursIn target path = decide (target <:+: path) := fun path => by
    rw [Bool.eq_iff_iff, Text.occursIn_iff, decide_eq_true_iff]
  unfold entry?
  simp only [Codebase.paths_ofFiles, List.find?_map, hp]
  rfl

/-- What is selected is what is requested; a module without an entry selects nothing. -/
theorem select_eq (files : List SourceFile) (g : Graph) (hops : Nat) (scope : Scope)
    (target : Option Text) :
    select Graph.queries hops scope target (Codebase.ofFiles files) g =
        .ok (requested files g hops scope target) ∨
      requested files g hops scope target = [] ∧
        select Graph.queries hops scope target (Codebase.ofFiles files) g =
          .error (.entryNotFound (target.getD [])) := by
  unfold requested select
  by_cases ht : target.getD [] = []
  · left
    cases scope <;> simp [ht]
  · cases scope with
    | repository => left; simp [ht]
    | file => left; simp [ht, Graph.queries, Except.map]
    | module =>
      simp only [entry_ofFiles]
      cases hf : files.find? fun f => target.getD [] <:+: f.path with
      | some f => left; simp [ht, Graph.queries]
      | none => right; simp [ht]

theorem salvage_outcome {files : List SourceFile} (hd : (files.map (·.path)).Nodup) (g : Graph)
    (hops : Nat) (scope : Scope) (target : Option Text) :
    salvage (outcome Graph.queries hops scope target (Codebase.ofFiles files) g) =
      (requested files g hops scope target).map fun path =>
        ⟨path, [], languageOf (Codebase.ofFiles files) path⟩ := by
  have hn := nodup_requested hd g hops scope target
  unfold outcome
  rcases select_eq files g hops scope target with h | ⟨hnil, h⟩
  · rw [h]
    simp only [Except.map, salvage, chunks, distinct_of_nodup hn]
  · rw [h, hnil]
    rfl

theorem languageOf_last {files : List SourceFile} {path : Text} {f : SourceFile}
    (h : files.reverse.find? (fun f => f.path = path) = some f) :
    languageOf (Codebase.ofFiles files) path = f.chunk.language := by
  have hpath : ∀ o : SourceFile, (Scan.ofFile o).file.path = o.path := fun o => Scan.path_of ..
  have hlanguage : (Scan.ofFile f).file.language = f.language := Scan.language_of ..
  have hfiles : (Codebase.ofFiles files).files.reverse =
      files.reverse.map fun o => (Scan.ofFile o).file := List.map_reverse.symm
  simp only [languageOf, hfiles, List.find?_map, Function.comp_def, hpath, h, Option.map_some,
    hlanguage, List.isEmpty_iff, SourceFile.chunk]

theorem languageOf_ofFiles {files : List SourceFile} (hd : (files.map (·.path)).Nodup)
    {f : SourceFile} (hf : f ∈ files) :
    languageOf (Codebase.ofFiles files) f.path = f.chunk.language := by
  have hreverse : (files.reverse.map (·.path)).Nodup := by
    rwa [List.map_reverse, List.nodup_reverse]
  exact languageOf_last (find?_key hreverse (List.mem_reverse.2 hf))

theorem contentOf_of_mem {files : List SourceFile} (hd : (files.map (·.path)).Nodup)
    {f : SourceFile} (hf : f ∈ files) : contentOf files f.path = f.content := by
  simp only [contentOf, find?_key hd hf]

theorem contentOf_ne_nil {files : List SourceFile} (hd : (files.map (·.path)).Nodup)
    {path : Text} :
    contentOf files path ≠ [] ↔ ∃ f ∈ files, f.path = path ∧ f.content ≠ [] := by
  constructor
  · intro h
    unfold contentOf at h
    cases hf : files.find? fun f => f.path = path with
    | none => simp [hf] at h
    | some f =>
      have hpath : f.path = path := by simpa using List.find?_some hf
      exact ⟨f, List.mem_of_find?_eq_some hf, hpath, by simpa [hf] using h⟩
  · rintro ⟨f, hf, rfl, hc⟩
    rwa [contentOf_of_mem hd hf]

/-- The chunks shown for some paths: the paths of files with content, in their order, each with its
own file. -/
structure Shows (files : List SourceFile) (paths : List Text) (chunks : List Chunk) : Prop where
  paths : chunks.map (·.path) = paths.filter fun path => ∃ f ∈ files, f.path = path ∧ f.content ≠ []
  once : (chunks.map (·.path)).Nodup
  sources : ∀ chunk ∈ chunks, ∃ f ∈ files, f.content ≠ [] ∧ chunk = f.chunk

theorem shows_hydrate {files : List SourceFile} (hd : (files.map (·.path)).Nodup)
    {paths : List Text} (hp : paths.Nodup) :
    Shows files paths (hydrate (paths.map fun path =>
      ⟨path, [], languageOf (Codebase.ofFiles files) path⟩) files) := by
  have hpaths : (hydrate (paths.map fun path =>
      ⟨path, [], languageOf (Codebase.ofFiles files) path⟩) files).map (·.path) =
        paths.filter fun path => ∃ f ∈ files, f.path = path ∧ f.content ≠ [] := by
    simp only [hydrate, List.map_map, List.filter_map, Function.comp_def, List.map_id']
    apply List.filter_congr
    intro path _
    rw [Bool.eq_iff_iff, decide_eq_true_iff, ← contentOf_ne_nil hd]
    simp
  refine ⟨hpaths, hpaths ▸ hp.filter _, ?_⟩
  intro chunk hchunk
  simp only [hydrate, List.map_map, List.mem_filter, List.mem_map, Function.comp_apply] at hchunk
  obtain ⟨⟨path, _, rfl⟩, hc⟩ := hchunk
  have hc' : contentOf files path ≠ [] := by simpa using hc
  obtain ⟨f, hf, rfl, hne⟩ := (contentOf_ne_nil hd).1 hc'
  refine ⟨f, hf, hne, ?_⟩
  rw [contentOf_of_mem hd hf, languageOf_ofFiles hd hf]
  rfl

end Retrieval

namespace Pipeline

variable {σ : Type}

theorem execute_shows (p : Pipeline σ) (hq : p.queries = Graph.queries) (ctx : Context)
    {items : List SourceItem} {files : List SourceFile}
    (h : SourceItem.readAll items = .ok files) (hne : files ≠ [])
    (hd : (files.map (·.path)).Nodup) (s : Session (σ × List (Text × Int))) :
    ∃ chunks,
      Retrieval.Shows files
        (Retrieval.requested files (Graph.ofCodebase (Codebase.ofFiles files))
          p.relatedDepth.toNat ctx.scope ctx.target) chunks ∧
      ((p.recorded.execute ctx items).exec s).2.service.2 = s.service.2 ++
        [(Text.concat [Prompt.preamble, Prompt.heading ctx.scope ctx.target,
            Prompt.structureSection files, Prompt.display chunks, Prompt.requirements],
          p.maxOutputTokens)] := by
  have hn := Retrieval.nodup_requested hd (Graph.ofCodebase (Codebase.ofFiles files))
    p.relatedDepth.toNat ctx.scope ctx.target
  have hcontext : p.context ctx files = Retrieval.hydrate
      ((Retrieval.requested files (Graph.ofCodebase (Codebase.ofFiles files))
        p.relatedDepth.toNat ctx.scope ctx.target).map fun path =>
          ⟨path, [], Retrieval.languageOf (Codebase.ofFiles files) path⟩) files := by
    rw [← Retrieval.salvage_outcome hd, ← hq]
    rfl
  have hshows := Retrieval.shows_hydrate hd hn
  rw [← hcontext] at hshows
  refine ⟨p.context ctx files, hshows, ?_⟩
  rw [p.exec_recorded ctx h hne s, service_closed, ← p.prompt_eq ctx files]
  rfl

theorem execute_shows_sample :
    ∃ chunks request,
      chunks.map (·.path) = ([("a.py" : Text), "b.py", "pkg/c.py"]) ∧
      ((sample.recorded.execute { requestId := "1", repositoryId := "2", userId := "3" }
        (Codebase.sampleFiles.map .file)).exec { service := ((), []) }).2.service.2 =
          [(request, 4096)] ∧
      Prompt.display chunks <:+: request := by
  obtain ⟨chunks, hshows, hcalls⟩ := execute_shows sample rfl
    { requestId := "1", repositoryId := "2", userId := "3" }
    (SourceItem.readAll_file Codebase.sampleFiles) (by simp [Codebase.sampleFiles]) (by decide)
    { service := ((), []) }
  have hpaths : (Codebase.sampleFiles.map (·.path)).filter (fun path =>
      ∃ f ∈ Codebase.sampleFiles, f.path = path ∧ f.content ≠ []) =
        [("a.py" : Text), "b.py", "pkg/c.py"] := by decide
  refine ⟨chunks, _, hshows.paths.trans hpaths, hcalls, ?_⟩
  exact List.infix_of_mem_flatten (.tail _ (.tail _ (.tail _ (.head _))))

end Pipeline

end CodeAtlas
