import CodeAtlas.Proofs.Pipeline.Selection

/-!
Where the parts of a context block come from when files share a path. Main statement: every block of
the prompt shows one file, unless no file of a selected path has both the content of the first and
the language of the last.
-/

set_option autoImplicit false

namespace CodeAtlas

namespace Retrieval

structure Ends (files : List SourceFile) (path : Text) (first last : SourceFile) : Prop where
  first : files.find? (fun f => f.path = path) = some first
  last : files.reverse.find? (fun f => f.path = path) = some last

/-- Whether the first content and the last language of a path, if there is content, are found
together in one of its files. -/
def Coherent (files : List SourceFile) (path : Text) : Prop :=
  ∀ first last, Ends files path first last → first.content ≠ [] →
    ∃ f ∈ files, f.path = path ∧ f.content = first.content ∧
      f.chunk.language = last.chunk.language

theorem exists_last {files : List SourceFile} {path : Text} {first : SourceFile}
    (h : files.find? (fun f => f.path = path) = some first) :
    ∃ last, Ends files path first last := by
  have hpath : first.path = path := by simpa using List.find?_some h
  have hsome : (files.reverse.find? fun f => f.path = path).isSome = true := by
    rw [List.find?_isSome]
    exact ⟨first, List.mem_reverse.2 (List.mem_of_find?_eq_some h), decide_eq_true hpath⟩
  obtain ⟨last, hlast⟩ := Option.isSome_iff_exists.1 hsome
  exact ⟨last, h, hlast⟩

theorem coherent_of_language {files : List SourceFile}
    (h : ∀ f ∈ files, ∀ o ∈ files, f.path = o.path → f.language = o.language) (path : Text) :
    Coherent files path := by
  intro first last hends _
  have hfirst : first.path = path := by simpa using List.find?_some hends.first
  have hlast : last.path = path := by simpa using List.find?_some hends.last
  have hmem : first ∈ files := List.mem_of_find?_eq_some hends.first
  have hlanguage : first.language = last.language :=
    h first hmem last (List.mem_reverse.1 (List.mem_of_find?_eq_some hends.last))
      (hfirst.trans hlast.symm)
  exact ⟨first, hmem, hfirst, rfl, by simp only [SourceFile.chunk, hlanguage]⟩

/-- Content is looked up from the front and languages from the back. -/
theorem mem_hydrate_chunks {files : List SourceFile} {paths : List Text} {chunk : Chunk} :
    chunk ∈ hydrate (chunks (Codebase.ofFiles files) paths) files ↔
      ∃ path ∈ paths, ∃ first last, Ends files path first last ∧ first.content ≠ [] ∧
        chunk = ⟨path, first.content, last.chunk.language⟩ := by
  simp only [hydrate, chunks, List.map_map, List.mem_filter, List.mem_map, Function.comp_apply,
    mem_distinct]
  constructor
  · rintro ⟨⟨path, hpath, hchunk⟩, hfilled⟩
    subst hchunk
    cases hfirst : files.find? fun f => f.path = path with
    | none => simp [contentOf, hfirst] at hfilled
    | some first =>
      obtain ⟨last, hends⟩ := exists_last hfirst
      have hcontent : contentOf files path = first.content := by simp only [contentOf, hfirst]
      refine ⟨path, hpath, first, last, hends, ?_, ?_⟩
      · simpa [hcontent] using hfilled
      · rw [hcontent, languageOf_last hends.last]
  · rintro ⟨path, hpath, first, last, hends, hfilled, hchunk⟩
    subst hchunk
    have hcontent : contentOf files path = first.content := by simp only [contentOf, hends.first]
    refine ⟨⟨path, hpath, ?_⟩, by simpa using hfilled⟩
    rw [hcontent, languageOf_last hends.last]

theorem chunks_of_files_iff {files : List SourceFile} {paths : List Text} :
    (∀ chunk ∈ hydrate (chunks (Codebase.ofFiles files) paths) files,
        ∃ f ∈ files, chunk = f.chunk) ↔
      ∀ path ∈ paths, Coherent files path := by
  constructor
  · intro h path hpath first last hends hfilled
    obtain ⟨f, hf, hchunk⟩ :=
      h _ (mem_hydrate_chunks.2 ⟨path, hpath, first, last, hends, hfilled, rfl⟩)
    have hparts := Chunk.mk.inj hchunk
    exact ⟨f, hf, hparts.1.symm, hparts.2.1.symm, hparts.2.2.symm⟩
  · intro h chunk hchunk
    obtain ⟨path, hpath, first, last, hends, hfilled, hchunk⟩ := mem_hydrate_chunks.1 hchunk
    obtain ⟨f, hf, hname, hcontent, hlanguage⟩ := h path hpath first last hends hfilled
    refine ⟨f, hf, ?_⟩
    rw [hchunk, ← hname, ← hcontent, ← hlanguage]
    rfl

end Retrieval

namespace Pipeline

variable {σ : Type}

theorem context_eq (p : Pipeline σ) (ctx : Context) (files : List SourceFile) :
    p.context ctx files =
      match p.selection ctx files with
      | .ok paths => Retrieval.hydrate (Retrieval.chunks (Codebase.ofFiles files) paths) files
      | .error _ => [] := by
  have hfound : p.found ctx files =
    (p.selection ctx files).map (Retrieval.chunks (Codebase.ofFiles files)) := rfl
  rw [context, hfound]
  cases p.selection ctx files with
  | ok paths => rfl
  | error fault => rfl

/-- The one request of a run shows the context and nothing else of the files' content. -/
theorem calls_execute (p : Pipeline σ) (ctx : Context) {items : List SourceItem}
    {files : List SourceFile} (h : SourceItem.readAll items = .ok files) (hne : files ≠ [])
    (s : Session (σ × List (Text × Int))) :
    ((p.recorded.execute ctx items).exec s).2.service.2 = s.service.2 ++
      [(Text.concat [Prompt.preamble, Prompt.heading ctx.scope ctx.target,
          Prompt.structureSection files, Prompt.display (p.context ctx files),
          Prompt.requirements], p.maxOutputTokens)] := by
  rw [p.exec_recorded ctx h hne s, service_closed, ← p.prompt_eq ctx files]
  rfl

/-- The blocks of the prompt each show one file iff the selected paths are coherent. -/
theorem execute_shows_files_iff (p : Pipeline σ) (ctx : Context) {items : List SourceItem}
    {files : List SourceFile} (h : SourceItem.readAll items = .ok files) (hne : files ≠ [])
    (s : Session (σ × List (Text × Int))) :
    ((p.recorded.execute ctx items).exec s).2.service.2 = s.service.2 ++
      [(Text.concat [Prompt.preamble, Prompt.heading ctx.scope ctx.target,
          Prompt.structureSection files, Prompt.display (p.context ctx files),
          Prompt.requirements], p.maxOutputTokens)] ∧
    ((∀ chunk ∈ p.context ctx files, ∃ f ∈ files, chunk = f.chunk) ↔
      ∀ paths, p.selection ctx files = .ok paths →
        ∀ path ∈ paths, Retrieval.Coherent files path) := by
  refine ⟨p.calls_execute ctx h hne s, ?_⟩
  rw [context_eq]
  cases p.selection ctx files with
  | ok paths =>
    rw [Retrieval.chunks_of_files_iff]
    constructor
    · intro hpaths others heq
      cases heq
      exact hpaths
    · intro hpaths
      exact hpaths paths rfl
  | error fault => exact iff_of_true nofun nofun

def sampleCopies : List SourceFile :=
  [⟨"a.py", "python", "x = 1\n"⟩, ⟨"a.py", "python", "x = 2\n"⟩]

theorem execute_shows_files_copies :
    SourceItem.readAll (sampleCopies.map .file) = .ok sampleCopies ∧ sampleCopies ≠ [] ∧
    ∀ chunk ∈ sample.context { requestId := "1", repositoryId := "2", userId := "3" } sampleCopies,
      ∃ f ∈ sampleCopies, chunk = f.chunk := by
  have hread := SourceItem.readAll_file sampleCopies
  have hne : sampleCopies ≠ [] := nofun
  obtain ⟨_, hfiles⟩ := execute_shows_files_iff sample
    { requestId := "1", repositoryId := "2", userId := "3" } hread hne { service := ((), []) }
  have hlanguage : ∀ f ∈ sampleCopies, ∀ o ∈ sampleCopies, f.path = o.path →
      f.language = o.language := by decide
  exact ⟨hread, hne, hfiles.2 fun _ _ path _ => Retrieval.coherent_of_language hlanguage path⟩

def sampleNamesakes : List SourceFile :=
  [⟨"a.py", "python", "x = 1\n"⟩, ⟨"a.py", "javascript", "let x = 1\n"⟩]

/-- The block of a path with two languages has the content of one file and the language of the
other. -/
theorem execute_shows_mixed_block :
    ∃ request,
      ((sample.recorded.execute { requestId := "1", repositoryId := "2", userId := "3" }
        (sampleNamesakes.map .file)).exec { service := ((), []) }).2.service.2 =
          [(request, 4096)] ∧
      Prompt.display [⟨"a.py", "x = 1\n", "javascript"⟩] <:+: request ∧
      ∀ f ∈ sampleNamesakes, f.chunk ≠ ⟨"a.py", "x = 1\n", "javascript"⟩ := by
  have hread := SourceItem.readAll_file sampleNamesakes
  have hcalls := calls_execute sample { requestId := "1", repositoryId := "2", userId := "3" }
    hread nofun { service := ((), []) }
  have hselection : sample.selection { requestId := "1", repositoryId := "2", userId := "3" }
      sampleNamesakes = .ok (sampleNamesakes.map (·.path)) :=
    congrArg Except.ok (Codebase.paths_ofFiles sampleNamesakes)
  have hlast : sampleNamesakes.reverse.find? (fun f => f.path = ("a.py" : Text)) =
      some ⟨"a.py", "javascript", "let x = 1\n"⟩ := rfl
  have hcontext : sample.context { requestId := "1", repositoryId := "2", userId := "3" }
      sampleNamesakes = [⟨"a.py", "x = 1\n", "javascript"⟩] := by
    have hchunks : Retrieval.chunks (Codebase.ofFiles sampleNamesakes)
        (sampleNamesakes.map (·.path)) =
          [⟨"a.py", [], Retrieval.languageOf (Codebase.ofFiles sampleNamesakes) "a.py"⟩] := rfl
    rw [context_eq, hselection]
    simp only [hchunks, Retrieval.languageOf_last hlast]
    rfl
  rw [← hcontext]
  refine ⟨_, hcalls, ?_, by decide⟩
  exact List.infix_of_mem_flatten (.tail _ (.tail _ (.tail _ (.head _))))

end Pipeline

end CodeAtlas
