import CodeAtlas.Codebase.Specifier
import CodeAtlas.Proofs.Path.Segments

/-!
What a relative specifier of a script names. A way up from the importing file and down to another
file leads to that file, whether its extension is written, left out or replaced, as long as no other
file answers to such a spelling. A way to a directory leads to the index file there, except in two
cases: where the directory is the root of paths that are relative, and where a file beside the
directory has the name of the directory with another extension.
-/

set_option autoImplicit false

namespace CodeAtlas.Specifier

open CodeAtlas.Path (IsSegment Normal ofSegments front climb splitExtension baseName head)

/-! Candidates in their order. -/

theorem find?_eq_some_of_only {candidates known : List Text} {path : Text}
    (hpath : path ∈ candidates) (hknown : path ∈ known)
    (honly : ∀ c ∈ candidates, c ∈ known → c = path) :
    candidates.find? (· ∈ known) = some path := by
  have hsome : (candidates.find? (· ∈ known)).isSome = true :=
    List.find?_isSome.2 ⟨path, hpath, by simpa using hknown⟩
  obtain ⟨found, hfound⟩ := Option.isSome_iff_exists.1 hsome
  have hmem := List.mem_of_find?_eq_some hfound
  rw [hfound, honly found hmem (by simpa using List.find?_some hfound)]

def swapCandidates (base : Text) : List Text :=
  if (splitExtension base).2 ∈ scriptExtensions then
    scriptExtensions.map ((splitExtension base).1 ++ ·) else []

def fileCandidates (base : Text) : List Text :=
  base :: scriptExtensions.map (base ++ ·) ++ swapCandidates base

def indexCandidates (base : Text) : List Text :=
  scriptExtensions.map fun e => Path.join base ("index" ++ e)

theorem scriptCandidates_eq (importer specifier : Text) :
    scriptCandidates importer specifier =
      fileCandidates (Path.normalize (Path.join (Path.directory importer) specifier)) ++
        indexCandidates (Path.normalize (Path.join (Path.directory importer) specifier)) := rfl

theorem exists_of_mem_scriptExtensions {e : Text} (h : e ∈ scriptExtensions) :
    ∃ ending, e = '.' :: ending ∧ '.' ∉ ending ∧ '/' ∉ ending := by
  have hall : ∀ e ∈ scriptExtensions, e = '.' :: e.tail ∧ '.' ∉ e.tail ∧ '/' ∉ e.tail := by decide
  exact ⟨e.tail, hall e h⟩

section Extension

variable {rooted : Bool} {dirs : List Text} {stem e : Text}

theorem splitExtension_concat (hslash : '/' ∉ stem) (hstem : ∃ c ∈ stem, c ≠ '.')
    (he : e ∈ scriptExtensions) :
    splitExtension (ofSegments rooted (dirs ++ [stem ++ e])) =
      (ofSegments rooted (dirs ++ [stem]), e) := by
  obtain ⟨ending, rfl, hdot, hending⟩ := exists_of_mem_scriptExtensions he
  have hname : '/' ∉ stem ++ '.' :: ending := by simp [hslash, hending]
  rw [Path.ofSegments_concat, Path.ofSegments_concat,
    Path.splitExtension_eq (Path.baseName_front_append hname) hdot hstem,
    Path.head_front_append hname]

theorem exists_of_splitExtension_mem {name : Text} (hslash : '/' ∉ name)
    (h : (splitExtension (ofSegments rooted (dirs ++ [name]))).2 ∈ scriptExtensions) :
    ∃ stem e, name = stem ++ e ∧ e ∈ scriptExtensions ∧ ∃ c ∈ stem, c ≠ '.' := by
  have hne : (splitExtension (ofSegments rooted (dirs ++ [name]))).2 ≠ [] := by
    intro hnil
    rw [hnil] at h
    exact absurd h (by decide)
  obtain ⟨stem, ending, hname, hdot, hstem⟩ := Path.exists_of_splitExtension hne
  rw [Path.splitExtension_eq hname hdot hstem] at h
  rw [Path.ofSegments_concat, Path.baseName_front_append hslash] at hname
  exact ⟨stem, '.' :: ending, hname, h, hstem⟩

end Extension

/-! Importing files. -/

structure Importer where
  rooted : Bool
  dirs : List Text
  name : Text
  isSegment : ∀ s ∈ dirs ++ [name], IsSegment s
  script : isPythonPath (ofSegments rooted (dirs ++ [name])) = false

namespace Importer

def path (f : Importer) : Text := ofSegments f.rooted (f.dirs ++ [f.name])

def above (f : Importer) (levels : Nat) : List Text := f.dirs.take (f.dirs.length - levels)

variable {f : Importer} {known : List Text} {levels : Nat}

theorem isSegment_dirs (f : Importer) : ∀ d ∈ f.dirs, IsSegment d :=
  fun d hd => f.isSegment d (List.mem_append_left _ hd)

theorem isSegment_above {d : Text} (hd : d ∈ f.above levels) : IsSegment d :=
  f.isSegment_dirs d (List.mem_of_mem_take hd)

theorem directory_path (f : Importer) : Path.directory f.path = ofSegments f.rooted f.dirs :=
  Path.directory_ofSegments (fun d hd => (f.isSegment_dirs d (List.mem_of_getLast? hd)).isPart)
    (f.isSegment f.name (by simp)).isPart.slash_not_mem

theorem isRelative_climb (levels : Nat) (rest : List Text) :
    isRelative (Text.joinWith ['/'] (climb levels ++ rest)) = true := by
  obtain ⟨s, more, hclimb, hs⟩ := Path.exists_climb_eq_cons levels
  rw [hclimb, List.cons_append]
  cases more ++ rest <;> rcases hs with rfl | rfl <;> simp [isRelative, Text.startsWith]

theorem resolve_climb (hknown : ∀ p ∈ known, Normal f.rooted p) {rest : List Text}
    (hrest : ∀ s ∈ rest, '/' ∉ s) {base : Text}
    (hbase : Path.normalize (Path.join (ofSegments f.rooted f.dirs)
      (Text.joinWith ['/'] (climb levels ++ rest))) = base) :
    resolve f.path (Text.joinWith ['/'] (climb levels ++ rest)) known =
      (fileCandidates base ++ indexCandidates base).find? (· ∈ known) := by
  have hnew : Text.joinWith ['/'] (climb levels ++ rest) ∉ known :=
    fun hmem => (hknown _ hmem).ne_joinWith_climb levels hrest rfl
  have hscript : isPythonPath f.path = false := f.script
  rw [resolve, if_neg hnew, hscript, if_neg Bool.false_ne_true, resolveScript,
    if_pos (isRelative_climb levels rest), scriptCandidates_eq, f.directory_path, hbase]

end Importer

/-! A file under one of its spellings. -/

def Spells (stem : Text) (p : Text) : Prop :=
  p = stem ∨ (∃ e ∈ scriptExtensions, p = stem ++ e) ∨
    ∃ e ∈ scriptExtensions, ∃ e' ∈ scriptExtensions, p = stem ++ e ++ e'

instance (stem p : Text) : Decidable (Spells stem p) := by unfold Spells; infer_instance

section Spelling

variable {known : List Text} {path e ending : Text}

theorem find?_fileCandidates (he : e ∈ scriptExtensions) (hmem : path ++ e ∈ known)
    (honly : ∀ p ∈ known, Spells path p → p = path ++ e) :
    (fileCandidates path).find? (· ∈ known) = some (path ++ e) := by
  have hfirst : (path :: scriptExtensions.map (path ++ ·)).find? (· ∈ known) =
      some (path ++ e) := by
    refine find?_eq_some_of_only (.tail _ (List.mem_map_of_mem he)) hmem fun c hc hk => ?_
    refine honly c hk ?_
    rcases List.mem_cons.1 hc with rfl | hc
    · exact .inl rfl
    · obtain ⟨e', he', rfl⟩ := List.mem_map.1 hc
      exact .inr (.inl ⟨e', he', rfl⟩)
  rw [fileCandidates, List.find?_append, hfirst, Option.some_or]

theorem find?_fileCandidates_append (he : e ∈ scriptExtensions) (hmem : path ++ e ∈ known)
    (honly : ∀ p ∈ known, Spells path p → p = path ++ e) (hending : ending ∈ scriptExtensions)
    (hsplit : splitExtension (path ++ ending) = (path, ending)) :
    (fileCandidates (path ++ ending)).find? (· ∈ known) = some (path ++ e) := by
  rw [fileCandidates, swapCandidates, hsplit, if_pos hending]
  refine find?_eq_some_of_only (List.mem_append_right _ (List.mem_map_of_mem he)) hmem
    fun c hc hk => honly c hk ?_
  rcases List.mem_append.1 hc with hc | hc
  · rcases List.mem_cons.1 hc with rfl | hc
    · exact .inr (.inl ⟨ending, hending, rfl⟩)
    · obtain ⟨e', he', rfl⟩ := List.mem_map.1 hc
      exact .inr (.inr ⟨ending, hending, e', he', rfl⟩)
  · obtain ⟨e', he', rfl⟩ := List.mem_map.1 hc
    exact .inr (.inl ⟨e', he', rfl⟩)

end Spelling

theorem slash_not_mem_of_script {e : Text} (h : e = [] ∨ e ∈ scriptExtensions) : '/' ∉ e := by
  rcases h with rfl | h
  · exact List.not_mem_nil
  · obtain ⟨ending, rfl, _, hslash⟩ := exists_of_mem_scriptExtensions h
    simp [hslash]

theorem isSegment_append {stem ending : Text} (hstem : ∃ c ∈ stem, c ≠ '.') (hslash : '/' ∉ stem)
    (hending : '/' ∉ ending) : IsSegment (stem ++ ending) := by
  obtain ⟨c, hc, hdot⟩ := hstem
  have hmem : c ∈ stem ++ ending := List.mem_append_left _ hc
  refine ⟨⟨List.ne_nil_of_mem hmem, by simp [hslash, hending]⟩, ?_, ?_⟩
  · intro h
    rw [h] at hmem
    exact hdot (by simpa using hmem)
  · intro h
    rw [h] at hmem
    exact hdot (by simpa using hmem)

theorem Importer.resolve_down {f : Importer} {known : List Text}
    (hknown : ∀ p ∈ known, Normal f.rooted p) {levels : Nat} (hlevels : levels ≤ f.dirs.length)
    {rest : List Text} (hrest : ∀ s ∈ rest, IsSegment s) (hne : rest ≠ []) :
    resolve f.path (Text.joinWith ['/'] (climb levels ++ rest)) known =
      (fileCandidates (ofSegments f.rooted (f.above levels ++ rest)) ++
        indexCandidates (ofSegments f.rooted (f.above levels ++ rest))).find? (· ∈ known) :=
  f.resolve_climb hknown (fun s hs => (hrest s hs).isPart.slash_not_mem)
    (Path.normalize_climb_append f.isSegment_dirs hlevels hrest hne)

/-- A specifier that leads up from a file and down to another one names that one, with its
extension, without it or with another one in its place. -/
theorem resolve_spelled (f : Importer) {known : List Text}
    (hknown : ∀ p ∈ known, Normal f.rooted p) {levels : Nat} (hlevels : levels ≤ f.dirs.length)
    {inner : List Text} {stem e : Text} (hinner : ∀ s ∈ inner ++ [stem ++ e], IsSegment s)
    (hstem : ∃ c ∈ stem, c ≠ '.') (he : e ∈ scriptExtensions)
    (hmem : ofSegments f.rooted (f.above levels ++ inner ++ [stem ++ e]) ∈ known)
    (honly : ∀ p ∈ known, Spells (ofSegments f.rooted (f.above levels ++ inner ++ [stem])) p →
      p = ofSegments f.rooted (f.above levels ++ inner ++ [stem ++ e]))
    {ending : Text} (hending : ending = [] ∨ ending ∈ scriptExtensions) :
    resolve f.path (Text.joinWith ['/'] (climb levels ++ (inner ++ [stem ++ ending]))) known =
      some (ofSegments f.rooted (f.above levels ++ inner ++ [stem ++ e])) := by
  have hslash : '/' ∉ stem := (hinner (stem ++ e) (by simp)).slash_not_mem_left
  have hrest : ∀ s ∈ inner ++ [stem ++ ending], IsSegment s := by
    intro s hs
    rcases List.mem_append.1 hs with hs | hs
    · exact hinner s (List.mem_append_left _ hs)
    · rw [List.mem_singleton.1 hs]
      exact isSegment_append hstem hslash (slash_not_mem_of_script hending)
  rw [Importer.resolve_down hknown hlevels hrest (by simp), ← List.append_assoc, List.find?_append]
  rw [Path.ofSegments_concat_append _ _ stem e] at hmem honly ⊢
  rcases hending with rfl | hending
  · rw [List.append_nil, find?_fileCandidates he hmem honly, Option.some_or]
  · have hsplit := @splitExtension_concat f.rooted (f.above levels ++ inner) stem ending hslash
      hstem hending
    rw [Path.ofSegments_concat_append] at hsplit
    rw [Path.ofSegments_concat_append,
      find?_fileCandidates_append he hmem honly hending hsplit, Option.some_or]

def absoluteImporter : Importer where
  rooted := true
  dirs := ["a", "b"]
  name := "m.ts"
  isSegment := by decide
  script := by decide

def absoluteFiles : List Text :=
  ([["a", "b", "m.ts"], ["a", "c", "d.ts"], ["a", "c", "d.x.tsx"]] : List (List Text)).map
    (ofSegments true)

theorem resolve_spelled_sample :
    (∀ p ∈ absoluteFiles, Normal absoluteImporter.rooted p) ∧
      (∀ s ∈ [("c" : Text)] ++ [("d.x" : Text) ++ ".tsx"], IsSegment s) ∧
      (∀ p ∈ absoluteFiles, Spells "/a/c/d.x" p → p = "/a/c/d.x.tsx") ∧
      resolve absoluteImporter.path "../c/d.x.js" absoluteFiles = some "/a/c/d.x.tsx" := by
  have hknown : ∀ p ∈ absoluteFiles, Normal absoluteImporter.rooted p :=
    Path.normal_of_mem_map (by decide)
  have hinner : ∀ s ∈ [("c" : Text)] ++ [("d.x" : Text) ++ ".tsx"], IsSegment s := by decide
  have honly : ∀ p ∈ absoluteFiles, Spells "/a/c/d.x" p → p = "/a/c/d.x.tsx" := by decide
  have hlevels : 1 ≤ absoluteImporter.dirs.length := by decide
  exact ⟨hknown, hinner, honly, resolve_spelled absoluteImporter hknown hlevels hinner
    ⟨'d', by decide, by decide⟩ (by decide) (by decide) honly (.inr (by decide))⟩

/-! A directory. -/

/-- A file beside a directory that has the name of the directory with another extension of a
script. -/
def Rival (rooted : Bool) (dirs : List Text) (p : Text) : Prop :=
  ∃ outer stem e e', dirs = outer ++ [stem ++ e] ∧ (∃ c ∈ stem, c ≠ '.') ∧
    e ∈ scriptExtensions ∧ e' ∈ scriptExtensions ∧ p = ofSegments rooted (outer ++ [stem ++ e'])

theorem mem_swapCandidates {rooted : Bool} {dirs : List Text} (h : ∀ d ∈ dirs, IsSegment d)
    {p : Text} : p ∈ swapCandidates (ofSegments rooted dirs) ↔ Rival rooted dirs p := by
  constructor
  · intro hp
    unfold swapCandidates at hp
    split at hp
    case isFalse => cases hp
    case isTrue hsplit =>
      rcases List.eq_nil_or_concat' dirs with rfl | ⟨outer, name, rfl⟩
      · have hroot : (splitExtension (ofSegments rooted [])).2 ∉ scriptExtensions := by
          cases rooted <;> decide
        exact absurd hsplit hroot
      · obtain ⟨stem, e, rfl, he, hstem⟩ :=
          exists_of_splitExtension_mem (h name (by simp)).isPart.slash_not_mem hsplit
        have hname : IsSegment (stem ++ e) := h (stem ++ e) (by simp)
        obtain ⟨e', he', rfl⟩ := List.mem_map.1 hp
        rw [splitExtension_concat hname.slash_not_mem_left hstem he,
          ← Path.ofSegments_concat_append]
        exact ⟨outer, stem, e, e', rfl, hstem, he, he', rfl⟩
  · rintro ⟨outer, stem, e, e', rfl, hstem, he, he', rfl⟩
    have hname : IsSegment (stem ++ e) := h (stem ++ e) (by simp)
    rw [swapCandidates, splitExtension_concat hname.slash_not_mem_left hstem he, if_pos he,
      Path.ofSegments_concat_append]
    exact List.mem_map_of_mem he'

namespace Importer

variable {f : Importer} {known : List Text} {levels : Nat}

def indexFile (f : Importer) (levels : Nat) (e : Text) : Text :=
  ofSegments f.rooted (f.above levels ++ ["index" ++ e])

theorem indexCandidates_above (f : Importer) (levels : Nat) :
    indexCandidates (ofSegments f.rooted (f.above levels)) =
      scriptExtensions.map (f.indexFile levels) := by
  refine List.map_congr_left fun e _ => ?_
  rw [indexFile, Path.ofSegments_concat]
  exact Path.join_ofSegments (fun d hd => (isSegment_above (List.mem_of_getLast? hd)).isPart)
    (by simp)

theorem indexFile_ne_of_rival {e p : Text} (he : e ∈ scriptExtensions)
    (h : Rival f.rooted (f.above levels) p) : p ≠ f.indexFile levels e := by
  obtain ⟨outer, stem, e₁, e₂, habove, hstem, he₁, he₂, rfl⟩ := h
  have hslash : ∀ d ∈ f.above levels, '/' ∉ d :=
    fun d hd => (isSegment_above hd).isPart.slash_not_mem
  intro heq
  have hsegments := Path.ofSegments_injective (by simp) (by simp) ?_ ?_ heq
  · have hlength := congrArg List.length (hsegments.trans (by rw [habove]))
    simp at hlength
  · intro s hs
    rw [habove] at hslash
    rcases List.mem_append.1 hs with hs | hs
    · exact hslash s (List.mem_append_left _ hs)
    · have hname : IsSegment (stem ++ e₁) := isSegment_above (by rw [habove]; simp)
      rw [List.mem_singleton.1 hs, List.mem_append, not_or]
      exact ⟨hname.slash_not_mem_left, slash_not_mem_of_script (.inr he₂)⟩
  · intro s hs
    rcases List.mem_append.1 hs with hs | hs
    · exact hslash s hs
    · rw [List.mem_singleton.1 hs, List.mem_append, not_or]
      exact ⟨by decide, slash_not_mem_of_script (.inr he)⟩

/-- At the root of relative paths no candidate is an index file: they all begin with a dot. -/
theorem find?_dot_ne (known : List Text) {path : Text} (hpath : path.head? ≠ some '.') :
    (fileCandidates ['.'] ++ indexCandidates ['.']).find? (· ∈ known) ≠ some path := by
  have hdot : ∀ c ∈ fileCandidates ['.'] ++ indexCandidates ['.'], c.head? = some '.' := by decide
  intro h
  exact hpath (hdot path (List.mem_of_find?_eq_some h))

/-- A way up only is looked up among the candidates for the directory, where a dot stands for that
at the root of relative paths. -/
theorem resolve_up (hknown : ∀ p ∈ known, Normal f.rooted p) (hlevels : levels ≤ f.dirs.length)
    {rest : List Text} (hrest : rest = [] ∨ rest = [[]]) :
    resolve f.path (Text.joinWith ['/'] (climb levels ++ rest)) known =
      (fileCandidates (if ofSegments f.rooted (f.above levels) = [] then ['.']
          else ofSegments f.rooted (f.above levels)) ++
        indexCandidates (if ofSegments f.rooted (f.above levels) = [] then ['.']
          else ofSegments f.rooted (f.above levels))).find? (· ∈ known) := by
  have hslash : ∀ s ∈ rest, '/' ∉ s := by rcases hrest with rfl | rfl <;> simp
  exact f.resolve_climb hknown hslash (Path.normalize_climb_tail f.isSegment_dirs hlevels hrest)

theorem find?_above_iff (hplain : ∀ ending, ending = [] ∨ ending ∈ scriptExtensions →
      ofSegments f.rooted (f.above levels) ++ ending ∉ known) {e : Text}
    (he : e ∈ scriptExtensions) (hindex : f.indexFile levels e ∈ known)
    (honly : ∀ e' ∈ scriptExtensions, f.indexFile levels e' ∈ known → e' = e) :
    (fileCandidates (ofSegments f.rooted (f.above levels)) ++
        indexCandidates (ofSegments f.rooted (f.above levels))).find? (· ∈ known) =
        some (f.indexFile levels e) ↔
      ∀ p ∈ known, ¬ Rival f.rooted (f.above levels) p := by
  have hbase : (ofSegments f.rooted (f.above levels) ::
      scriptExtensions.map (ofSegments f.rooted (f.above levels) ++ ·)).find? (· ∈ known) =
        none := by
    rw [List.find?_eq_none]
    intro c hc
    rw [decide_eq_true_eq]
    rcases List.mem_cons.1 hc with rfl | hc
    · simpa using hplain [] (.inl rfl)
    · obtain ⟨e', he', rfl⟩ := List.mem_map.1 hc
      exact hplain e' (.inr he')
  have hrival := @mem_swapCandidates f.rooted (f.above levels) fun d hd => isSegment_above hd
  rw [fileCandidates, List.append_assoc, List.find?_append, hbase, Option.none_or,
    List.find?_append]
  constructor
  · intro h p hp hpr
    have hsome : ((swapCandidates (ofSegments f.rooted (f.above levels))).find?
        (· ∈ known)).isSome = true :=
      List.find?_isSome.2 ⟨p, hrival.2 hpr, by simpa using hp⟩
    obtain ⟨found, hfound⟩ := Option.isSome_iff_exists.1 hsome
    rw [hfound, Option.some_or, Option.some.injEq] at h
    exact indexFile_ne_of_rival he (hrival.1 (List.mem_of_find?_eq_some hfound)) h
  · intro h
    have hnone : (swapCandidates (ofSegments f.rooted (f.above levels))).find? (· ∈ known) =
        none := by
      rw [List.find?_eq_none]
      intro c hc
      rw [decide_eq_true_eq]
      exact fun hk => h c hk (hrival.1 hc)
    rw [hnone, Option.none_or, indexCandidates_above]
    refine find?_eq_some_of_only (List.mem_map_of_mem he) hindex fun c hc hk => ?_
    obtain ⟨e', he', rfl⟩ := List.mem_map.1 hc
    rw [honly e' he' hk]

end Importer

/-- A way up to a directory, with or without a slash at its end, names the index file there iff the
directory is not the root of relative paths and has no rival. -/
theorem resolve_directory_iff (f : Importer) {known : List Text}
    (hknown : ∀ p ∈ known, Normal f.rooted p) {levels : Nat} (hlevels : levels ≤ f.dirs.length)
    {e : Text} (he : e ∈ scriptExtensions) (hindex : f.indexFile levels e ∈ known)
    (honly : ∀ e' ∈ scriptExtensions, f.indexFile levels e' ∈ known → e' = e)
    (hplain : ∀ ending, ending = [] ∨ ending ∈ scriptExtensions →
      ofSegments f.rooted (f.above levels) ++ ending ∉ known)
    {slash : Text} (hslash : slash = [] ∨ slash = ['/']) :
    resolve f.path (Text.joinWith ['/'] (climb levels) ++ slash) known =
        some (f.indexFile levels e) ↔
      (f.rooted = true ∨ f.above levels ≠ []) ∧
        ∀ p ∈ known, ¬ Rival f.rooted (f.above levels) p := by
  obtain ⟨rest, hrest, hspecifier⟩ : ∃ rest, (rest = [] ∨ rest = [[]]) ∧
      Text.joinWith ['/'] (climb levels) ++ slash = Text.joinWith ['/'] (climb levels ++ rest) := by
    rcases hslash with rfl | rfl
    · exact ⟨[], .inl rfl, by simp⟩
    · obtain ⟨s, more, hclimb, _⟩ := Path.exists_climb_eq_cons levels
      refine ⟨[[]], .inr rfl, ?_⟩
      rw [Text.joinWith_append (by rw [hclimb]; exact List.cons_ne_nil _ _) (by simp)]
      simp
  rw [hspecifier]
  have hnil : ofSegments f.rooted (f.above levels) = [] ↔ f.rooted = false ∧ f.above levels = [] :=
    Path.ofSegments_eq_nil fun d hd => (Importer.isSegment_above hd).isPart
  by_cases hroot : f.rooted = false ∧ f.above levels = []
  case pos =>
    have hfirst : (f.indexFile levels e).head? ≠ some '.' := by
      rw [Importer.indexFile, hroot.1, hroot.2]
      simp [ofSegments, Path.mark]
    rw [Importer.resolve_up hknown hlevels hrest, if_pos (hnil.2 hroot)]
    refine iff_of_false (Importer.find?_dot_ne known hfirst) ?_
    rintro ⟨h | h, _⟩
    · exact Bool.false_ne_true (hroot.1.symm.trans h)
    · exact h hroot.2
  case neg =>
    have hbelow : f.rooted = true ∨ f.above levels ≠ [] := by
      by_contra h
      rw [not_or, Bool.not_eq_true, not_not] at h
      exact hroot h
    rw [Importer.resolve_up hknown hlevels hrest, if_neg (mt hnil.1 hroot),
      Importer.find?_above_iff hplain he hindex honly, and_iff_right hbelow]

def relativeImporter : Importer where
  rooted := false
  dirs := ["lib.js", "a"]
  name := "m.ts"
  isSegment := by decide
  script := by decide

def relativeFiles : List Text :=
  ([["index.ts"], ["lib.js", "a", "m.ts"], ["lib.js", "index.tsx"]] : List (List Text)).map
    (ofSegments false)

theorem resolve_directory_sample :
    (∀ p ∈ relativeFiles, Normal relativeImporter.rooted p) ∧
      relativeImporter.indexFile 1 ".tsx" ∈ relativeFiles ∧
      (∀ e ∈ scriptExtensions, relativeImporter.indexFile 1 e ∈ relativeFiles → e = ".tsx") ∧
      (∀ ending, ending = [] ∨ ending ∈ scriptExtensions →
        ofSegments false (relativeImporter.above 1) ++ ending ∉ relativeFiles) ∧
      resolve relativeImporter.path "../" relativeFiles = some "lib.js/index.tsx" := by
  have hknown : ∀ p ∈ relativeFiles, Normal relativeImporter.rooted p :=
    Path.normal_of_mem_map (by decide)
  have hindex : relativeImporter.indexFile 1 ".tsx" ∈ relativeFiles := by decide
  have honly : ∀ e ∈ scriptExtensions, relativeImporter.indexFile 1 e ∈ relativeFiles →
      e = ".tsx" := by decide
  have hplain : ∀ ending, ending = [] ∨ ending ∈ scriptExtensions →
      ofSegments false (relativeImporter.above 1) ++ ending ∉ relativeFiles := by
    have hall : ∀ ending ∈ [] :: scriptExtensions,
        ofSegments false (relativeImporter.above 1) ++ ending ∉ relativeFiles := by decide
    exact fun ending h => hall ending (List.mem_cons.2 h)
  have hrival : ∀ p ∈ relativeFiles, ¬ Rival false (relativeImporter.above 1) p := by
    intro p hp hpr
    have hswap : ∀ q ∈ swapCandidates (ofSegments false (relativeImporter.above 1)),
        q ∉ relativeFiles := by decide
    exact hswap p ((mem_swapCandidates fun d hd => Importer.isSegment_above hd).2 hpr) hp
  have hlevels : 1 ≤ relativeImporter.dirs.length := by decide
  exact ⟨hknown, hindex, honly, hplain,
    (resolve_directory_iff relativeImporter hknown hlevels (by decide) hindex honly hplain
      (.inr rfl)).2 ⟨.inr (by decide), hrival⟩⟩

/-- From there nothing leads to the index file at the root. -/
theorem resolve_root_index :
    (∀ p ∈ relativeFiles, Normal relativeImporter.rooted p) ∧
      relativeImporter.indexFile 2 ".ts" ∈ relativeFiles ∧
      (∀ e ∈ scriptExtensions, relativeImporter.indexFile 2 e ∈ relativeFiles → e = ".ts") ∧
      (∀ ending ∈ scriptExtensions, ending ∉ relativeFiles) ∧
      resolve relativeImporter.path "../.." relativeFiles = none :=
  ⟨Path.normal_of_mem_map (by decide), by decide, by decide, by decide, by decide⟩

example :
    resolve "lib.js/m.ts" "." ["lib.js/index.ts", "lib.js/m.ts", "lib.ts"] =
      some ("lib.ts" : Text) := by
  decide

end CodeAtlas.Specifier
