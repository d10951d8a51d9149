import CodeAtlas.Proofs.Codebase.Relocation
import CodeAtlas.Proofs.Codebase.ScriptImports
import Mathlib.Data.List.Nodup

/-!
What the dotted names of a Python module lead to. A module may be named by dots that climb from the
importing file and the rest of its name, by its full name, or by the end of its name where only one
file has such an end. All three lead to the file of the module, and a name without leading dots
leads to no file that does not end as the name does.
-/

set_option autoImplicit false

namespace CodeAtlas

namespace Text

variable {old new : Char}

theorem replaceChar_append (s t : Text) :
    replaceChar old new (s ++ t) = replaceChar old new s ++ replaceChar old new t :=
  List.map_append

theorem replaceChar_of_not_mem {t : Text} (h : old ∉ t) : replaceChar old new t = t := by
  have hkeep : ∀ c ∈ t, (if c = old then new else c) = c := by
    intro c hc
    rw [if_neg]
    rintro rfl
    exact h hc
  rw [replaceChar, List.map_congr_left hkeep, List.map_id']

end Text

namespace Specifier

open CodeAtlas.Path (IsPart IsSegment ofSegments front)

def IsName (s : Text) : Prop := IsPart s ∧ '.' ∉ s

instance : DecidablePred IsName := fun s => by unfold IsName; infer_instance

def dotted (names : List Text) : Text := Text.joinWith ['.'] names

/-- A file may be meant by a dotted name: its path is the name, as a file or as a package, or ends
with a slash and that. -/
def Answers (name path : Text) : Prop :=
  ∃ c ∈ absoluteCandidates (Text.replaceChar '.' '/' name),
    path = c ∨ Text.endsWith path ('/' :: c) = true

instance (name path : Text) : Decidable (Answers name path) := by unfold Answers; infer_instance

structure PythonFile where
  dirs : List Text
  stem : Text
  isName : ∀ s ∈ dirs ++ [stem], IsName s

namespace PythonFile

def path (f : PythonFile) : Text := ofSegments false (f.dirs ++ [f.stem ++ ".py"])

/-- The file of a package stands for its directory. -/
def IsPackage (f : PythonFile) : Prop := f.dirs ≠ [] ∧ f.stem = "__init__"

instance (f : PythonFile) : Decidable f.IsPackage := by unfold IsPackage; infer_instance

def module (f : PythonFile) : List Text := if f.IsPackage then f.dirs else f.dirs ++ [f.stem]

def above (f : PythonFile) (levels : Nat) : List Text := f.dirs.take (f.dirs.length - levels)

end PythonFile

section Names

variable {names : List Text}

theorem IsName.isPart {s : Text} (h : IsName s) : IsPart s := h.1

theorem IsName.isSegment {s : Text} (h : IsName s) : IsSegment s :=
  ⟨h.isPart, fun hs => h.2 (hs ▸ .head _), fun hs => h.2 (hs ▸ .head _)⟩

theorem replaceChar_dotted (h : ∀ s ∈ names, IsName s) :
    Text.replaceChar '.' '/' (dotted names) = ofSegments false names := by
  change Text.replaceChar '.' '/' (Text.joinWith ['.'] names) = Text.joinWith ['/'] names
  induction names with
  | nil => rfl
  | cons s names ih =>
    have hs : Text.replaceChar '.' '/' s = s := Text.replaceChar_of_not_mem (h s (.head _)).2
    have ih := ih fun u hu => h u (.tail _ hu)
    cases names with
    | nil => exact hs
    | cons u names =>
      rw [Text.joinWith_cons_cons, Text.joinWith_cons_cons, Text.replaceChar_append,
        Text.replaceChar_append, hs, ih]
      rfl

theorem head?_dotted (h : ∀ s ∈ names, IsName s) : (dotted names).head? ≠ some '.' := by
  cases names with
  | nil => simp [dotted]
  | cons s names =>
    obtain ⟨c, t, rfl⟩ := List.exists_cons_of_ne_nil (h s (.head _)).isPart.ne_nil
    have hc : c ≠ '.' := fun hc => (h _ (.head _)).2 (hc ▸ .head _)
    cases names <;> simpa [dotted] using hc

theorem leadingDots_replicate_append {t : Text} (ht : t.head? ≠ some '.') (dots : Nat) :
    leadingDots (List.replicate dots '.' ++ t) = dots ∧
      inner (List.replicate dots '.' ++ t) = Text.replaceChar '.' '/' t := by
  have hdots : leadingDots (List.replicate dots '.' ++ t) = dots := by
    have hrest : t.takeWhile (· == '.') = [] := by
      cases t with
      | nil => rfl
      | cons c t => simpa using ht
    rw [leadingDots, List.takeWhile_append_of_pos fun c hc => by simp [List.eq_of_mem_replicate hc],
      hrest, List.append_nil, List.length_replicate]
  rw [inner, hdots, List.drop_left' (List.length_replicate ..)]
  exact ⟨rfl, rfl⟩

end Names

/-! The files that are looked up. -/

section Candidates

variable {dirs names : List Text}

theorem ofSegments_ne_nil (h : ∀ s ∈ names, IsName s) (hne : names ≠ []) :
    ofSegments false names ≠ [] := fun hnil =>
  hne ((Path.ofSegments_eq_nil fun s hs => (h s hs).isPart).1 hnil).2

theorem map_front_moduleFiles (h : ∀ s ∈ names, IsName s) (hne : names ≠ []) :
    (moduleFiles (ofSegments false names)).map (front false dirs ++ ·) =
      absoluteCandidates (ofSegments false (dirs ++ names)) := by
  have hjoin : Path.join (ofSegments false names) "__init__.py" =
      ofSegments false names ++ '/' :: ("__init__.py" : Text) := by
    rw [Path.join_ofSegments (fun d hd => (h d (List.mem_of_getLast? hd)).isPart) (by decide),
      ← Path.ofSegments_concat_slash hne, Path.ofSegments_concat]
  rw [moduleFiles, if_neg (mt List.isEmpty_iff.1 (ofSegments_ne_nil h hne)), hjoin,
    Path.ofSegments_append hne]
  simp [absoluteCandidates]

theorem head?_ofSegments (h : ∀ s ∈ names, IsName s) :
    (ofSegments false names).head? ≠ some '/' := by
  by_cases hne : names = []
  · simp [hne, ofSegments, Path.mark]
  · exact Path.Normal.head?_ne ⟨names, hne, fun s hs => (h s hs).isSegment, rfl⟩

theorem head?_of_mem_absoluteCandidates (h : ∀ s ∈ names, IsName s) (hne : names ≠ []) {c : Text}
    (hc : c ∈ absoluteCandidates (ofSegments false names)) : c.head? ≠ some '/' := by
  have hhead := head?_ofSegments h
  obtain ⟨x, t, hx⟩ := List.exists_cons_of_ne_nil (ofSegments_ne_nil h hne)
  rw [hx] at hc hhead
  simp only [absoluteCandidates, List.mem_cons, List.not_mem_nil, or_false] at hc
  rcases hc with rfl | rfl <;> simpa using hhead

end Candidates

namespace PythonFile

variable {f : PythonFile}

theorem isName_dirs {d : Text} (hd : d ∈ f.dirs) : IsName d :=
  f.isName d (List.mem_append_left _ hd)

theorem isName_module {s : Text} (hs : s ∈ f.module) : IsName s := by
  unfold module at hs
  split at hs
  · exact isName_dirs hs
  · exact f.isName s hs

theorem module_ne_nil (f : PythonFile) : f.module ≠ [] := by
  unfold module
  split
  case isTrue h => exact h.1
  case isFalse => simp

theorem path_mem_absoluteCandidates (f : PythonFile) :
    f.path ∈ absoluteCandidates (ofSegments false f.module) := by
  unfold module
  split
  case isTrue h =>
    refine .tail _ (List.mem_singleton.2 ?_)
    rw [path, h.2]
    exact Path.ofSegments_concat_slash h.1 _
  case isFalse =>
    rw [path, Path.ofSegments_concat_append]
    exact .head _

theorem isPythonPath_path (f : PythonFile) : isPythonPath f.path = true := by
  rw [path, Path.ofSegments_concat_append]
  exact Text.endsWith_iff.2 ⟨_, rfl⟩

theorem ancestor_directory {levels : Nat} (hlevels : levels ≤ f.dirs.length) :
    ancestor levels (Path.directory f.path) = ofSegments false (f.above levels) := by
  have hdirs : ∀ d ∈ f.dirs.getLast?, IsPart d :=
    fun d hd => (isName_dirs (List.mem_of_getLast? hd)).isPart
  have hslash : '/' ∉ f.stem ++ ".py" := by
    simp [(f.isName f.stem (by simp)).isPart.slash_not_mem]
  rw [path, Path.directory_ofSegments hdirs hslash]
  exact @ancestor_ofSegments [] f.dirs (by simp) (fun d hd => (isName_dirs hd).isSegment) levels
    hlevels

theorem endsWith_of_suffix {outer names : List Text} (houter : outer ≠ []) (hne : names ≠ [])
    (hmodule : outer ++ names = f.module) :
    ∃ c ∈ absoluteCandidates (ofSegments false names), Text.endsWith f.path ('/' :: c) = true := by
  have hpath := f.path_mem_absoluteCandidates
  rw [← hmodule, Path.ofSegments_append hne, Path.front_eq_concat houter] at hpath
  simp only [absoluteCandidates, List.mem_cons, List.not_mem_nil, or_false] at hpath ⊢
  rcases hpath with hpath | hpath <;> rw [hpath]
  · exact ⟨_, .inl rfl, Text.endsWith_iff.2 ⟨ofSegments false outer, by simp⟩⟩
  · exact ⟨_, .inr rfl, Text.endsWith_iff.2 ⟨ofSegments false outer, by simp⟩⟩

end PythonFile

/-! Names with dots in front. -/

section Climbing

variable {p q : PythonFile} {known : List Text} {levels : Nat} {rest : List Text}

/-- What is looked up in the package above are files of the module, and among them is the one that
stands for a package. -/
theorem files_of_climbing (hmodule : p.above levels ++ rest = q.module)
    (hempty : rest = [] → q.IsPackage) :
    q.path ∈ (moduleFiles (ofSegments false rest)).map (front false (p.above levels) ++ ·) ∧
      ∀ c ∈ (moduleFiles (ofSegments false rest)).map (front false (p.above levels) ++ ·),
        c ∈ absoluteCandidates (ofSegments false q.module) := by
  by_cases hrest : rest = []
  case pos =>
    obtain ⟨hdirs, hstem⟩ := hempty hrest
    have habove : p.above levels = q.dirs := by
      rw [PythonFile.module, if_pos ⟨hdirs, hstem⟩, hrest, List.append_nil] at hmodule
      exact hmodule
    have hfile : (moduleFiles (ofSegments false rest)).map (front false (p.above levels) ++ ·) =
        [q.path] := by
      rw [hrest, habove, PythonFile.path, hstem, Path.ofSegments_concat]
      rfl
    rw [hfile]
    exact ⟨.head _, fun c hc => List.mem_singleton.1 hc ▸ q.path_mem_absoluteCandidates⟩
  case neg =>
    have hnames : ∀ s ∈ rest, IsName s :=
      fun s hs => PythonFile.isName_module (hmodule ▸ List.mem_append_right _ hs)
    rw [map_front_moduleFiles hnames hrest, hmodule]
    exact ⟨q.path_mem_absoluteCandidates, fun c hc => hc⟩

theorem resolve_climbing (hq : q.path ∈ known)
    (honly : ∀ c ∈ absoluteCandidates (ofSegments false q.module), c ∈ known → c = q.path)
    (hlevels : levels ≤ p.dirs.length) (hmodule : p.above levels ++ rest = q.module)
    (hempty : rest = [] → q.IsPackage)
    (hnew : List.replicate (levels + 1) '.' ++ dotted rest ∉ known) :
    resolve p.path (List.replicate (levels + 1) '.' ++ dotted rest) known = some q.path := by
  have hnames : ∀ s ∈ rest, IsName s :=
    fun s hs => PythonFile.isName_module (hmodule ▸ List.mem_append_right _ hs)
  have habove : ∀ d ∈ (p.above levels).getLast?, IsPart d := fun d hd =>
    (PythonFile.isName_dirs (List.mem_of_mem_take (List.mem_of_getLast? hd))).isPart
  obtain ⟨hdots, hinner⟩ := leadingDots_replicate_append (head?_dotted hnames) (levels + 1)
  rw [replaceChar_dotted hnames] at hinner
  obtain ⟨hmem, hfiles⟩ := files_of_climbing hmodule hempty
  have htried : tried p.path (List.replicate (levels + 1) '.' ++ dotted rest) =
      (moduleFiles (ofSegments false rest)).map (front false (p.above levels) ++ ·) := by
    have hpackage : ancestor (levels + 1 - 1) (Path.directory p.path) =
        ofSegments false (p.above levels) := PythonFile.ancestor_directory hlevels
    rw [tried, hdots, hinner, relativeCandidates_eq hpackage habove (head?_ofSegments hnames)]
    refine (List.map_congr_left fun c hc => ?_).trans (List.map_id' _)
    exact Text.dropWhile_of_head?_ne (head?_of_mem_absoluteCandidates
      (fun s hs => PythonFile.isName_module hs) q.module_ne_nil (hfiles c hc))
  rw [resolve_relative p.isPythonPath_path rfl hnew, htried]
  exact find?_eq_some_of_only hmem hq fun c hc hk => honly c (hfiles c hc) hk

end Climbing

/-! Names without dots in front. -/

section Absolute

variable {p q : PythonFile} {known : List Text} {names : List Text}

theorem resolve_absolute {name : Text} (hdot : name.head? ≠ some '.') (hnew : name ∉ known) :
    resolve p.path name known = resolveAbsolute (Text.replaceChar '.' '/' name) known := by
  obtain ⟨hdots, hinner⟩ := leadingDots_replicate_append hdot 0
  rw [List.replicate_zero, List.nil_append] at hdots hinner
  rw [resolve, if_neg hnew, if_pos p.isPythonPath_path, ← hinner]
  exact if_pos hdots

theorem resolveAbsolute_eq {path : Text} (hne : path ≠ []) (known : List Text) :
    resolveAbsolute path known = ((absoluteCandidates path).find? (· ∈ known)).or
      (only? (fun r => (absoluteCandidates path).any fun c => Text.endsWith r ('/' :: c))
        known) := by
  rw [resolveAbsolute, if_neg (mt List.isEmpty_iff.1 hne), Option.orElse_eq_orElse,
    Option.orElse_eq_or]

theorem answers_of_any {name r : Text}
    (h : ((absoluteCandidates (Text.replaceChar '.' '/' name)).any fun c =>
      Text.endsWith r ('/' :: c)) = true) : Answers name r := by
  obtain ⟨c, hc, hr⟩ := List.any_eq_true.1 h
  exact ⟨c, hc, .inr hr⟩

/-- A name without leading dots leads to a file that may be meant by it. -/
theorem answers_of_resolve {name r : Text} (hdot : name.head? ≠ some '.') (hnew : name ∉ known)
    (h : resolve p.path name known = some r) : Answers name r := by
  rw [resolve_absolute hdot hnew] at h
  by_cases hne : Text.replaceChar '.' '/' name = []
  · rw [hne] at h
    cases h
  · rw [resolveAbsolute_eq hne, Option.or_eq_some_iff] at h
    rcases h with h | ⟨-, h⟩
    · exact ⟨r, List.mem_of_find?_eq_some h, .inl rfl⟩
    · exact answers_of_any (only?_mem h).2

theorem only?_eq_some {a : Text → Bool} {path : Text} (hmem : path ∈ known) (ha : a path = true)
    (honly : ∀ r ∈ known, a r = true → r = path) : only? a known = some path := by
  have hall : ∀ r ∈ distinct (known.filter a), r = path := by
    intro r hr
    obtain ⟨hknown, hr⟩ := List.mem_filter.1 (mem_distinct.1 hr)
    exact honly r hknown hr
  have hpath : path ∈ distinct (known.filter a) := mem_distinct.2 (List.mem_filter.2 ⟨hmem, ha⟩)
  have hsingle : distinct (known.filter a) = [path] := by
    by_contra hne
    rcases (List.Nodup.ne_singleton_iff (nodup_distinct _) path).1 hne with hnil | ⟨r, hr, hother⟩
    · rw [hnil] at hpath
      cases hpath
    · exact hother (hall r hr)
  rw [only?, hsingle]

theorem resolveAbsolute_of_only (h : ∀ s ∈ names, IsName s) (hne : names ≠ []) {path : Text}
    (hmem : path ∈ known) (hpath : ∃ c ∈ absoluteCandidates (ofSegments false names),
      Text.endsWith path ('/' :: c) = true)
    (honly : ∀ r ∈ known, Answers (dotted names) r → r = path) :
    resolveAbsolute (ofSegments false names) known = some path := by
  rw [resolveAbsolute_eq (ofSegments_ne_nil h hne)]
  rw [← replaceChar_dotted h] at hpath ⊢
  cases hfind : (absoluteCandidates (Text.replaceChar '.' '/' (dotted names))).find?
      (· ∈ known) with
  | some c =>
    have hknown : c ∈ known := by simpa using List.find?_some hfind
    rw [Option.some_or, honly c hknown ⟨c, List.mem_of_find?_eq_some hfind, .inl rfl⟩]
  | none =>
    rw [Option.none_or]
    exact only?_eq_some hmem (List.any_eq_true.2 hpath)
      fun r hr ha => honly r hr (answers_of_any ha)

end Absolute

/-- The names under which a file `p` may import the module of a file `q`: dots that climb to a
package above `p` and the rest of the module's name, the full name, and an end of it to which no
other file answers. -/
inductive Spelling (p q : PythonFile) (known : List Text) : Text → Prop
  | climbing {levels : Nat} {rest : List Text} : levels ≤ p.dirs.length →
      p.above levels ++ rest = q.module → (rest = [] → q.IsPackage) →
      Spelling p q known (List.replicate (levels + 1) '.' ++ dotted rest)
  | full : Spelling p q known (dotted q.module)
  | suffix {outer names : List Text} : outer ≠ [] → names ≠ [] → outer ++ names = q.module →
      (∀ r ∈ known, Answers (dotted names) r → r = q.path) → Spelling p q known (dotted names)

/-- Each spelling of a module leads to its file, if no other file may hold the module, and no name
without leading dots leads to a file that does not answer to it. -/
theorem resolve_spellings (p : PythonFile) {known : List Text} {specifier : Text}
    (hnew : specifier ∉ known) :
    (∀ q : PythonFile, q.path ∈ known →
      (∀ c ∈ absoluteCandidates (ofSegments false q.module), c ∈ known → c = q.path) →
        Spelling p q known specifier → resolve p.path specifier known = some q.path) ∧
    (specifier.head? ≠ some '.' → ∀ r, resolve p.path specifier known = some r →
      Answers specifier r) := by
  constructor
  · intro q hq honly hspelling
    have hmodule : ∀ s ∈ q.module, IsName s := fun s hs => PythonFile.isName_module hs
    cases hspelling with
    | climbing hlevels habove hempty => exact resolve_climbing hq honly hlevels habove hempty hnew
    | full =>
      rw [resolve_absolute (head?_dotted hmodule) hnew, replaceChar_dotted hmodule,
        resolveAbsolute_eq (ofSegments_ne_nil hmodule q.module_ne_nil),
        find?_eq_some_of_only q.path_mem_absoluteCandidates hq honly, Option.some_or]
    | @suffix outer names houter hne hnames hsuffix =>
      have hname : ∀ s ∈ names, IsName s :=
        fun s hs => hmodule s (hnames ▸ List.mem_append_right _ hs)
      have hend := PythonFile.endsWith_of_suffix houter hne hnames
      rw [resolve_absolute (head?_dotted hname) hnew, replaceChar_dotted hname]
      exact resolveAbsolute_of_only hname hne hq hend hsuffix
  · exact fun hdot r hr => answers_of_resolve hdot hnew hr

def nestedFiles : List Text :=
  ["src/pkg/__init__.py", "src/pkg/util.py", "src/pkg/sub/mod.py", "src/lib/__init__.py"]

def nestedImporter : PythonFile := ⟨["src", "pkg", "sub"], "mod", by decide⟩

def nestedPackage : PythonFile := ⟨["src", "pkg"], "__init__", by decide⟩

def nestedModule : PythonFile := ⟨["src", "pkg"], "util", by decide⟩

theorem resolve_spellings_nested :
    resolve nestedImporter.path ".." nestedFiles = some nestedPackage.path ∧
      resolve nestedImporter.path "src.pkg.util" nestedFiles = some nestedModule.path ∧
      resolve nestedImporter.path "pkg.util" nestedFiles = some nestedModule.path ∧
      ∀ r, resolve nestedImporter.path "util" nestedFiles = some r → Answers "util" r := by
  have honly : ∀ c ∈ absoluteCandidates (ofSegments false nestedModule.module), c ∈ nestedFiles →
      c = nestedModule.path := by decide
  have hup : Spelling nestedImporter nestedPackage nestedFiles ".." :=
    @Spelling.climbing _ _ _ 1 [] (by decide) (by decide) fun _ => by decide
  have hend : Spelling nestedImporter nestedModule nestedFiles "pkg.util" :=
    @Spelling.suffix _ _ _ ["src"] ["pkg", "util"] (by decide) (by decide) (by decide) (by decide)
  exact ⟨(resolve_spellings nestedImporter (by decide)).1 _ (by decide) (by decide) hup,
    (resolve_spellings nestedImporter (by decide)).1 _ (by decide) honly .full,
    (resolve_spellings nestedImporter (by decide)).1 _ (by decide) honly hend,
    (resolve_spellings nestedImporter (by decide)).2 (by decide)⟩

end Specifier

end CodeAtlas
