import CodeAtlas.Codebase.Specifier
import CodeAtlas.Proofs.Path.Segments

/-!
Relative module names under another root. When all paths of a codebase are read in some directory,
a relative module name leads from the same file to the same file, as long as it stays in the
codebase and the directory is itself given by a relative path. Under a directory that is given from
the root of the file system, no relative module name leads anywhere.
-/

set_option autoImplicit false

namespace CodeAtlas

theorem Text.length_takeWhile_le {p : Char → Bool} {c : Char} (hc : p c = false) (t u : Text) :
    ((t ++ c :: u).takeWhile p).length ≤ t.length := by
  induction t with
  | nil => simp [hc]
  | cons d t ih =>
    rw [List.cons_append, List.takeWhile_cons]
    split
    · simpa using ih
    · simp

theorem Text.dropWhile_of_head?_ne {c : Char} {t : Text} (h : t.head? ≠ some c) :
    t.dropWhile (· == c) = t := by
  refine Text.dropWhile_of_halts fun d hd => beq_eq_false_iff_ne.2 ?_
  rintro rfl
  exact h hd

namespace Path

variable {dir p q : Text}

theorem exists_join_eq (dir : Text) :
    ∃ t, (t = dir ∨ t = dir ++ ['/']) ∧ (t = [] ∨ ∃ u, t = u ++ ['/']) ∧
      ∀ p : Text, p.head? ≠ some '/' → join dir p = t ++ p := by
  by_cases hend : (dir.isEmpty || Text.endsWith dir ['/']) = true
  case pos =>
    refine ⟨dir, .inl rfl, ?_, fun p hp => ?_⟩
    · rcases Bool.or_eq_true_iff.1 hend with h | h
      · exact .inl (List.isEmpty_iff.1 h)
      · obtain ⟨u, hu⟩ := Text.endsWith_iff.1 h
        exact .inr ⟨u, hu.symm⟩
    · rw [join, if_neg (mt startsWith_slash.1 hp), if_pos hend]
  case neg =>
    refine ⟨dir ++ ['/'], .inr rfl, .inr ⟨dir, rfl⟩, fun p hp => ?_⟩
    rw [join, if_neg (mt startsWith_slash.1 hp), if_neg hend, List.append_assoc]
    rfl

theorem join_nil (p : Text) : join [] p = p := by
  unfold join
  split <;> rfl

theorem join_injective (hp : p.head? ≠ some '/') (hq : q.head? ≠ some '/')
    (h : join dir p = join dir q) : p = q := by
  obtain ⟨t, _, _, ht⟩ := exists_join_eq dir
  rw [ht p hp, ht q hq] at h
  exact List.append_cancel_left h

theorem head?_join (hdir : dir.head? ≠ some '/') (hp : p.head? ≠ some '/') :
    (join dir p).head? ≠ some '/' := by
  obtain ⟨t, hdirs, _, ht⟩ := exists_join_eq dir
  cases dir with
  | nil => rwa [join_nil]
  | cons c dir => rcases hdirs with rfl | rfl <;> rw [ht p hp] <;> simpa using hdir

theorem head?_join_of_rooted (hdir : dir.head? = some '/') (p : Text) :
    (join dir p).head? = some '/' := by
  unfold join
  split
  case isTrue hp => exact startsWith_slash.1 hp
  case isFalse =>
    obtain ⟨t, rfl⟩ : ∃ t, dir = '/' :: t := by
      cases dir with
      | nil => simp at hdir
      | cons c t => exact ⟨t, by simpa using hdir⟩
    split <;> rfl

theorem join_append {t : Text} (ht : t ≠ []) (hp : p.head? ≠ some '/') :
    join (dir ++ t) p = dir ++ join t p := by
  obtain ⟨t, c, rfl⟩ := (List.eq_nil_or_concat' t).resolve_left ht
  simp only [join, if_neg (mt startsWith_slash.1 hp), endsWith_slash, Bool.or_eq_true]
  by_cases hc : c = '/'
  · simp [hc]
  · simp [hc]

end Path

namespace Specifier

open CodeAtlas.Path (IsPart IsSegment Normal ofSegments front)

def leadingDots (specifier : Text) : Nat := (specifier.takeWhile (· == '.')).length

def inner (specifier : Text) : Text :=
  Text.replaceChar '.' '/' (specifier.drop (leadingDots specifier))

def tried (importer specifier : Text) : List Text :=
  (relativeCandidates importer (leadingDots specifier) (inner specifier)).map
    (·.dropWhile (· == '/'))

def moduleFiles (path : Text) : List Text :=
  if path.isEmpty then ["__init__.py"] else [path ++ ".py", Path.join path "__init__.py"]

/-- A relative module name that leads no further up than to the top of the codebase, and goes on
with a name. -/
structure StaysInside (importer specifier : Text) : Prop where
  climb : leadingDots specifier ≤ importer.count '/' + 1
  name : (specifier.dropWhile (· == '.')).head? ≠ some '/'

theorem drop_leadingDots (specifier : Text) :
    specifier.drop (leadingDots specifier) = specifier.dropWhile (· == '.') := by
  calc specifier.drop (leadingDots specifier)
      = (specifier.takeWhile (· == '.') ++ specifier.dropWhile (· == '.')).drop
          (leadingDots specifier) := by rw [List.takeWhile_append_dropWhile]
    _ = specifier.dropWhile (· == '.') := List.drop_left

theorem length_inner (specifier : Text) :
    leadingDots specifier + (inner specifier).length = specifier.length := by
  have hle : leadingDots specifier ≤ specifier.length := (List.takeWhile_prefix _).length_le
  rw [inner, Text.replaceChar, List.length_map, List.length_drop]
  omega

theorem StaysInside.inner_head? {importer specifier : Text} (h : StaysInside importer specifier) :
    (inner specifier).head? ≠ some '/' := by
  rw [inner, drop_leadingDots, Text.replaceChar, List.head?_map]
  have hname := h.name
  have hnot := List.head?_dropWhile_not (· == '.') specifier
  cases hrest : (specifier.dropWhile (· == '.')).head? with
  | none => simp
  | some c =>
    rw [hrest] at hname hnot
    have hdot : c ≠ '.' := by simpa using hnot
    simpa [hdot] using hname

theorem resolve_relative {importer specifier : Text} {known : List Text}
    (hpython : isPythonPath importer = true) (hdot : specifier.head? = some '.')
    (hnew : specifier ∉ known) :
    resolve importer specifier known = (tried importer specifier).find? (· ∈ known) := by
  have hpos : leadingDots specifier ≠ 0 := by
    cases specifier with
    | nil => simp at hdot
    | cons c rest => simp_all [leadingDots]
  rw [resolve, if_neg hnew, if_pos hpython]
  exact if_neg hpos

theorem head?_of_mem_moduleFiles {path c : Text} (hpath : path.head? ≠ some '/')
    (h : c ∈ moduleFiles path) : c.head? ≠ some '/' := by
  unfold moduleFiles at h
  split at h
  · rw [List.mem_singleton.1 h]
    decide
  · rcases List.mem_cons.1 h with rfl | h
    · cases path <;> simp_all
    · rw [List.mem_singleton.1 h]
      exact Path.head?_join hpath (by decide)

theorem length_of_mem_moduleFiles {path c : Text} (h : c ∈ moduleFiles path) :
    path.length < c.length := by
  unfold moduleFiles at h
  split at h
  case isTrue hnil =>
    rw [List.mem_singleton.1 h, List.isEmpty_iff.1 hnil]
    decide
  case isFalse =>
    rcases List.mem_cons.1 h with rfl | h
    · simp
    · obtain ⟨t, hpath, _, ht⟩ := Path.exists_join_eq path
      rw [List.mem_singleton.1 h, ht _ (by decide)]
      rcases hpath with rfl | rfl <;> simp

theorem isPythonPath_join {root importer : Text} (h : isPythonPath importer = true) :
    isPythonPath (Path.join root importer) = true := by
  obtain ⟨u, rfl⟩ := Text.endsWith_iff.1 h
  refine Text.endsWith_iff.2 ?_
  unfold Path.join
  split
  · exact ⟨u, rfl⟩
  · split
    · exact ⟨root ++ u, by simp⟩
    · exact ⟨root ++ '/' :: u, by simp⟩

section Package

variable {outer dirs : List Text} {name : Text}

theorem isPart_of_mem_getLast? (houter : ∀ d ∈ outer.getLast?, IsPart d)
    (h : ∀ d ∈ dirs, IsSegment d) : ∀ d ∈ (outer ++ dirs).getLast?, IsPart d := by
  intro d hd
  rw [List.getLast?_append, Option.mem_def, Option.or_eq_some_iff] at hd
  rcases hd with hd | ⟨_, hd⟩
  · exact (h d (List.mem_of_getLast? hd)).isPart
  · exact houter d hd

theorem ancestor_ofSegments (houter : ∀ d ∈ outer.getLast?, IsPart d)
    (h : ∀ d ∈ dirs, IsSegment d) {levels : Nat} (hlevels : levels ≤ dirs.length) :
    ancestor levels (ofSegments false (outer ++ dirs)) =
      ofSegments false (outer ++ dirs.take (dirs.length - levels)) := by
  induction levels generalizing dirs with
  | zero => rw [Nat.sub_zero, List.take_length, ancestor]
  | succ levels ih =>
    rcases List.eq_nil_or_concat' dirs with rfl | ⟨dirs, d, rfl⟩
    · simp at hlevels
    · have hdirs : ∀ d ∈ dirs, IsSegment d := fun d hd => h d (List.mem_append_left _ hd)
      have hslash : '/' ∉ d := (h d (by simp)).isPart.slash_not_mem
      rw [List.length_append, List.length_singleton] at hlevels ⊢
      rw [ancestor, ← List.append_assoc,
        Path.directory_ofSegments (isPart_of_mem_getLast? houter hdirs) hslash,
        ih hdirs (Nat.le_of_succ_le_succ hlevels), Nat.add_sub_add_right,
        List.take_append_of_le_length (Nat.sub_le _ _)]

theorem ancestor_directory_join (houter : ∀ d ∈ outer.getLast?, IsPart d)
    (h : ∀ s ∈ dirs ++ [name], IsSegment s) {levels : Nat} (hlevels : levels ≤ dirs.length) :
    ancestor levels (Path.directory
        (Path.join (ofSegments false outer) (ofSegments false (dirs ++ [name])))) =
      ofSegments false (outer ++ dirs.take (dirs.length - levels)) := by
  have hdirs : ∀ d ∈ dirs, IsSegment d := fun d hd => h d (List.mem_append_left _ hd)
  have hname : IsPart name := (h name (by simp)).isPart
  have hhead := Path.head?_front_append (fun d hd => (hdirs d hd).isPart) hname.head?_ne
  have hjoin : Path.join (ofSegments false outer) (ofSegments false (dirs ++ [name])) =
      ofSegments false (outer ++ dirs ++ [name]) := by
    rw [Path.ofSegments_concat, Path.ofSegments_concat, Path.front_append,
      Path.join_ofSegments houter hhead, List.append_assoc]
  rw [hjoin, Path.directory_ofSegments (isPart_of_mem_getLast? houter hdirs) hname.slash_not_mem,
    ancestor_ofSegments houter hdirs hlevels]

theorem relativeCandidates_eq {importer path : Text} {dots : Nat}
    (hpackage : ancestor (dots - 1) (Path.directory importer) = ofSegments false dirs)
    (hdirs : ∀ d ∈ dirs.getLast?, IsPart d) (hpath : path.head? ≠ some '/') :
    relativeCandidates importer dots path = (moduleFiles path).map (front false dirs ++ ·) := by
  simp only [relativeCandidates, moduleFiles, hpackage]
  split
  case isTrue => rw [Path.join_ofSegments hdirs (by decide), List.map_singleton]
  case isFalse hne =>
    have hne : path ≠ [] := mt List.isEmpty_iff.2 hne
    rw [Path.join_ofSegments hdirs hpath, Path.join_append hne (by decide), List.append_assoc]
    rfl

theorem count_slash_ofSegments (h : ∀ s ∈ dirs ++ [name], '/' ∉ s) :
    (ofSegments false (dirs ++ [name])).count '/' = dirs.length := by
  rw [Path.ofSegments_concat]
  induction dirs with
  | nil => exact List.count_eq_zero.2 (h name (.head _))
  | cons d dirs ih =>
    have hd : d.count '/' = 0 := List.count_eq_zero.2 (h d (.head _))
    have ih := ih fun s hs => h s (.tail _ hs)
    have hfront : front false (d :: dirs) ++ name = d ++ '/' :: (front false dirs ++ name) := by
      simp [front, Path.mark]
    rw [hfront, List.count_append, List.count_cons_self, ih, hd, List.length_cons]
    omega

end Package

theorem tried_ofSegments {root : Text} (hstart : root.head? ≠ some '/')
    (hend : root.reverse.head? ≠ some '/') {dirs : List Text} {name specifier : Text}
    (h : ∀ s ∈ dirs ++ [name], IsSegment s)
    (hinside : StaysInside (ofSegments false (dirs ++ [name])) specifier) :
    tried (Path.join root (ofSegments false (dirs ++ [name]))) specifier =
      (moduleFiles (inner specifier)).map fun c => Path.join root
        (front false (dirs.take (dirs.length - (leadingDots specifier - 1))) ++ c) := by
  have habove : ∀ d ∈ dirs.take (dirs.length - (leadingDots specifier - 1)), IsSegment d :=
    fun d hd => h d (List.mem_append_left _ (List.mem_of_mem_take hd))
  have hclimb := hinside.climb
  rw [count_slash_ofSegments fun s hs => (h s hs).isPart.slash_not_mem] at hclimb
  obtain ⟨outer, houter, rfl⟩ := Path.exists_ofSegments hend
  rw [tried, relativeCandidates_eq (ancestor_directory_join houter h (by omega))
    (isPart_of_mem_getLast? houter habove) hinside.inner_head?, List.map_map]
  refine List.map_congr_left fun c hc => ?_
  have hhead := Path.head?_front_append (fun d hd => (habove d hd).isPart)
    (head?_of_mem_moduleFiles hinside.inner_head? hc)
  have hplain := Path.head?_join hstart hhead
  rw [Path.join_ofSegments houter hhead] at hplain ⊢
  rw [Function.comp_apply, Path.front_append, List.append_assoc,
    Text.dropWhile_of_head?_ne hplain]

/-- The files that are tried lie in one package, wherever the importing file is read. -/
theorem exists_package {importer specifier : Text} (himporter : Normal false importer)
    (hinside : StaysInside importer specifier) :
    ∃ package, tried importer specifier = (moduleFiles (inner specifier)).map (package ++ ·) ∧
      ∀ root : Text, root.head? ≠ some '/' → root.reverse.head? ≠ some '/' →
        tried (Path.join root importer) specifier =
          (moduleFiles (inner specifier)).map fun c => Path.join root (package ++ c) := by
  obtain ⟨dirs, name, hsegments, rfl⟩ := himporter.exists_concat
  have hbase := @tried_ofSegments [] (by simp) (by simp) dirs name specifier hsegments hinside
  simp only [Path.join_nil] at hbase
  exact ⟨_, hbase, fun root hstart hend => tried_ofSegments hstart hend hsegments hinside⟩

theorem tried_join {root importer specifier : Text} (hstart : root.head? ≠ some '/')
    (hend : root.reverse.head? ≠ some '/') (himporter : Normal false importer)
    (hinside : StaysInside importer specifier) :
    tried (Path.join root importer) specifier =
      (tried importer specifier).map (Path.join root) := by
  obtain ⟨package, hbase, hjoin⟩ := exists_package himporter hinside
  rw [hjoin root hstart hend, hbase, List.map_map]
  rfl

theorem head?_of_mem_tried {importer specifier p : Text} (h : p ∈ tried importer specifier) :
    p.head? ≠ some '/' := by
  obtain ⟨q, _, rfl⟩ := List.mem_map.1 h
  intro hp
  have hnot := List.head?_dropWhile_not (· == '/') q
  rw [hp] at hnot
  simp at hnot

theorem length_of_mem_tried {importer specifier p : Text} (himporter : Normal false importer)
    (hinside : StaysInside importer specifier) (h : p ∈ tried importer specifier) :
    (inner specifier).length < p.length := by
  obtain ⟨package, hbase, _⟩ := exists_package himporter hinside
  rw [hbase] at h
  obtain ⟨c, hc, rfl⟩ := List.mem_map.1 h
  have hlength := length_of_mem_moduleFiles hc
  rw [List.length_append]
  omega

section Relocated

variable {root importer specifier : Text} {known : List Text}

theorem mem_map_join (hknown : ∀ p ∈ known, p.head? ≠ some '/') {c : Text}
    (hc : c.head? ≠ some '/') : Path.join root c ∈ known.map (Path.join root) ↔ c ∈ known := by
  constructor
  · intro h
    obtain ⟨p, hp, hjoin⟩ := List.mem_map.1 h
    rwa [← Path.join_injective (hknown p hp) hc hjoin]
  · exact List.mem_map_of_mem

theorem find?_map_join (hknown : ∀ p ∈ known, p.head? ≠ some '/') {candidates : List Text}
    (hcandidates : ∀ c ∈ candidates, c.head? ≠ some '/') :
    (candidates.map (Path.join root)).find? (· ∈ known.map (Path.join root)) =
      (candidates.find? (· ∈ known)).map (Path.join root) := by
  induction candidates with
  | nil => rfl
  | cons c rest ih =>
    have hc := @mem_map_join root known hknown c (hcandidates c (.head _))
    have ih := ih fun d hd => hcandidates d (.tail _ hd)
    by_cases hk : c ∈ known
    · simp only [List.map_cons, List.find?_cons, hc, hk, decide_true, Option.map_some]
    · simp only [List.map_cons, List.find?_cons, hc, hk, decide_false, ih]

/-- Under a root of the file system nothing is found: what is tried has no slash in front. -/
theorem find?_tried_of_rooted (hroot : root.head? = some '/') (importer specifier : Text)
    (known : List Text) :
    (tried importer specifier).find? (· ∈ known.map (Path.join root)) = none := by
  rw [List.find?_eq_none]
  intro c hc
  rw [decide_eq_true_eq, List.mem_map]
  rintro ⟨p, _, rfl⟩
  exact head?_of_mem_tried hc (Path.head?_join_of_rooted hroot p)

/-- Where a file that is tried becomes the module name itself, it has been that before. -/
theorem eq_of_join_eq_of_mem_tried (himporter : Normal false importer)
    (hinside : StaysInside importer specifier) {p : Text} (hp : p ∈ tried importer specifier)
    (heq : Path.join root p = specifier) : p = specifier := by
  obtain ⟨t, _, hends, ht⟩ := Path.exists_join_eq root
  rw [ht p (head?_of_mem_tried hp)] at heq
  rcases hends with rfl | ⟨u, rfl⟩
  case inl => exact heq
  case inr =>
    -- the slash behind the directory ends the dots, so that the rest of the name has the file in it
    exfalso
    rw [List.append_assoc, List.singleton_append] at heq
    have hdots := Text.length_takeWhile_le (p := (· == '.')) (c := '/') rfl u p
    have hlength := length_of_mem_tried himporter hinside hp
    have htotal := length_inner specifier
    have hcount := congrArg List.length heq
    rw [List.length_append, List.length_cons] at hcount
    rw [heq] at hdots
    rw [leadingDots] at htotal
    omega

/-- Where all files of a codebase are read in some directory, a relative module name leads from a
file to the same file as before iff it has not become the path of a file, and the directory is given
by a relative path unless the name leads nowhere. -/
theorem resolve_relocated_iff (hknown : ∀ p ∈ known, Normal false p)
    (himporter : Normal false importer) (hpython : isPythonPath importer = true)
    (hdot : specifier.head? = some '.') (hnew : specifier ∉ known)
    (hroot : root.head? = some '/' ∨
      root.reverse.head? ≠ some '/' ∧ StaysInside importer specifier) :
    resolve (Path.join root importer) specifier (known.map (Path.join root)) =
        (resolve importer specifier known).map (Path.join root) ↔
      specifier ∉ known.map (Path.join root) ∧
        (root.head? = some '/' → resolve importer specifier known = none) := by
  have hplain : ∀ p ∈ known, p.head? ≠ some '/' := fun p hp => (hknown p hp).head?_ne
  have hbase := resolve_relative hpython hdot hnew
  by_cases hrooted : root.head? = some '/'
  case pos =>
    have hsame : specifier ∉ known.map (Path.join root) := by
      intro hmem
      obtain ⟨p, _, hjoin⟩ := List.mem_map.1 hmem
      have hhead := Path.head?_join_of_rooted hrooted p
      rw [hjoin, hdot] at hhead
      simp at hhead
    rw [resolve_relative (isPythonPath_join hpython) hdot hsame, find?_tried_of_rooted hrooted,
      and_iff_right hsame, eq_comm, Option.map_eq_none_iff]
    exact ⟨fun h _ => h, fun h => h hrooted⟩
  case neg =>
    obtain ⟨hend, hinside⟩ := hroot.resolve_left hrooted
    constructor
    · refine fun hlaw => ⟨fun hmem => ?_, fun h => absurd h hrooted⟩
      rw [resolve, if_pos hmem] at hlaw
      obtain ⟨p, hp, hjoin⟩ := Option.map_eq_some_iff.1 hlaw.symm
      rw [hbase] at hp
      have hsame := eq_of_join_eq_of_mem_tried himporter hinside (List.mem_of_find?_eq_some hp)
        hjoin
      exact hnew (hsame ▸ by simpa using List.find?_some hp)
    · rintro ⟨hsame, _⟩
      rw [resolve_relative (isPythonPath_join hpython) hdot hsame, hbase,
        tried_join hrooted hend himporter hinside,
        find?_map_join hplain fun c hc => head?_of_mem_tried hc]

end Relocated

def packageFiles : List Text :=
  ([["pkg", "b.py"], ["pkg", "sub", "a.py"]] : List (List Text)).map (ofSegments false)

theorem resolve_relocated_sample :
    (∀ p ∈ packageFiles, Normal false p) ∧ StaysInside "pkg/sub/a.py" "..b" ∧
      resolve (Path.join "proj" "pkg/sub/a.py") "..b" (packageFiles.map (Path.join "proj")) =
        (resolve "pkg/sub/a.py" "..b" packageFiles).map (Path.join "proj") ∧
      resolve "pkg/sub/a.py" "..b" packageFiles = some ("pkg/b.py" : Text) := by
  have hknown : ∀ p ∈ packageFiles, Normal false p := Path.normal_of_mem_map (by decide)
  have himporter : Normal false "pkg/sub/a.py" := hknown _ (by decide)
  have hinside : StaysInside "pkg/sub/a.py" "..b" := ⟨by decide, by decide⟩
  exact ⟨hknown, hinside, (resolve_relocated_iff hknown himporter (by decide) (by decide)
    (by decide) (.inr ⟨by decide, hinside⟩)).2 ⟨by decide, by decide⟩, by decide⟩

/-- The same files below the root of the file system. -/
theorem resolve_below_root :
    resolve "pkg/sub/a.py" "..b" packageFiles = some ("pkg/b.py" : Text) ∧
      resolve (Path.join "/proj" "pkg/sub/a.py") "..b" (packageFiles.map (Path.join "/proj")) =
        none := by
  decide

/-- Past the top of the codebase a name is read from the top, but not where the codebase is itself
in some directory. -/
example :
    resolve "a.py" "..b" ["a.py", "b.py"] = some ("b.py" : Text) ∧
      resolve "proj/a.py" "..b" ["proj/a.py", "proj/b.py"] = none := by
  decide

end Specifier

end CodeAtlas
