import CodeAtlas.Proofs.Codebase.FileOrder
import CodeAtlas.Proofs.Order
import CodeAtlas.Proofs.Path.Segments
import Mathlib.Data.List.FinRange
import Mathlib.Data.List.Induction

set_option autoImplicit false

namespace CodeAtlas

theorem firstsBy_append {α κ : Type} [DecidableEq κ] (key : α → κ) (seen : List κ) (xs ys : List α) :
    firstsBy key seen (xs ++ ys) =
      firstsBy key seen xs ++ firstsBy key (xs.map key ++ seen) ys := by
  induction xs generalizing seen with
  | nil => rfl
  | cons x rest ih =>
    by_cases hx : key x ∈ seen
    · have hseen : ∀ k, k ∈ rest.map key ++ seen ↔ k ∈ (x :: rest).map key ++ seen := by
        intro k
        simp only [List.map_cons, List.cons_append, List.mem_cons, List.mem_append]
        refine ⟨.inr, ?_⟩
        rintro (rfl | h)
        · exact .inr hx
        · exact h
      simp only [List.cons_append, firstsBy, if_pos hx]
      rw [ih, firstsBy_congr hseen]
    · have hseen : ∀ k, k ∈ rest.map key ++ key x :: seen ↔ k ∈ (x :: rest).map key ++ seen := by
        intro k
        simp only [List.map_cons, List.cons_append, List.mem_cons, List.mem_append]
        exact or_left_comm
      simp only [List.cons_append, firstsBy, if_neg hx]
      rw [ih, firstsBy_congr hseen]

/-- Keys that occur once and are those of all members part a list. -/
theorem perm_flatMap_filter {α κ : Type} [DecidableEq κ] {key : α → κ} {xs : List α} {keys : List κ}
    (hxs : xs.Nodup) (hkeys : keys.Nodup) (hall : ∀ x ∈ xs, key x ∈ keys) :
    (keys.flatMap fun k => xs.filter fun x => key x = k).Perm xs := by
  have hapart : keys.Pairwise fun k l => List.Disjoint (xs.filter fun x => key x = k)
      (xs.filter fun x => key x = l) := by
    refine hkeys.imp fun {k l} hne x hk hl => hne ?_
    simp only [List.mem_filter, decide_eq_true_eq] at hk hl
    exact hk.2.symm.trans hl.2
  have hnodup := List.nodup_flatMap.2 ⟨fun k _ => hxs.filter fun x => key x = k, hapart⟩
  refine (List.perm_ext_iff_of_nodup hnodup hxs).2 fun x => ?_
  simp only [List.mem_flatMap, List.mem_filter, decide_eq_true_eq]
  constructor
  · rintro ⟨_, _, hx, _⟩
    exact hx
  · intro hx
    exact ⟨key x, hall x hx, hx, rfl⟩

namespace Path

/-- A path and the directory it stands in, which is `/` if the path has no slash. -/
inductive StandsIn : Text → Text → Prop
  | plain {name : Text} (h : '/' ∉ name) : StandsIn name "/"
  | root {slashes name : Text} (hne : slashes ≠ []) (hs : ∀ c ∈ slashes, c = '/')
      (h : '/' ∉ name) : StandsIn (slashes ++ name) slashes
  | below {front slashes name : Text} {last : Char} (hlast : last ≠ '/') (hne : slashes ≠ [])
      (hs : ∀ c ∈ slashes, c = '/') (h : '/' ∉ name) :
      StandsIn (front ++ [last] ++ slashes ++ name) (front ++ [last])

theorem slash_not_mem_baseName (p : Text) : '/' ∉ baseName p := by
  intro h
  have hmem := List.mem_takeWhile_imp (List.mem_reverse.1 h)
  simp at hmem

theorem exists_dropRight (p : Char → Bool) (t : Text) :
    ∃ dropped, t = Text.dropRight p t ++ dropped ∧ (∀ c ∈ dropped, p c = true) ∧
      ∀ c ∈ (Text.dropRight p t).getLast?, p c = false := by
  refine ⟨(t.reverse.takeWhile p).reverse, ?_, fun c hc => ?_, fun c hc => ?_⟩
  · rw [Text.dropRight, ← List.reverse_append, List.takeWhile_append_dropWhile, List.reverse_reverse]
  · exact List.mem_takeWhile_imp (List.mem_reverse.1 hc)
  · have hnot := List.head?_dropWhile_not p t.reverse
    rw [Text.dropRight, List.getLast?_reverse] at hc
    rw [hc] at hnot
    exact hnot

theorem head_eq_dropRight (p : Text) : head p = Text.dropRight (· != '/') p := rfl

theorem head_ends (p : Text) : head p = [] ∨ ∃ t, head p = t ++ ['/'] := by
  rcases List.eq_nil_or_concat' (head p) with hnil | ⟨t, last, hlast⟩
  · exact .inl hnil
  · obtain ⟨_, _, _, hend⟩ := exists_dropRight (· != '/') p
    rw [← head_eq_dropRight, hlast] at hend
    have hslash : last = '/' := by simpa using hend
    exact .inr ⟨t, hslash ▸ hlast⟩

theorem exists_standsIn (path : Text) : ∃ dir, StandsIn path dir := by
  suffices h : ∀ name, '/' ∉ name → ∃ dir, StandsIn (head path ++ name) dir by
    have hstands := h _ (slash_not_mem_baseName path)
    rwa [head_append_baseName] at hstands
  intro name hname
  obtain ⟨slashes, hsplit, hs, hlast⟩ := exists_dropRight (· == '/') (head path)
  have hslashes : ∀ c ∈ slashes, c = '/' := fun c hc => beq_iff_eq.1 (hs c hc)
  rcases List.eq_nil_or_concat' (Text.dropRight (· == '/') (head path)) with hnil | ⟨front, last, hrest⟩
  · rw [hnil, List.nil_append] at hsplit
    rw [hsplit]
    rcases eq_or_ne slashes [] with rfl | hne
    · exact ⟨_, .plain hname⟩
    · exact ⟨_, .root hne hslashes hname⟩
  · rw [hrest] at hsplit hlast
    have hsolid : last ≠ '/' := by simpa using hlast
    have hne : slashes ≠ [] := by
      rintro rfl
      rcases head_ends path with hnil | ⟨t, hend⟩
      · simp [hnil] at hsplit
      · rw [List.append_nil, hend] at hsplit
        have hslash : ['/'] = [last] := List.append_inj_right' hsplit rfl
        exact hsolid (List.singleton_inj.1 hslash).symm
    rw [hsplit]
    exact ⟨_, .below hsolid hne hslashes hname⟩

theorem StandsIn.nameOf_eq {path dir : Text} (h : StandsIn path dir) :
    Module.nameOf path = dir := by
  have hends : ∀ {slashes : Text}, slashes ≠ [] → (∀ c ∈ slashes, c = '/') → ∀ front : Text,
      ∃ t, front ++ slashes = t ++ ['/'] := by
    intro slashes hne hs front
    obtain ⟨t, last, rfl⟩ := (List.eq_nil_or_concat' slashes).resolve_left hne
    exact ⟨front ++ t, by rw [hs last (by simp), List.append_assoc]⟩
  cases h with
  | plain hname =>
    have hhead := (head_and_baseName_append (.inl rfl) hname).1
    rw [List.nil_append] at hhead
    simp [Module.nameOf, directory, hhead]
  | root hne hs hname =>
    have hhead := (head_and_baseName_append (.inr (hends hne hs [])) hname).1
    rw [List.nil_append] at hhead
    have hall : dir.all (· == '/') = true := by simpa using hs
    simp only [Module.nameOf, directory, hhead, if_pos hall, List.isEmpty_iff, if_neg hne]
  | @below front slashes name last hlast hne hs hname =>
    have hhead := (head_and_baseName_append (.inr (hends hne hs (front ++ [last]))) hname).1
    have hall : ¬ (front ++ [last] ++ slashes).all (· == '/') = true := by simp [hlast]
    have hdrop : Text.dropRight (· == '/') (front ++ [last] ++ slashes) = front ++ [last] :=
      Text.dropRight_append (by simpa using hs) (by simp [hlast])
    have hne : front ++ [last] ≠ [] := List.append_ne_nil_of_right_ne_nil _ (List.cons_ne_nil _ _)
    simp only [Module.nameOf, directory, hhead, if_neg hall, hdrop, List.isEmpty_iff, if_neg hne]

theorem standsIn_iff {path dir : Text} : StandsIn path dir ↔ Module.nameOf path = dir := by
  constructor
  · exact StandsIn.nameOf_eq
  · rintro rfl
    obtain ⟨dir, h⟩ := exists_standsIn path
    rwa [h.nameOf_eq]

theorem fst_splitExtension_of_eq_nil {p : Text} (h : (splitExtension p).2 = []) :
    (splitExtension p).1 = p := by
  simp only [splitExtension] at h ⊢
  split at h
  · simp at h
  · rename_i hcond
    rw [if_neg hcond]

theorem fst_splitExtension_eq_iff {name stem : Text} (hname : '/' ∉ name)
    (hstem : ∃ c ∈ stem, c ≠ '.') (hwhole : (splitExtension stem).2 = []) :
    (splitExtension name).1 = stem ↔
      name = stem ∨ ∃ ending, '.' ∉ ending ∧ name = stem ++ '.' :: ending := by
  obtain ⟨hhead, hbase⟩ := head_and_baseName_append (.inl rfl) hname
  rw [List.nil_append] at hhead hbase
  constructor
  · intro h
    rcases eq_or_ne (splitExtension name).2 [] with hnone | hsome
    · exact .inl ((fst_splitExtension_of_eq_nil hnone).symm.trans h)
    · obtain ⟨front, ending, hsplit, hending, hfront⟩ := exists_of_splitExtension hsome
      rw [splitExtension_eq hsplit hending hfront, hhead, List.nil_append] at h
      exact .inr ⟨ending, hending, h ▸ hbase.symm.trans hsplit⟩
  · rintro (rfl | ⟨ending, hending, rfl⟩)
    · exact fst_splitExtension_of_eq_nil hwhole
    · rw [splitExtension_eq hbase hending hstem, hhead, List.nil_append]

end Path

namespace Module

/-- A file name that marks the entry of a module: `index`, with one extension or none, or
`__init__.py`. -/
def EntryNamed (path : Text) : Prop :=
  Path.baseName path = "__init__.py" ∨ Path.baseName path = "index" ∨
    ∃ ending, '.' ∉ ending ∧ Path.baseName path = "index" ++ '.' :: ending

theorem isEntry_iff {path : Text} : isEntry path = true ↔ EntryNamed path := by
  have hindex := @Path.fst_splitExtension_eq_iff _ "index" (Path.slash_not_mem_baseName path)
    ⟨'i', by decide +kernel, by decide⟩ (by decide +kernel)
  rw [isEntry, Bool.or_eq_true, decide_eq_true_eq, decide_eq_true_eq, hindex, or_comm]
  rfl

instance : DecidablePred EntryNamed := fun _ => decidable_of_iff _ isEntry_iff

structure Holds (parsed : List ParsedFile) (m : Module) : Prop where
  files : m.files = parsed.map (·.path)
  dependencies : m.dependencies = distinct (parsed.flatMap fun f => f.imports.map (·.source))
  entryPoint : m.entryPoint = m.files.find? fun path => EntryNamed path

theorem addNew_eq (names new : List Text) : addNew names new = names ++ firstsBy id names new := by
  induction new generalizing names with
  | nil => simp [addNew, firstsBy]
  | cons n rest ih =>
    by_cases hn : n ∈ names
    · simp only [addNew, firstsBy, id, if_pos hn, ih]
    · have hseen : ∀ k, k ∈ names ++ [n] ↔ k ∈ n :: names := by simp [or_comm]
      simp only [addNew, firstsBy, id, if_neg hn, ih, firstsBy_congr hseen, List.append_assoc,
        List.singleton_append]

theorem addNew_distinct (names new : List Text) :
    addNew (distinct names) new = distinct (names ++ new) := by
  have hseen : ∀ k, k ∈ distinct names ↔ k ∈ names.map id ++ [] := by simp
  rw [addNew_eq, firstsBy_congr hseen, distinct, distinct, firstsBy_append]

theorem holds_nil (name : Text) : Holds [] ⟨name, [], [], none⟩ := ⟨rfl, rfl, rfl⟩

theorem Holds.add {files : List ParsedFile} {m : Module} (h : Holds files m) (f : ParsedFile) :
    Holds (files ++ [f]) (add f m) := by
  constructor
  · simp [h.files]
  · simp [Module.add, h.dependencies, addNew_distinct]
  · have hlast : [f.path].find? (fun path => EntryNamed path) =
        if isEntry f.path then some f.path else none := by
      by_cases hf : EntryNamed f.path <;> simp [isEntry_iff, hf]
    rw [files_add, List.find?_append, hlast, ← h.entryPoint]
    exact (Option.orElse_eq_or ..)

/-- The modules with one more file: that of its directory holds it, and the others are as before. -/
theorem mem_insert {f : ParsedFile} {modules : List Module} (h : (modules.map (·.name)).Nodup)
    {m : Module} (hm : m ∈ insert f modules) :
    (m ∈ modules ∧ m.name ≠ nameOf f.path) ∨
    (∃ old ∈ modules, old.name = nameOf f.path ∧ m = add f old) ∨
    nameOf f.path ∉ modules.map (·.name) ∧ m = add f ⟨nameOf f.path, [], [], none⟩ := by
  induction modules with
  | nil => exact .inr (.inr ⟨List.not_mem_nil, List.mem_singleton.1 hm⟩)
  | cons first rest ih =>
    obtain ⟨hfirst, hrest⟩ := List.nodup_cons.1 h
    rw [insert] at hm
    split at hm
    · rename_i hname
      rcases List.mem_cons.1 hm with rfl | hm
      · exact .inr (.inl ⟨first, .head _, hname, rfl⟩)
      · refine .inl ⟨.tail _ hm, fun he => hfirst ?_⟩
        exact List.mem_map.2 ⟨m, hm, he.trans hname.symm⟩
    · rename_i hname
      rcases List.mem_cons.1 hm with rfl | hm
      · exact .inl ⟨.head _, hname⟩
      · rcases ih hrest hm with ⟨hmem, hne⟩ | ⟨old, hold, hsame, rfl⟩ | ⟨hnew, rfl⟩
        · exact .inl ⟨.tail _ hmem, hne⟩
        · exact .inr (.inl ⟨old, .tail _ hold, hsame, rfl⟩)
        · refine .inr (.inr ⟨?_, rfl⟩)
          rw [List.map_cons, List.mem_cons, not_or]
          exact ⟨Ne.symm hname, hnew⟩

theorem nodup_name_group (files : List ParsedFile) : ((group files).map (·.name)).Nodup := by
  rw [map_name_group]
  exact nodup_distinct _

theorem holds_group (files : List ParsedFile) :
    ∀ m ∈ group files, Holds (files.filter fun f => nameOf f.path = m.name) m := by
  induction files using List.reverseRecOn with
  | nil => simp [group]
  | append_singleton files f ih =>
    intro m hm
    rw [group, List.foldl_append] at hm
    rw [List.filter_append]
    rcases mem_insert (nodup_name_group files) hm with ⟨hold, hne⟩ | ⟨old, hold, hname, rfl⟩ | ⟨hnew, rfl⟩
    · rw [List.filter_cons_of_neg (by simpa using Ne.symm hne), List.filter_nil, List.append_nil]
      exact ih m hold
    · rw [name_add, List.filter_cons_of_pos (by simp [hname]), List.filter_nil]
      exact (ih old hold).add f
    · rw [map_name_group, mem_distinct] at hnew
      have hnone : files.filter (fun g => nameOf g.path = nameOf f.path) = [] := by
        refine List.filter_eq_nil_iff.2 fun g hg he => hnew ?_
        exact List.mem_map.2 ⟨g, hg, of_decide_eq_true he⟩
      rw [name_add, List.filter_cons_of_pos (by simp), List.filter_nil, hnone]
      exact (holds_nil _).add f

def positions (files : List ParsedFile) (name : Text) : List (Fin files.length) :=
  (List.finRange files.length).filter fun i => nameOf files[i].path = name

theorem map_positions (files : List ParsedFile) (name : Text) :
    (positions files name).map (fun i => files[i]) =
      files.filter fun f => nameOf f.path = name := by
  conv_rhs => rw [← List.map_getElem_finRange files, List.filter_map]
  rfl

/-- Modules that part some files by directory. -/
structure ByDirectory (parsed : List ParsedFile) (modules : List Module) : Prop where
  names : FirstSeen (parsed.map fun f => nameOf f.path) (modules.map (·.name))
  once : (modules.flatMap fun m => positions parsed m.name).Perm (List.finRange parsed.length)
  files : ∀ m ∈ modules, m.files = (positions parsed m.name).map fun i => parsed[i].path
  dependencies : ∀ m ∈ modules, FirstSeen
    ((positions parsed m.name).flatMap fun i => parsed[i].imports.map (·.source)) m.dependencies
  entryPoint : ∀ m ∈ modules, m.entryPoint = m.files.find? fun path => EntryNamed path

theorem byDirectory_group (files : List ParsedFile) : ByDirectory files (group files) := by
  have hholds : ∀ m ∈ group files, Holds ((positions files m.name).map fun i => files[i]) m := by
    intro m hm
    rw [map_positions]
    exact holds_group files m hm
  constructor
  case names =>
    rw [map_name_group]
    exact firstSeen_distinct _
  case once =>
    have hall : ∀ i ∈ List.finRange files.length,
        nameOf files[i].path ∈ (group files).map (·.name) := by
      intro i _
      rw [map_name_group, mem_distinct]
      exact List.mem_map_of_mem (List.getElem_mem i.isLt)
    have hperm := perm_flatMap_filter (List.nodup_finRange _) (nodup_name_group files) hall
    rw [List.flatMap_map] at hperm
    exact hperm
  case files => exact fun m hm => (hholds m hm).files.trans (by rw [List.map_map]; rfl)
  case dependencies =>
    intro m hm
    rw [(hholds m hm).dependencies, List.flatMap_map]
    exact firstSeen_distinct _
  case entryPoint => exact fun m hm => (hholds m hm).entryPoint

end Module

end CodeAtlas
