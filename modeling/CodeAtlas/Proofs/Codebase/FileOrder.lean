import CodeAtlas.Codebase.Specifier
import CodeAtlas.Codebase.Basic
import Mathlib.Data.List.Perm.Basic

set_option autoImplicit false

namespace CodeAtlas

theorem distinct_perm {α : Type} [DecidableEq α] {xs ys : List α} (h : xs.Perm ys) :
    (distinct xs).Perm (distinct ys) := by
  rw [List.perm_ext_iff_of_nodup (nodup_distinct xs) (nodup_distinct ys)]
  intro x
  rw [mem_distinct, mem_distinct, h.mem_iff]

theorem firstsBy_congr {α κ : Type} [DecidableEq κ] {key : α → κ} {seen other : List κ}
    (h : ∀ k, k ∈ seen ↔ k ∈ other) (xs : List α) :
    firstsBy key seen xs = firstsBy key other xs := by
  induction xs generalizing seen other with
  | nil => rfl
  | cons x rest ih =>
    have hcons : ∀ k, k ∈ key x :: seen ↔ k ∈ key x :: other := by
      intro k
      rw [List.mem_cons, List.mem_cons, h k]
    simp only [firstsBy, h (key x), ih h, ih hcons]

theorem singleton_or_of_perm {α : Type} {xs ys : List α} (h : xs.Perm ys) :
    (∃ x, xs = [x] ∧ ys = [x]) ∨ xs.length ≠ 1 ∧ ys.length ≠ 1 := by
  by_cases hx : xs.length = 1
  · obtain ⟨x, rfl⟩ := List.length_eq_one_iff.1 hx
    exact .inl ⟨x, rfl, (List.singleton_perm.1 h).symm⟩
  · exact .inr ⟨hx, h.length_eq ▸ hx⟩

namespace Specifier

variable {known other : List Text}

theorem only?_perm (p : Text → Bool) (h : known.Perm other) : only? p known = only? p other := by
  have none_of_length : ∀ {xs : List Text}, (distinct (xs.filter p)).length ≠ 1 →
      only? p xs = none := by
    intro xs hx
    unfold only?
    split
    · rename_i x hone
      rw [hone] at hx
      exact absurd rfl hx
    · rfl
  rcases singleton_or_of_perm (distinct_perm (h.filter p)) with ⟨x, hx, hy⟩ | ⟨hx, hy⟩
  · rw [only?, only?, hx, hy]
  · rw [none_of_length hx, none_of_length hy]

theorem find?_known_perm (candidates : List Text) (h : known.Perm other) :
    candidates.find? (· ∈ known) = candidates.find? (· ∈ other) := by
  simp only [h.mem_iff]

/-- A specifier names a file whatever the order of the files. -/
theorem resolve_perm (importer specifier : Text) (h : known.Perm other) :
    resolve importer specifier known = resolve importer specifier other := by
  have habsolute : ∀ rest, resolveAbsolute rest known = resolveAbsolute rest other := by
    intro rest
    rw [resolveAbsolute, resolveAbsolute, find?_known_perm _ h, only?_perm _ h]
  have hpython : resolvePython importer specifier known = resolvePython importer specifier other := by
    rw [resolvePython, resolvePython, habsolute, find?_known_perm _ h]
  have hscript : resolveScript importer specifier known = resolveScript importer specifier other := by
    rw [resolveScript, resolveScript, find?_known_perm _ h]
  simp only [resolve, h.mem_iff, hpython, hscript]

end Specifier

namespace Module

theorem map_name_insert (f : ParsedFile) (modules : List Module) :
    (insert f modules).map (·.name) =
      if nameOf f.path ∈ modules.map (·.name) then modules.map (·.name)
      else modules.map (·.name) ++ [nameOf f.path] := by
  induction modules with
  | nil => rfl
  | cons m rest ih =>
    by_cases hm : m.name = nameOf f.path
    · simp [insert, hm]
    · have hne : nameOf f.path ≠ m.name := fun h => hm h.symm
      rw [insert, if_neg hm, List.map_cons, ih]
      by_cases hr : nameOf f.path ∈ rest.map (·.name)
      · rw [if_pos hr, if_pos (by simp [hr]), List.map_cons]
      · rw [if_neg hr, if_neg (by simp [hne, hr]), List.map_cons, List.cons_append]

theorem map_name_foldl_insert (files : List ParsedFile) (modules : List Module) :
    (files.foldl (fun ms f => insert f ms) modules).map (·.name) =
      modules.map (·.name) ++
        firstsBy id (modules.map (·.name)) (files.map fun f => nameOf f.path) := by
  induction files generalizing modules with
  | nil => simp [firstsBy]
  | cons f rest ih =>
    rw [List.foldl_cons, ih, map_name_insert, List.map_cons, firstsBy]
    by_cases hf : nameOf f.path ∈ modules.map (·.name)
    · rw [if_pos hf, id, if_pos hf]
    · rw [if_neg hf, id, if_neg hf, List.append_assoc, List.singleton_append]
      have hseen : ∀ name, name ∈ modules.map (·.name) ++ [nameOf f.path] ↔
          name ∈ nameOf f.path :: modules.map (·.name) := by
        intro name
        rw [List.mem_append, List.mem_singleton, List.mem_cons, or_comm]
      rw [firstsBy_congr hseen]

theorem map_name_group (files : List ParsedFile) :
    (group files).map (·.name) = distinct (files.map fun f => nameOf f.path) :=
  map_name_foldl_insert files []

theorem length_group_perm {files other : List ParsedFile} (h : files.Perm other) :
    (group files).length = (group other).length := by
  have hnames := (distinct_perm (h.map fun f => nameOf f.path)).length_eq
  rwa [← map_name_group, ← map_name_group, List.length_map, List.length_map] at hnames

end Module

namespace Codebase

/-- Codebases of the same files in whatever order. -/
structure Rearranged (c d : Codebase) : Prop where
  files : c.files.Perm d.files
  dependencies : c.dependencies.Perm d.dependencies
  functionCount : c.functionCount = d.functionCount
  classCount : c.classCount = d.classCount
  moduleCount : c.modules.length = d.modules.length

theorem rearranged_ofParsed {files other : List ParsedFile} (h : files.Perm other) :
    (ofParsed files).Rearranged (ofParsed other) where
  files := h
  dependencies := h.flatMap_right dependenciesOf
  functionCount := (h.flatMap_right ParsedFile.functions).length_eq
  classCount := (h.flatMap_right ParsedFile.classes).length_eq
  moduleCount := Module.length_group_perm h

theorem rearranged_ofFiles {files other : List SourceFile} (h : files.Perm other) :
    (ofFiles files).Rearranged (ofFiles other) :=
  rearranged_ofParsed (h.map fun f => (Scan.ofFile f).file)

theorem Rearranged.paths {c d : Codebase} (h : c.Rearranged d) : c.paths.Perm d.paths :=
  h.files.map ParsedFile.path

end Codebase

end CodeAtlas
