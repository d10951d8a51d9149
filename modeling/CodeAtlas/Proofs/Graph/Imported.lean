import CodeAtlas.Graph.Imports
import Mathlib.Logic.Relation

set_option autoImplicit false

namespace CodeAtlas.Graph

variable {g : Graph}

def Imports (g : Graph) (a b : Text) : Prop := b ∈ g.importedFiles a

theorem mem_importedFiles {a b : Text} :
    b ∈ g.importedFiles a ↔
      (∃ e ∈ g.edges, e.source = a ∧ e.link = .imports ∧ e.target = b) ∧ g.isFile b = true := by
  simp only [importedFiles, outgoing, List.mem_filter, List.mem_map, Bool.and_eq_true,
    decide_eq_true_eq, Option.all_some, eq_comm (a := Link.imports), and_assoc]

def ahead (g : Graph) (visited : List Text) : Nat := g.edges.countP fun e => e.source ∉ visited

theorem length_importedFiles_le (g : Graph) (a : Text) :
    (g.importedFiles a).length ≤ g.edges.countP fun e => e.source = a := by
  have hout : (g.outgoing a (some .imports)).length ≤ g.edges.countP fun e => e.source = a := by
    rw [outgoing, ← List.countP_eq_length_filter]
    refine List.countP_mono_left fun e _ he => ?_
    exact (Bool.and_eq_true_iff.1 he).1
  have hfile := List.length_filter_le (g.isFile ·) ((g.outgoing a (some .imports)).map (·.target))
  rw [List.length_map] at hfile
  exact Nat.le_trans hfile hout

theorem ahead_cons {visited : List Text} {a : Text} (h : a ∉ visited) :
    g.ahead (a :: visited) + g.edges.countP (fun e => e.source = a) = g.ahead visited := by
  unfold ahead
  induction g.edges with
  | nil => rfl
  | cons e rest ih =>
    rw [List.countP_cons, List.countP_cons, List.countP_cons]
    by_cases hs : e.source = a
    · have hin : decide (e.source ∉ a :: visited) = false := by simp [hs]
      have hout : decide (e.source ∉ visited) = true := by simp [hs, h]
      rw [hin, hout, decide_eq_true hs]
      simp only [Bool.false_eq_true, if_false, if_true]
      omega
    · have hin : decide (e.source ∉ a :: visited) = decide (e.source ∉ visited) := by simp [hs]
      rw [hin, decide_eq_false hs]
      simp only [Bool.false_eq_true, if_false]
      omega

theorem exists_of_mem_visit {fuel : Nat} {visited stack : List Text} {path : Text}
    (h : path ∈ g.visit fuel visited stack) :
    ∃ a ∈ stack, Relation.ReflTransGen g.Imports a path := by
  induction fuel generalizing visited stack with
  | zero => simp [visit] at h
  | succ fuel ih =>
    cases stack with
    | nil => simp [visit] at h
    | cons top stack =>
      simp only [visit] at h
      split at h
      · obtain ⟨a, ha, hpath⟩ := ih h
        exact ⟨a, .tail _ ha, hpath⟩
      · rcases List.mem_cons.1 h with rfl | h
        · exact ⟨path, .head _, .refl⟩
        · obtain ⟨a, ha, hpath⟩ := ih h
          rcases List.mem_append.1 ha with ha | ha
          · exact ⟨top, .head _, .head ha hpath⟩
          · exact ⟨a, .tail _ ha, hpath⟩

/-- What a search leaves behind: it has been to all of its stack, and with a file also to all that
the file imports. -/
structure Exhausts (g : Graph) (visited stack found : List Text) : Prop where
  stack : ∀ a ∈ stack, a ∈ visited ∨ a ∈ found
  imports : ∀ a ∈ found, ∀ b, g.Imports a b → b ∈ visited ∨ b ∈ found

/-- A search with enough fuel goes on until nothing is left on the stack. -/
theorem exhausts_visit {fuel : Nat} {visited stack : List Text}
    (h : stack.length + g.ahead visited ≤ fuel) :
    Exhausts g visited stack (g.visit fuel visited stack) := by
  induction fuel generalizing visited stack with
  | zero =>
    have hnil : stack = [] := List.length_eq_zero_iff.1 (by omega)
    subst hnil
    exact ⟨by simp, by simp [visit]⟩
  | succ fuel ih =>
    cases stack with
    | nil => exact ⟨by simp, by simp [visit]⟩
    | cons top stack =>
      rw [List.length_cons] at h
      by_cases htop : top ∈ visited
      · have hrest := @ih visited stack (by omega)
        rw [visit, if_pos htop]
        refine ⟨?_, hrest.imports⟩
        intro a ha
        rcases List.mem_cons.1 ha with rfl | ha
        · exact .inl htop
        · exact hrest.stack a ha
      · -- The edges of the top that are ahead no longer make up for the files put on the stack.
        have hahead := @ahead_cons g visited top htop
        have himported := length_importedFiles_le g top
        have hrest := @ih (top :: visited) (g.importedFiles top ++ stack)
          (by rw [List.length_append]; omega)
        have seen : ∀ b, (b ∈ top :: visited ∨
            b ∈ g.visit fuel (top :: visited) (g.importedFiles top ++ stack)) →
            b ∈ visited ∨ b ∈ top :: g.visit fuel (top :: visited) (g.importedFiles top ++ stack) := by
          rintro b (hb | hb)
          · rcases List.mem_cons.1 hb with rfl | hb
            · exact .inr (.head _)
            · exact .inl hb
          · exact .inr (.tail _ hb)
        rw [visit, if_neg htop]
        constructor
        case stack =>
          intro a ha
          rcases List.mem_cons.1 ha with rfl | ha
          · exact .inr (.head _)
          · exact seen a (hrest.stack a (List.mem_append_right _ ha))
        case imports =>
          intro a ha b hab
          rcases List.mem_cons.1 ha with rfl | ha
          · exact seen b (hrest.stack b (List.mem_append_left _ hab))
          · exact seen b (hrest.imports a ha b hab)

/-- The files found are those that import edges lead to. -/
theorem mem_preorder {entry path : Text} :
    path ∈ g.preorder entry ↔ Relation.ReflTransGen g.Imports entry path := by
  constructor
  · intro h
    obtain ⟨a, ha, hpath⟩ := exists_of_mem_visit h
    rw [List.mem_singleton] at ha
    exact ha ▸ hpath
  · intro h
    have hfuel : [entry].length + g.ahead [] ≤ g.edges.length + 1 := by
      have hle := List.countP_le_length (p := fun e : Edge => e.source ∉ []) (l := g.edges)
      rw [List.length_singleton, ahead]
      omega
    have hsearch := exhausts_visit hfuel
    induction h with
    | refl => exact (hsearch.stack entry (.head _)).resolve_left List.not_mem_nil
    | tail _ hab ih => exact (hsearch.imports _ ih _ hab).resolve_left List.not_mem_nil

end CodeAtlas.Graph
