import CodeAtlas.Data

/-!
Values that are the same but for the order of fields. They are compared by what stands at the end of
paths into them, so that sameness is an equation.
-/

set_option autoImplicit false

namespace CodeAtlas.Data

inductive Step where
  | field (name : Text)
  | item (index : Nat)

def step? : Data → Step → Option Data
  | .record fields, .field name => Fields.get? fields name
  | .list items, .item index => items[index]?
  | _, _ => none

/-- A value without what it holds. -/
def outline : Data → Data
  | .list _ => .list []
  | .record _ => .record []
  | v => v

def at? (v : Data) (path : List Step) : Option Data := (path.foldlM step? v).map outline

/-- Two values have the same at the end of every path. -/
def Same (v w : Data) : Prop := ∀ path, v.at? path = w.at? path

theorem Same.refl (v : Data) : Same v v := fun _ => rfl

theorem Same.symm {v w : Data} (h : Same v w) : Same w v := fun path => (h path).symm

theorem Same.trans {u v w : Data} (h : Same u v) (h' : Same v w) : Same u w :=
  fun path => (h path).trans (h' path)

theorem at?_cons (v : Data) (step : Step) (path : List Step) :
    v.at? (step :: path) = (v.step? step).bind (·.at? path) := by
  unfold at?
  rw [List.foldlM_cons]
  cases v.step? step <;> rfl

theorem at?_field (fields : Fields) (name : Text) (path : List Step) :
    (Data.record fields).at? (.field name :: path) =
      (Fields.get? fields name).bind (·.at? path) := at?_cons ..

theorem same_record {f g : Fields}
    (h : ∀ name path, (Data.record f).at? (.field name :: path) =
      (Data.record g).at? (.field name :: path)) : Same (.record f) (.record g) := by
  intro path
  cases path with
  | nil => rfl
  | cons step path =>
    cases step with
    | field name => exact h name path
    | item index => rfl

theorem Same.exists_record {v : Data} {fields : Fields} (h : Same v (.record fields)) :
    ∃ f, v = .record f := by
  have hnil : v.outline = .record [] := Option.some.inj (h [])
  cases v with
  | record f => exact ⟨f, rfl⟩
  | _ => cases hnil

theorem Same.get?_eq_none {f g : Fields} (h : Same (.record f) (.record g)) {name : Text}
    (hg : Fields.get? g name = none) : Fields.get? f name = none := by
  have hnil := h [.field name]
  rw [at?_field, at?_field, hg] at hnil
  cases hf : Fields.get? f name with
  | none => rfl
  | some v => rw [hf] at hnil; cases hnil

theorem Same.exists_get? {f g : Fields} (h : Same (.record f) (.record g)) {name : Text} {v : Data}
    (hg : Fields.get? g name = some v) : ∃ w, Fields.get? f name = some w ∧ Same w v := by
  cases hf : Fields.get? f name with
  | none =>
    rw [h.symm.get?_eq_none hf] at hg
    cases hg
  | some w =>
    refine ⟨w, rfl, fun path => ?_⟩
    have hpath := h (.field name :: path)
    rwa [at?_field, at?_field, hf, hg] at hpath

def IsLeaf : Data → Prop
  | .list _ | .record _ => False
  | _ => True

theorem Same.eq_of_isLeaf {v w : Data} (h : Same w v) (hv : v.IsLeaf) : w = v := by
  have hnil : w.outline = v.outline := Option.some.inj (h [])
  cases v with
  | list items => exact hv.elim
  | record fields => exact hv.elim
  | _ =>
    cases w with
    | list items => cases hnil
    | record fields => cases hnil
    | _ => exact hnil

theorem Same.get?_eq {f g : Fields} (h : Same (.record f) (.record g)) {name : Text}
    (hleaf : ∀ v, Fields.get? g name = some v → v.IsLeaf) :
    Fields.get? f name = Fields.get? g name := by
  cases hg : Fields.get? g name with
  | none => exact h.get?_eq_none hg
  | some v =>
    obtain ⟨w, hw, hsame⟩ := h.exists_get? hg
    rw [hw, hsame.eq_of_isLeaf (hleaf v hg)]

end CodeAtlas.Data
