import CodeAtlas.Data

set_option autoImplicit false

namespace CodeAtlas.Data

mutual

def agrees : Data → Data → Bool
  | .null, .null => true
  | .bool a, .bool b => a == b
  | .int m, .int n => m == n
  | .float x, .float y => decide (x = y)
  | .text s, .text t => s == t
  | .list v, .list w => agreesItems v w
  | .record f, .record g => agreesFields f g
  | _, _ => false

def agreesItems : List Data → List Data → Bool
  | [], [] => true
  | v :: rest, w :: rest' => agrees v w && agreesItems rest rest'
  | _, _ => false

def agreesFields : List (Text × Data) → List (Text × Data) → Bool
  | [], [] => true
  | (m, v) :: rest, (n, w) :: rest' => m == n && agrees v w && agreesFields rest rest'
  | _, _ => false

end

mutual

theorem agrees_iff (v w : Data) : agrees v w = true ↔ v = w := by
  cases v with
  | list items =>
    cases w with
    | list others => simp [agrees, agreesItems_iff items others]
    | _ => simp [agrees]
  | record fields =>
    cases w with
    | record others => simp [agrees, agreesFields_iff fields others]
    | _ => simp [agrees]
  | _ => cases w <;> simp [agrees]

theorem agreesItems_iff (items others : List Data) :
    agreesItems items others = true ↔ items = others := by
  cases items with
  | nil => cases others <;> simp [agreesItems]
  | cons v rest =>
    cases others with
    | nil => simp [agreesItems]
    | cons w rest' => simp [agreesItems, agrees_iff v w, agreesItems_iff rest rest']

theorem agreesFields_iff (fields others : List (Text × Data)) :
    agreesFields fields others = true ↔ fields = others := by
  cases fields with
  | nil => cases others <;> simp [agreesFields]
  | cons f rest =>
    cases others with
    | nil => simp [agreesFields]
    | cons g rest' =>
      obtain ⟨m, v⟩ := f
      obtain ⟨n, w⟩ := g
      simp [agreesFields, agrees_iff v w, agreesFields_iff rest rest']

end

instance : DecidableEq Data := fun v w => decidable_of_iff _ (agrees_iff v w)

end CodeAtlas.Data
