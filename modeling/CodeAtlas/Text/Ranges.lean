
set_option autoImplicit false

namespace CodeAtlas.Text

/-- Membership of a code point in a list of ranges sorted by their lower ends: the search stops at
the first range that begins above the point. -/
def inRanges (n : Nat) : List (Nat × Nat) → Bool
  | [] => false
  | (lo, hi) :: rest => if n < lo then false else if n ≤ hi then true else inRanges n rest

def rangeStart? (n : Nat) : List (Nat × Nat) → Option Nat
  | [] => none
  | (lo, hi) :: rest =>
    if n < lo then none else if n ≤ hi then some lo else rangeStart? n rest

@[simp] theorem inRanges_nil (n : Nat) : inRanges n [] = false := rfl

theorem rangeStart?_isSome (n : Nat) (rs : List (Nat × Nat)) :
    (rangeStart? n rs).isSome = inRanges n rs := by
  induction rs with
  | nil => rfl
  | cons r rest ih =>
    obtain ⟨lo, hi⟩ := r
    simp only [rangeStart?, inRanges]
    split
    · rfl
    · split
      · rfl
      · exact ih

end CodeAtlas.Text
