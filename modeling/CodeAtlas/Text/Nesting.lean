import CodeAtlas.Text.Blank

/-!
Brackets in a text that need not be balanced. The depth of a place counts the brackets open there;
a closing bracket without an opening one leaves it at zero, and the angle bracket of an arrow closes
nothing. `split` cuts a text at the separators of depth zero, and `find?` gives the first of them.
-/

set_option autoImplicit false

namespace CodeAtlas.Nesting

def isOpener (c : Char) : Bool := c == '(' || c == '[' || c == '{' || c == '<'

def isCloser (c : Char) : Bool := c == ')' || c == ']' || c == '}' || c == '>'

/-- The end of an arrow, judged by the character before it. -/
def endsArrow (last : Option Char) (c : Char) : Bool := c == '>' && last == some '='

def deepen (depth : Nat) (last : Option Char) (c : Char) : Nat :=
  if isOpener c then depth + 1
  else if isCloser c && !endsArrow last c then depth - 1
  else depth

/-- Splits the rest of a text, given the depth, the character before it and the part begun, last
character first. -/
def splitFrom (sep : Char) (depth : Nat) (last : Option Char) (part : Text) : Text → List Text
  | [] => [part.reverse]
  | c :: rest =>
    let depth' := deepen depth last c
    if c = sep ∧ depth' = 0 then part.reverse :: splitFrom sep depth' (some c) [] rest
    else splitFrom sep depth' (some c) (c :: part) rest

def split (sep : Char) (t : Text) : List Text := splitFrom sep 0 none [] t

/-- Whether the next character makes a comparison or an arrow of an equality sign. -/
def continuesSign : Text → Bool
  | c :: _ => c == '=' || c == '>'
  | [] => false

def findFrom (target : Char) (depth : Nat) (last : Option Char) (index : Nat) : Text → Option Nat
  | [] => none
  | c :: rest =>
    let bracket := isOpener c || (isCloser c && !endsArrow last c)
    if !bracket && c == target && depth == 0 && !(target == '=' && continuesSign rest) then
      some index
    else findFrom target (deepen depth last c) (some c) (index + 1) rest

/-- The position of the first occurrence of a character outside all brackets. An equality sign that
begins a comparison or an arrow does not count. -/
def find? (target : Char) (t : Text) : Option Nat := findFrom target 0 none 0 t

@[simp] theorem split_nil (sep : Char) : split sep [] = [[]] := rfl

@[simp] theorem find?_nil (target : Char) : find? target [] = none := rfl

theorem splitFrom_ne_nil (sep : Char) (depth : Nat) (last : Option Char) (part t : Text) :
    splitFrom sep depth last part t ≠ [] := by
  induction t generalizing depth last part with
  | nil => simp [splitFrom]
  | cons c rest ih =>
    simp only [splitFrom]
    split
    · simp
    · exact ih _ _ _

theorem joinWith_splitFrom (sep : Char) (depth : Nat) (last : Option Char) (part t : Text) :
    Text.joinWith [sep] (splitFrom sep depth last part t) = part.reverse ++ t := by
  induction t generalizing depth last part with
  | nil => simp [splitFrom]
  | cons c rest ih =>
    simp only [splitFrom]
    split
    · rename_i h
      cases hs : splitFrom sep (deepen depth last c) (some c) [] rest with
      | nil => exact absurd hs (splitFrom_ne_nil _ _ _ _ _)
      | cons p ps => rw [Text.joinWith_cons_cons, ← hs, ih]; simp [h.1]
    · rw [ih]; simp

end CodeAtlas.Nesting
