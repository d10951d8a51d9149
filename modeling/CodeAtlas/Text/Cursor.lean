import CodeAtlas.Text.Word

set_option autoImplicit false

namespace CodeAtlas

abbrev Text.Class := Char → Bool

/-- A place in a text. The characters passed are kept last first. -/
structure Cursor where
  before : List Char
  rest : List Char
  deriving DecidableEq, Repr

namespace Cursor

def start (t : List Char) : Cursor := ⟨[], t⟩

def text (c : Cursor) : List Char := c.before.reverse ++ c.rest

def position (c : Cursor) : Nat := c.before.length

def advance : Nat → Cursor → Cursor
  | 0, c => c
  | _ + 1, ⟨before, []⟩ => ⟨before, []⟩
  | n + 1, ⟨before, x :: rest⟩ => advance n ⟨x :: before, rest⟩

/-- The place at a position. A negative position counts from the end, and one outside the text
means the nearer end. -/
def ofPosition (t : List Char) (position : Int) : Cursor :=
  let n := if position < 0 then position + t.length else position
  (start t).advance n.toNat

def lineNumber (c : Cursor) : Nat := c.before.count '\n' + 1

def lineHead (c : Cursor) : List Char := (c.before.takeWhile (· != '\n')).reverse

def atLineStart (c : Cursor) : Bool :=
  match c.before with
  | [] => true
  | x :: _ => x == '\n'

def atLineEnd (c : Cursor) : Bool :=
  match c.rest with
  | [] => true
  | x :: _ => x == '\n'

def atWordEdge (c : Cursor) : Bool :=
  let behind := match c.before with
    | [] => false
    | x :: _ => Text.isWord x
  let ahead := match c.rest with
    | [] => false
    | x :: _ => Text.isWord x
  behind != ahead

def between (first last : Cursor) : List Char :=
  (last.before.take (last.before.length - first.before.length)).reverse

/-- The places reached by passing characters of a class, the farthest first, in front of others. -/
def reach (p : Text.Class) (nearer : List Cursor) (before : List Char) : List Char → List Cursor
  | [] => ⟨before, []⟩ :: nearer
  | x :: rest =>
    if p x then reach p (⟨before, x :: rest⟩ :: nearer) (x :: before) rest
    else ⟨before, x :: rest⟩ :: nearer

def farthestFirst (p : Text.Class) (c : Cursor) : List Cursor := reach p [] c.before c.rest

def nearestFirst (p : Text.Class) (c : Cursor) : List Cursor := (c.farthestFirst p).reverse

@[simp] theorem text_start (t : List Char) : (start t).text = t := rfl

@[simp] theorem lineNumber_start (t : List Char) : (start t).lineNumber = 1 := rfl

@[simp] theorem text_advance (n : Nat) (c : Cursor) : (c.advance n).text = c.text := by
  induction n generalizing c with
  | zero => rfl
  | succ n ih =>
    obtain ⟨before, _ | ⟨x, rest⟩⟩ := c
    · rfl
    · rw [advance, ih]; simp [text]

theorem position_advance (n : Nat) (c : Cursor) :
    (c.advance n).position = c.position + min n c.rest.length := by
  induction n generalizing c with
  | zero => simp [advance]
  | succ n ih =>
    obtain ⟨before, _ | ⟨x, rest⟩⟩ := c
    · simp [advance]
    · rw [advance, ih]; simp [position]; omega

theorem between_self (c : Cursor) : c.between c = [] := by simp [between]

theorem reach_eq_append (p : Text.Class) (nearer : List Cursor) (before rest : List Char) :
    reach p nearer before rest = reach p [] before rest ++ nearer := by
  induction rest generalizing nearer before with
  | nil => rfl
  | cons x rest ih =>
    simp only [reach]
    split
    · rw [ih, ih [⟨before, x :: rest⟩]]; simp
    · rfl

theorem nearestFirst_nil (p : Text.Class) (before : List Char) :
    nearestFirst p ⟨before, []⟩ = [⟨before, []⟩] := rfl

theorem nearestFirst_cons (p : Text.Class) (before rest : List Char) (x : Char) :
    nearestFirst p ⟨before, x :: rest⟩ =
      ⟨before, x :: rest⟩ :: (if p x then nearestFirst p ⟨x :: before, rest⟩ else []) := by
  simp only [nearestFirst, farthestFirst, reach]
  split
  · rw [reach_eq_append]; simp
  · rfl

theorem text_of_mem_nearestFirst {p : Text.Class} {c d : Cursor} (h : d ∈ c.nearestFirst p) :
    d.text = c.text := by
  obtain ⟨before, rest⟩ := c
  induction rest generalizing before with
  | nil => simp [nearestFirst_nil] at h; rw [h]
  | cons x rest ih =>
    rw [nearestFirst_cons] at h
    rcases List.mem_cons.1 h with rfl | h
    · rfl
    · split at h
      · rw [ih _ h]; simp [text]
      · simp at h

end Cursor

end CodeAtlas
