import CodeAtlas.Text.Basic

set_option autoImplicit false

namespace CodeAtlas.Text

/-- White space: the space, the line and page controls, the four information separators, and the
space and line separators outside ASCII. Zero-width characters are not white space. -/
def isBlank (c : Char) : Bool :=
  let n := c.toNat
  (9 ≤ n && n ≤ 13) || (28 ≤ n && n ≤ 32) || n == 0x85 || n == 0xa0 || n == 0x1680
    || (0x2000 ≤ n && n ≤ 0x200a) || n == 0x2028 || n == 0x2029 || n == 0x202f || n == 0x205f
    || n == 0x3000

def strip (t : Text) : Text := trim isBlank t

/-- The words of a text, gathered from the right: the first of the pair is the word that the text
begins with, empty if it begins with white space. -/
def splitWords : Text → Text × List Text
  | [] => ([], [])
  | c :: rest =>
    let (word, more) := splitWords rest
    if isBlank c then ([], if word.isEmpty then more else word :: more) else (c :: word, more)

def words (t : Text) : List Text :=
  let (word, more) := splitWords t
  if word.isEmpty then more else word :: more

/-- One space for every gap between words, and none at the ends. -/
def collapse (t : Text) : Text := joinWith [' '] (words t)

theorem isBlank_of_isWhitespace {c : Char} (h : c.isWhitespace = true) : isBlank c = true := by
  simp only [Char.isWhitespace, Bool.or_eq_true, decide_eq_true_eq] at h
  rcases h with ((rfl | rfl) | rfl) | rfl <;> decide

@[simp] theorem words_nil : words [] = [] := rfl

@[simp] theorem strip_nil : strip [] = [] := rfl

end CodeAtlas.Text
