import CodeAtlas.Source.Basic
import CodeAtlas.Text.Nesting

set_option autoImplicit false

namespace CodeAtlas

def splitNames (t : Text) : List Text :=
  ((Nesting.split ',' t).filter fun item => !item.all Text.isBlank).map Text.collapse

/-- A type name without its arguments, which begin at the first angle or square bracket. -/
def typeName (t : Text) : Text :=
  let name := t.takeWhile fun c => c != '<' && c != '['
  if name.length < t.length then Text.dropRight Text.isBlank name else t

def cutTopLevel (target : Char) (t : Text) : Text × Option Text :=
  match Nesting.find? target t with
  | none => (t, none)
  | some i => (Text.strip (t.take i), some (Text.strip (t.drop (i + 1))))

namespace Parameter

/-- Reads an item of a parameter list, its white space collapsed: a name, then a type behind a
colon and a default value behind an equality sign. A question mark behind the name makes the
parameter optional, and so does a default value where the language has it so. The marks of a rest
parameter in front of the name are dropped. -/
def ofItem? (defaultMarksOptional : Bool) (item : Text) : Option Parameter :=
  if item = [] ∨ item = ['*'] ∨ item = ['/'] then none
  else
    let (head, value) := cutTopLevel '=' item
    let (head, type) := cutTopLevel ':' head
    let name := Text.strip
      ((Text.dropRight (· == '?') head).dropWhile fun c => c == '*' || c == '.')
    if name.isEmpty then none
    else some
      { name
        type := type.filter fun t => !t.isEmpty
        isOptional := Text.endsWith head ['?'] || (defaultMarksOptional && value.isSome)
        defaultValue := value }

def parse (defaultMarksOptional : Bool) (t : Text) : List Parameter :=
  (Nesting.split ',' t).filterMap fun item => ofItem? defaultMarksOptional (Text.collapse item)

theorem parse_nil (defaultMarksOptional : Bool) : parse defaultMarksOptional [] = [] := rfl

theorem name_ne_nil_of_ofItem? {mark : Bool} {item : Text} {p : Parameter}
    (h : ofItem? mark item = some p) : p.name ≠ [] := by
  simp only [ofItem?] at h
  split at h
  · simp at h
  · split at h
    · simp at h
    · rename_i hn
      simp only [Option.some.injEq] at h
      subst h
      simpa using hn

end Parameter

end CodeAtlas
