import CodeAtlas.Decimal.Shortest
import CodeAtlas.Text.Printable

/-!
Values of data formats: what a service replies, what a settings file holds, and what reports show.
Records keep the order of their fields. A value has a display form, in which a text stands for
itself, and a quoted form, in which a text is written between quotes; the display of a list or a
record quotes what it holds.
-/

set_option autoImplicit false

namespace CodeAtlas

inductive Data where
  | null
  | bool (b : Bool)
  | int (n : Int)
  | float (x : Float)
  | text (t : Text)
  | list (items : List Data)
  | record (fields : List (Text × Data))
  deriving Inhabited

abbrev Fields := List (Text × Data)

namespace Fields

def get? (fields : Fields) (name : Text) : Option Data := fields.lookup name

def has (fields : Fields) (name : Text) : Bool := (fields.get? name).isSome

/-- Gives a field a value: a new field comes last, and one already there keeps its place. -/
def set (name : Text) (value : Data) : Fields → Fields
  | [] => [(name, value)]
  | (n, v) :: rest => if n = name then (n, value) :: rest else (n, v) :: set name value rest

def erase (name : Text) : Fields → Fields
  | [] => []
  | (n, v) :: rest => if n = name then erase name rest else (n, v) :: erase name rest

@[simp] theorem get?_nil (name : Text) : get? [] name = none := rfl

theorem get?_cons (name n : Text) (v : Data) (rest : Fields) :
    get? ((n, v) :: rest) name = if name = n then some v else get? rest name := by
  by_cases h : name = n
  · simp [get?, h]
  · have hb : (name == n) = false := by simpa using h
    simp [get?, List.lookup_cons, h, hb]

@[simp] theorem get?_set_self (name : Text) (value : Data) (fields : Fields) :
    get? (set name value fields) name = some value := by
  induction fields with
  | nil => simp [set, get?_cons]
  | cons f rest ih =>
    obtain ⟨n, v⟩ := f
    by_cases h : n = name
    · simp [set, h, get?_cons]
    · have h' : ¬ name = n := fun e => h e.symm
      simp [set, h, get?_cons, h', ih]

theorem get?_set_of_ne {name other : Text} (h : other ≠ name) (value : Data) (fields : Fields) :
    get? (set name value fields) other = get? fields other := by
  induction fields with
  | nil => simp [set, get?_cons, h]
  | cons f rest ih =>
    obtain ⟨n, v⟩ := f
    by_cases hn : n = name
    · subst hn; simp [set, get?_cons, h]
    · simp [set, hn, get?_cons, ih]

@[simp] theorem get?_erase_self (name : Text) (fields : Fields) :
    get? (erase name fields) name = none := by
  induction fields with
  | nil => rfl
  | cons f rest ih =>
    obtain ⟨n, v⟩ := f
    by_cases h : n = name
    · simp [erase, h, ih]
    · have h' : ¬ name = n := fun e => h e.symm
      simp [erase, h, get?_cons, h', ih]

theorem get?_erase_of_ne {name other : Text} (h : other ≠ name) (fields : Fields) :
    get? (erase name fields) other = get? fields other := by
  induction fields with
  | nil => rfl
  | cons f rest ih =>
    obtain ⟨n, v⟩ := f
    by_cases hn : n = name
    · subst hn; simp [erase, get?_cons, h, ih]
    · simp [erase, hn, get?_cons, ih]

end Fields

def Data.floatStyle : Decimal.Style := ⟨16, 3, 2⟩

def Data.writeFloat (style : Decimal.Style) (x : Float) : Text :=
  let bits := x.toBits.toNat
  let negative := Nat.pow 2 63 ≤ bits
  match Decimal.Binary.ofBits? bits with
  | some b => (if negative then ['-'] else []) ++ style.write (Decimal.shortest b)
  | none =>
    if bits % Nat.pow 2 52 ≠ 0 then "nan" else (if negative then "-inf" else "inf")

def Data.showFloat (x : Float) : Text := Data.writeFloat Data.floatStyle x

def Text.hex (width n : Nat) : Text :=
  let digits := Nat.toDigits 16 n
  List.replicate (width - digits.length) '0' ++ digits

def Text.quoteChar (quote c : Char) : Text :=
  if c = quote ∨ c = '\\' then ['\\', c]
  else if c = '\n' then "\\n"
  else if c = '\r' then "\\r"
  else if c = '\t' then "\\t"
  else if Text.isPrintable c then [c]
  else if c.toNat < 0x100 then "\\x" ++ Text.hex 2 c.toNat
  else if c.toNat < 0x10000 then "\\u" ++ Text.hex 4 c.toNat
  else "\\U" ++ Text.hex 8 c.toNat

/-- A text between quotes: single ones, or double ones if it holds single and no double ones. -/
def Text.quoted (t : Text) : Text :=
  let quote := if t.contains '\'' && !t.contains '"' then '"' else '\''
  quote :: t.flatMap (quoteChar quote) ++ [quote]

namespace Data

mutual

def quoted : Data → Text
  | .null => "None"
  | .bool true => "True"
  | .bool false => "False"
  | .int n => Text.ofInt n
  | .float x => showFloat x
  | .text t => Text.quoted t
  | .list items => '[' :: quotedItems items ++ [']']
  | .record fields => '{' :: quotedFields fields ++ ['}']

def quotedItems : List Data → Text
  | [] => []
  | [v] => quoted v
  | v :: w :: rest => quoted v ++ ", " ++ quotedItems (w :: rest)

def quotedFields : List (Text × Data) → Text
  | [] => []
  | [(n, v)] => Text.quoted n ++ ": " ++ quoted v
  | (n, v) :: f :: rest => Text.quoted n ++ ": " ++ quoted v ++ ", " ++ quotedFields (f :: rest)

end

def display : Data → Text
  | .text t => t
  | v => quoted v

/-- Whether a value counts as given: null, false, zero and everything empty do not. -/
def isPresent : Data → Bool
  | .null => false
  | .bool b => b
  | .int n => n != 0
  | .float x => x != 0.0
  | .text t => !t.isEmpty
  | .list items => !items.isEmpty
  | .record fields => !fields.isEmpty

def kindName : Data → Text
  | .null => "NoneType"
  | .bool _ => "bool"
  | .int _ => "int"
  | .float _ => "float"
  | .text _ => "str"
  | .list _ => "list"
  | .record _ => "dict"

def orElse (v w : Data) : Data := if v.isPresent then v else w

def ofOption (t : Option Text) : Data := (t.map Data.text).getD .null

def texts (ts : List Text) : Data := .list (ts.map .text)

def nat (n : Nat) : Data := .int n

@[simp] theorem display_text (t : Text) : display (.text t) = t := rfl

theorem orElse_of_isPresent {v : Data} (h : v.isPresent = true) (w : Data) : v.orElse w = v := by
  simp [orElse, h]

theorem isPresent_text (t : Text) : (Data.text t).isPresent = !t.isEmpty := rfl

end Data

end CodeAtlas
