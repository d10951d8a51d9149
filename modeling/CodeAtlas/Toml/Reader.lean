import CodeAtlas.Numeral
import CodeAtlas.Json.Reader
import CodeAtlas.Text.Utf8
import CodeAtlas.Text.Word
import CodeAtlas.Toml.Table

/-!
Reading TOML. A document consists of lines: a header opens a table or an item of a list of tables,
and every other line gives a key its value in the table opened last. `read` gives the fields of a
document, or nothing for a text that is none.
-/

set_option autoImplicit false

namespace CodeAtlas.Toml

/-! Blanks, comments and line ends -/

def isGap (c : Char) : Bool := Text.isBlank c && c != '\n'

def skipGaps (t : Text) : Text := t.dropWhile isGap

def skipSpace : Bool → Text → Text
  | _, [] => []
  | true, c :: rest => skipSpace (c != '\n') rest
  | false, c :: rest =>
    if Text.isBlank c then skipSpace false rest
    else if c = '#' then skipSpace true rest
    else c :: rest

def lineEnd? (t : Text) : Option Text :=
  let t := skipGaps t
  let t := match t with
    | '#' :: rest => rest.dropWhile (· != '\n')
    | _ => t
  match t with
  | [] => some []
  | '\n' :: rest => some rest
  | _ => none

/-! Texts between quotes -/

def untilQuote (quote : Char) : Text → Option (Text × Text)
  | [] => none
  | c :: rest =>
    if c = quote then some ([], rest)
    else if c = '\n' then none
    else (untilQuote quote rest).map fun (inner, more) => (c :: inner, more)

def untilTriple (quote : Char) (t : Text) : Option (Text × Text) :=
  Text.cutAt? [quote, quote, quote] t

def numbered? (digits : Text) : Option Char := do
  let values ← digits.mapM Json.hexValue?
  let n := values.foldl (fun n d => 16 * n + d) 0
  if n.isValidChar then some (Char.ofNat n) else none

/-- The text that an escape stands for, given what follows the backslash. In a text of several lines
a backslash at the end of a line hides the line end and the blanks behind it. -/
def escape? (multiline : Bool) : Text → Option (Text × Text)
  | [] => none
  | c :: rest =>
    if c = '"' ∨ c = '\\' then some ([c], rest)
    else if c = 'b' then some (['\x08'], rest)
    else if c = 't' then some (['\t'], rest)
    else if c = 'n' then some (['\n'], rest)
    else if c = 'f' then some (['\x0c'], rest)
    else if c = 'r' then some (['\r'], rest)
    else if c = '0' then some (['\x00'], rest)
    else if c = 'u' ∨ c = 'U' then
      let width := if c = 'u' then 4 else 8
      if rest.length < width then none
      else (numbered? (rest.take width)).map fun ch => ([ch], rest.drop width)
    else if c = '\n' ∧ multiline then some ([], rest.dropWhile Text.isBlank)
    else none

def quotedRest (multiline : Bool) : Nat → Text → Option (Text × Text)
  | 0, _ => none
  | _ + 1, [] => none
  | n + 1, c :: rest =>
    if c = '"' ∧ (!multiline || Text.startsWith rest ['"', '"']) then
      some ([], if multiline then rest.drop 2 else rest)
    else if c = '\\' then do
      let (piece, more) ← escape? multiline rest
      let (inner, more) ← quotedRest multiline n more
      return (piece ++ inner, more)
    else if c = '\n' ∧ !multiline then none
    else (quotedRest multiline n rest).map fun (inner, more) => (c :: inner, more)

def dropFirstLineEnd : Text → Text
  | '\n' :: rest => rest
  | t => t

def quotedText? (t : Text) : Option (Text × Text) :=
  match t with
  | '"' :: '"' :: '"' :: rest => quotedRest true (rest.length + 1) (dropFirstLineEnd rest)
  | '"' :: rest => quotedRest false (rest.length + 1) rest
  | '\'' :: '\'' :: '\'' :: rest => untilTriple '\'' (dropFirstLineEnd rest)
  | '\'' :: rest => untilQuote '\'' rest
  | _ => none

/-! Numbers and other bare values -/

def isDigit (c : Char) : Bool := decide ('0' ≤ c ∧ c ≤ '9')

def inBase? (base : Nat) (t : Text) : Option Int := do
  let values ← t.mapM Json.hexValue?
  if t.isEmpty || values.any (base ≤ ·) then none
  else some (values.foldl (fun n d => base * n + d) 0 : Nat)

/-- A whole number without a sign. Only zero begins with a zero. -/
def whole? (t : Text) : Option Int :=
  match t with
  | '0' :: c :: rest =>
    if c = 'x' ∨ c = 'X' then inBase? 16 rest
    else if c = 'o' ∨ c = 'O' then inBase? 8 rest
    else if c = 'b' ∨ c = 'B' then inBase? 2 rest
    else if (c :: rest).all (· == '0') then some 0
    else none
  | _ => Numeral.readInt? t

def decimal? (t : Text) : Option Float :=
  if (t.head?.map isDigit).getD false && !Text.endsWith t ['.'] then Numeral.readFloat? t else none

def number? (t : Text) : Option Data :=
  let (negative, size) := Numeral.sign t
  let size := size.filter (· != '_')
  let low := size.map Char.toLower
  let hasExponent := !size.contains 'x' && low.contains 'e'
  if size.contains '.' || hasExponent || low = "inf" || low = "nan" then
    let value? := if low = "inf" || low = "nan" then Numeral.readFloat? low else decimal? size
    value?.map fun x => .float (if negative then 0.0 - x else x)
  else (whole? size).map fun n => .int (if negative then -n else n)

def isMoment (t : Text) : Bool :=
  match t with
  | a :: b :: c :: d :: '-' :: e :: f :: '-' :: g :: h :: _ => [a, b, c, d, e, f, g, h].all isDigit
  | a :: b :: ':' :: c :: d :: ':' :: e :: f :: _ => [a, b, c, d, e, f].all isDigit
  | _ => false

/-- A value without quotes or brackets. Dates and times stand for their texts. -/
def bare? (t : Text) : Option Data :=
  if t = "true" then some (.bool true)
  else if t = "false" then some (.bool false)
  else if isMoment t then some (.text t)
  else number? t

/-! Keys and headers -/

def isNameChar (c : Char) : Bool := c.isAlphanum || c == '_' || c == '-'

/-- Names with dots between them, up to a closing character. Names may be quoted; the empty name
stands for one that is missing. -/
def names (isBare : Char → Bool) (closing : Char) : Nat → Text → Option (List Text × Text)
  | 0, _ => none
  | n + 1, t => do
    let t := skipGaps t
    let (name, t) ← match t with
      | '"' :: rest => untilQuote '"' rest
      | '\'' :: rest => untilQuote '\'' rest
      | _ => some (t.takeWhile isBare, t.dropWhile isBare)
    match skipGaps t with
    | c :: rest =>
      if c = closing then return ([name], rest)
      else if c = '.' then
        let (more, rest) ← names isBare closing n rest
        return (name :: more, rest)
      else none
    | [] => none

def key? (t : Text) : Option (List Text × Text) :=
  (names (fun c => Text.isWord c || c == '-') '=' (t.length + 1) t).map fun (path, rest) =>
    (path.filter (· ≠ []), rest)

def header? (t : Text) : Option (List Text × Text) := do
  let (path, rest) ← names isNameChar ']' (t.length + 1) t
  if [] ∈ path then none else return (path, rest)

/-! Values -/

def endsBare (c : Char) : Bool := c == ',' || c == ']' || c == '}' || c == '#' || c == '\n'

mutual

def value? : Nat → Text → Option (Data × Text)
  | 0, _ => none
  | n + 1, t =>
    match t with
    | '[' :: rest => (items? n [] rest).map fun (items, more) => (.list items, more)
    | '{' :: rest => (entries? n [] rest).map fun (fields, more) => (.record fields, more)
    | _ =>
      match quotedText? t with
      | some (inner, more) => some (.text inner, more)
      | none =>
        (bare? (Text.strip (t.takeWhile fun c => !endsBare c))).map fun v =>
          (v, t.dropWhile fun c => !endsBare c)

/-- The rest of a list, of which the last items are given first. All items are of one kind; missing
ones are left out. -/
def items? : Nat → List Data → Text → Option (List Data × Text)
  | 0, _, _ => none
  | n + 1, given, t =>
    match skipSpace false t with
    | [] => none
    | ']' :: rest => some (given.reverse, rest)
    | ',' :: rest => items? n given rest
    | u => do
      let (v, rest) ← value? n u
      if given.any fun w => w.kindName ≠ v.kindName then none
      else match skipSpace false rest with
        | ',' :: more => items? n (v :: given) more
        | ']' :: more => return ((v :: given).reverse, more)
        | _ => none

def entries? : Nat → Fields → Text → Option (Fields × Text)
  | 0, _, _ => none
  | n + 1, given, t =>
    match skipGaps t with
    | '}' :: rest => if given.isEmpty then some ([], rest) else none
    | u => do
      let (path, rest) ← key? u
      let (v, rest) ← value? n (skipGaps rest)
      let given ← insert v path given
      match skipGaps rest with
      | ',' :: more => entries? n given more
      | '}' :: more => return (given, more)
      | _ => none

end

/-! Documents -/

structure Document where
  root : Fields := []
  opened : List Text := []
  /-- Tables made only on the way to others, which may still be opened. -/
  passed : List (List Text) := []

namespace Document

def missing (root : Fields) (path : List Text) : List (List Text) :=
  ((List.range path.length).map path.take).filter fun way => !stands way root

def openTable (path : List Text) (d : Document) : Option Document := do
  let name ← path.getLast?
  let way := path.dropLast
  let root ← descend (Toml.openTable (path ∈ d.passed) name) false way d.root
  return { root, opened := path
           passed := (d.passed ++ missing d.root path).erase path }

def openItem (path : List Text) (d : Document) : Option Document := do
  let name ← path.getLast?
  if path ∈ d.passed then none
  let root ← descend (Toml.openItem name) false path.dropLast d.root
  return { d with root, opened := path, passed := d.passed ++ missing d.root path }

def assign (path : List Text) (v : Data) (d : Document) : Option Document := do
  let root ← descend (fun _ table => insert v path table) false d.opened d.root
  return { d with root }

end Document

def lines? : Nat → Document → Text → Option Fields
  | 0, _, _ => none
  | n + 1, d, t =>
    match skipSpace false t with
    | [] => some d.root
    | '[' :: '[' :: rest => do
      let (path, rest) ← header? rest
      match rest with
      | ']' :: rest => lines? n (← d.openItem path) (← lineEnd? rest)
      | _ => none
    | '[' :: rest => do
      let (path, rest) ← header? rest
      lines? n (← d.openTable path) (← lineEnd? rest)
    | u => do
      let (path, rest) ← key? u
      let rest := skipGaps rest
      let (v, rest) ← value? (rest.length + 1) rest
      lines? n (← d.assign path v) (← lineEnd? rest)

def read (t : Text) : Option Fields :=
  let t := Text.unifyLines t
  lines? (t.length + 1) {} t

end CodeAtlas.Toml
