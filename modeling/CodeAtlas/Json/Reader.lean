import CodeAtlas.Data
import CodeAtlas.Numeral

/-!
Reading JSON. A text that is no JSON is refused with the first thing that was expected and did not
come, and its position. Besides standard JSON the names `NaN` and `Infinity` are read. When a record
names a field twice, the last value counts.
-/

set_option autoImplicit false

namespace CodeAtlas.Json

inductive Fault where
  | noValue | noName | noColon | noComma | extraData
  | openText | controlCharacter | badEscape | badCodePoint
  deriving DecidableEq, Repr

def Fault.label : Fault → Text
  | .noValue => "Expecting value"
  | .noName => "Expecting property name enclosed in double quotes"
  | .noColon => "Expecting ':' delimiter"
  | .noComma => "Expecting ',' delimiter"
  | .extraData => "Extra data"
  | .openText => "Unterminated string starting at"
  | .controlCharacter => "Invalid control character at"
  | .badEscape => "Invalid \\escape"
  | .badCodePoint => "Invalid \\uXXXX escape"

structure Stop where
  fault : Fault
  rest : Text
  deriving Repr

abbrev Result (α : Type) := Except Stop (α × Text)

def skipBlanks (t : Text) : Text :=
  t.dropWhile fun c => c == ' ' || c == '\t' || c == '\n' || c == '\r'

def hexValue? (c : Char) : Option Nat :=
  if '0' ≤ c ∧ c ≤ '9' then some (c.toNat - '0'.toNat)
  else if 'a' ≤ c ∧ c ≤ 'f' then some (c.toNat - 'a'.toNat + 10)
  else if 'A' ≤ c ∧ c ≤ 'F' then some (c.toNat - 'A'.toNat + 10)
  else none

def escaped? (c : Char) : Option Nat :=
  match c with
  | '"' => some 34
  | '\\' => some 92
  | '/' => some 47
  | 'b' => some 8
  | 'f' => some 12
  | 'n' => some 10
  | 'r' => some 13
  | 't' => some 9
  | _ => none

/-- The code units of a text up to its closing quote, gathered last first, and what follows.
`opened` begins with the opening quote. -/
def readUnits (opened : Text) (units : List Nat) : Text → Result (List Nat)
  | [] => .error ⟨.openText, opened⟩
  | '"' :: rest => .ok (units.reverse, rest)
  | '\\' :: 'u' :: a :: b :: c :: d :: rest =>
    match hexValue? a, hexValue? b, hexValue? c, hexValue? d with
    | some a, some b, some c, some d =>
      readUnits opened ((((a * 16 + b) * 16 + c) * 16 + d) :: units) rest
    | _, _, _, _ => .error ⟨.badCodePoint, 'u' :: a :: b :: c :: d :: rest⟩
  | '\\' :: 'u' :: rest => .error ⟨.badCodePoint, 'u' :: rest⟩
  | '\\' :: c :: rest =>
    match escaped? c with
    | some n => readUnits opened (n :: units) rest
    | none => .error ⟨.badEscape, '\\' :: c :: rest⟩
  | ['\\'] => .error ⟨.openText, opened⟩
  | c :: rest =>
    if c.toNat < 0x20 then .error ⟨.controlCharacter, c :: rest⟩
    else readUnits opened (c.toNat :: units) rest

def joinUnits : List Nat → Text
  | [] => []
  | h :: l :: rest =>
    if 0xd800 ≤ h ∧ h < 0xdc00 ∧ 0xdc00 ≤ l ∧ l < 0xe000 then
      Char.ofNat (0x10000 + (h - 0xd800) * 0x400 + (l - 0xdc00)) :: joinUnits rest
    else (if 0xd800 ≤ h ∧ h < 0xe000 then Char.ofNat 0xfffd else Char.ofNat h) :: joinUnits (l :: rest)
  | [h] => [if 0xd800 ≤ h ∧ h < 0xe000 then Char.ofNat 0xfffd else Char.ofNat h]

def readText (rest : Text) : Result Text :=
  (readUnits ('"' :: rest) [] rest).map fun (units, rest) => (joinUnits units, rest)

def asciiDigits (t : Text) : Text × Text := (t.takeWhile Char.isDigit, t.dropWhile Char.isDigit)

def decimalValue (t : Text) : Nat := t.foldl (fun n c => 10 * n + (c.toNat - '0'.toNat)) 0

def readFraction (t : Text) : Text × Text :=
  match t with
  | '.' :: rest =>
    let (ds, more) := asciiDigits rest
    if ds.isEmpty then ([], t) else (ds, more)
  | _ => ([], t)

def readExponent (t : Text) : Option Int × Text :=
  match t with
  | c :: rest =>
    if c = 'e' ∨ c = 'E' then
      let (negative, digits) := Numeral.sign rest
      let (ds, more) := asciiDigits digits
      if ds.isEmpty then (none, t)
      else (some (if negative then -(decimalValue ds : Int) else decimalValue ds), more)
    else (none, t)
  | [] => (none, t)

def readNumber? (t : Text) : Option (Data × Text) :=
  let (negative, digits) := match t with
    | '-' :: rest => (true, rest)
    | _ => (false, t)
  let (whole, rest) := match digits with
    | '0' :: rest => (['0'], rest)
    | _ => asciiDigits digits
  if whole.isEmpty then none
  else
    let (fraction, rest) := readFraction rest
    let (exponent, rest) := readExponent rest
    if fraction.isEmpty && exponent.isNone then
      let n : Int := decimalValue whole
      some (.int (if negative then -n else n), rest)
    else
      let x := Decimal.Digits.toFloat
        ⟨decimalValue (whole ++ fraction), exponent.getD 0 - fraction.length⟩
      some (.float (if negative then -x else x), rest)

def literals : List (Text × Data) :=
  [("null", .null), ("true", .bool true), ("false", .bool false), ("NaN", .float (0.0 / 0.0)),
   ("Infinity", .float (1.0 / 0.0)), ("-Infinity", .float (-1.0 / 0.0))]

def readLiteral? (t : Text) : Option (Data × Text) :=
  (literals.find? fun (word, _) => Text.startsWith t word).map fun (word, v) =>
    (v, t.drop word.length)

mutual

/-- Reads a value at the beginning of a text; the fuel bounds the nesting and the number of items
still to be read. -/
def readValue : Nat → Text → Result Data
  | 0, t => .error ⟨.noValue, t⟩
  | fuel + 1, t =>
    match t with
    | '"' :: rest => (readText rest).map fun (s, rest) => (.text s, rest)
    | '[' :: rest =>
      match skipBlanks rest with
      | ']' :: rest => .ok (.list [], rest)
      | rest => readItems fuel [] rest
    | '{' :: rest =>
      match skipBlanks rest with
      | '}' :: rest => .ok (.record [], rest)
      | rest => readFields fuel [] rest
    | _ =>
      match readLiteral? t with
      | some found => .ok found
      | none =>
        match readNumber? t with
        | some found => .ok found
        | none => .error ⟨.noValue, t⟩

def readItems : Nat → List Data → Text → Result Data
  | 0, _, t => .error ⟨.noValue, t⟩
  | fuel + 1, items, t =>
    match readValue fuel t with
    | .error stop => .error stop
    | .ok (v, rest) =>
      match skipBlanks rest with
      | ']' :: rest => .ok (.list (v :: items).reverse, rest)
      | ',' :: rest => readItems fuel (v :: items) (skipBlanks rest)
      | rest => .error ⟨.noComma, rest⟩

def readFields : Nat → Fields → Text → Result Data
  | 0, _, t => .error ⟨.noName, t⟩
  | fuel + 1, fields, t =>
    match t with
    | '"' :: rest =>
      match readText rest with
      | .error stop => .error stop
      | .ok (name, rest) =>
        match skipBlanks rest with
        | ':' :: rest =>
          match readValue fuel (skipBlanks rest) with
          | .error stop => .error stop
          | .ok (v, rest) =>
            let fields := Fields.set name v fields
            match skipBlanks rest with
            | '}' :: rest => .ok (.record fields, rest)
            | ',' :: rest => readFields fuel fields (skipBlanks rest)
            | rest => .error ⟨.noComma, rest⟩
        | rest => .error ⟨.noColon, rest⟩
    | _ => .error ⟨.noName, t⟩

end

structure Refusal where
  fault : Fault
  line : Nat
  column : Nat
  position : Nat
  deriving DecidableEq, Repr

def Stop.locate (s : Stop) (whole : Text) : Refusal :=
  let position := whole.length - s.rest.length
  let before := whole.take position
  { fault := s.fault, line := before.count '\n' + 1
    column := (before.reverse.takeWhile (· != '\n')).length + 1, position }

def Refusal.message (r : Refusal) : Text :=
  r.fault.label ++ ": line " ++ Text.ofNat r.line ++ " column " ++ Text.ofNat r.column
    ++ " (char " ++ Text.ofNat r.position ++ ")"

def read (t : Text) : Except Refusal Data :=
  match readValue (t.length + 1) (skipBlanks t) with
  | .error stop => .error (stop.locate t)
  | .ok (v, rest) =>
    match skipBlanks rest with
    | [] => .ok v
    | rest => .error (Stop.locate ⟨.extraData, rest⟩ t)

end CodeAtlas.Json
