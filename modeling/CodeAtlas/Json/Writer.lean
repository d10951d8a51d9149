import CodeAtlas.Data

set_option autoImplicit false

namespace CodeAtlas.Json

structure Layout where
  indent : Option Nat
  asciiOnly : Bool
  deriving Repr

def unitEscape (n : Nat) : Text := "\\u" ++ Text.hex 4 n

def escapeChar (asciiOnly : Bool) (c : Char) : Text :=
  let n := c.toNat
  if c = '"' then "\\\""
  else if c = '\\' then "\\\\"
  else if n = 8 then "\\b"
  else if n = 9 then "\\t"
  else if n = 10 then "\\n"
  else if n = 12 then "\\f"
  else if n = 13 then "\\r"
  else if n < 0x20 then unitEscape n
  else if asciiOnly && 0x7f ≤ n then
    if n < 0x10000 then unitEscape n
    else unitEscape (0xd800 + (n - 0x10000) / 0x400) ++ unitEscape (0xdc00 + (n - 0x10000) % 0x400)
  else [c]

def quote (asciiOnly : Bool) (t : Text) : Text :=
  '"' :: t.flatMap (escapeChar asciiOnly) ++ ['"']

def writeFloat (x : Float) : Text :=
  if x.isNaN then "NaN"
  else if x.isInf then (if x < 0.0 then "-Infinity" else "Infinity")
  else Data.showFloat x

def Layout.break (l : Layout) (level : Nat) : Text :=
  match l.indent with
  | none => []
  | some width => '\n' :: List.replicate (width * level) ' '

def Layout.comma (l : Layout) (level : Nat) : Text :=
  match l.indent with
  | none => ", "
  | some _ => ',' :: l.break level

mutual

def writeAt (l : Layout) (level : Nat) : Data → Text
  | .null => "null"
  | .bool true => "true"
  | .bool false => "false"
  | .int n => Text.ofInt n
  | .float x => writeFloat x
  | .text t => quote l.asciiOnly t
  | .list [] => "[]"
  | .list (v :: rest) =>
    '[' :: (l.break (level + 1) ++ (writeAt l (level + 1) v ++ (writeItems l (level + 1) rest
      ++ (l.break level ++ [']']))))
  | .record [] => ['{', '}']
  | .record ((n, v) :: rest) =>
    '{' :: (l.break (level + 1) ++ (quote l.asciiOnly n ++ (": " ++ (writeAt l (level + 1) v
      ++ (writeFields l (level + 1) rest ++ (l.break level ++ ['}']))))))

def writeItems (l : Layout) (level : Nat) : List Data → Text
  | [] => []
  | v :: rest => l.comma level ++ (writeAt l level v ++ writeItems l level rest)

def writeFields (l : Layout) (level : Nat) : List (Text × Data) → Text
  | [] => []
  | (n, v) :: rest =>
    l.comma level ++ (quote l.asciiOnly n ++ (": " ++ (writeAt l level v
      ++ writeFields l level rest)))

end

def write (l : Layout) (v : Data) : Text := writeAt l 0 v

def Layout.compact : Layout := ⟨none, false⟩

def Layout.report : Layout := ⟨some 2, true⟩

end CodeAtlas.Json
