import CodeAtlas.Decimal.Shortest
import CodeAtlas.Text.Blank
import CodeAtlas.Text.Digit

set_option autoImplicit false

namespace CodeAtlas.Numeral

/-- The values of a row of digits, in which single underscores may stand between two digits; and
what follows it. -/
def digitRow : Text → List Nat × Text
  | [] => ([], [])
  | '_' :: c :: rest =>
    match Text.digitValue? c with
    | some d => let (ds, more) := digitRow rest; (d :: ds, more)
    | none => ([], '_' :: c :: rest)
  | c :: rest =>
    match Text.digitValue? c with
    | some d => let (ds, more) := digitRow rest; (d :: ds, more)
    | none => ([], c :: rest)

def digits (t : Text) : List Nat × Text :=
  match t with
  | '_' :: _ => ([], t)
  | _ => digitRow t

def value (ds : List Nat) : Nat := ds.foldl (fun n d => 10 * n + d) 0

def sign : Text → Bool × Text
  | '-' :: rest => (true, rest)
  | '+' :: rest => (false, rest)
  | t => (false, t)

def readInt? (t : Text) : Option Int :=
  let (negative, rest) := sign (Text.strip t)
  match digits rest with
  | (d :: ds, []) => some (if negative then -(value (d :: ds) : Int) else value (d :: ds))
  | _ => none

def exponent? (t : Text) : Option Int :=
  match t with
  | [] => some 0
  | c :: rest =>
    if c = 'e' ∨ c = 'E' then
      let (negative, rest) := sign rest
      match digits rest with
      | (d :: ds, []) => some (if negative then -(value (d :: ds) : Int) else value (d :: ds))
      | _ => none
    else none

def decimal? (t : Text) : Option Decimal.Digits :=
  let (whole, rest) := digits t
  let (fraction, rest) := match rest with
    | '.' :: more => digits more
    | _ => ([], rest)
  if whole.isEmpty && fraction.isEmpty then none
  else (exponent? rest).map fun e => ⟨value (whole ++ fraction), e - fraction.length⟩

def readFloat? (t : Text) : Option Float :=
  let (negative, rest) := sign (Text.strip t)
  let low := rest.map Char.toLower
  let size :=
    if low = "inf" ∨ low = "infinity" then some (1.0 / 0.0)
    else if low = "nan" then some (0.0 / 0.0)
    else (decimal? rest).map Decimal.Digits.toFloat
  size.map fun x => if negative then -x else x

def truncate? (x : Float) : Option Int :=
  let bits := x.toBits.toNat
  (Decimal.Binary.ofBits? bits).map fun b =>
    let r := Decimal.Ratio.scale ⟨b.mantissa, 1⟩ 2 b.exponent
    let n : Nat := r.num / r.den
    if Nat.pow 2 63 ≤ bits then -(n : Int) else n

def ofInt (n : Int) : Float :=
  let size := Decimal.Digits.toFloat ⟨n.natAbs, 0⟩
  if n < 0 then -size else size

end CodeAtlas.Numeral
