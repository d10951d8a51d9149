import CodeAtlas.Text.Basic

/-!
Shortest decimals of binary fractions. Of all decimals that round to a given double, `shortest`
picks one with the fewest digits, and of those the nearest. It works in exact arithmetic on the
interval of reals that round to the double.
-/

set_option autoImplicit false

namespace CodeAtlas.Decimal

/-- A finite double without its sign: a mantissa times a power of two. At a power of two the gap to
the next smaller double is half the gap to the next larger one. -/
structure Binary where
  mantissa : Nat
  exponent : Int
  narrowBelow : Bool
  deriving DecidableEq, Repr

def Binary.ofBits? (bits : Nat) : Option Binary :=
  let field : Nat := bits / Nat.pow 2 52 % Nat.pow 2 11
  let fraction : Nat := bits % Nat.pow 2 52
  if field = 2047 then none
  else if field = 0 then some ⟨fraction, -1074, false⟩
  else some ⟨Nat.pow 2 52 + fraction, (field : Int) - 1075, fraction = 0 && 1 < field⟩

structure Ratio where
  num : Nat
  den : Nat
  deriving Repr

def Ratio.scale (r : Ratio) (base : Nat) (exponent : Int) : Ratio :=
  match exponent with
  | .ofNat n => ⟨r.num * Nat.pow base n, r.den⟩
  | .negSucc n => ⟨r.num, r.den * Nat.pow base (n + 1)⟩

/-- The decimal exponent of a positive fraction: the power of ten not above it and nearest to it. -/
def Ratio.magnitude (r : Ratio) : Int :=
  let guess := ((Text.ofNat r.num).length : Int) - (Text.ofNat r.den).length
  let power := Ratio.scale ⟨1, 1⟩ 10 guess
  if power.num * r.den ≤ r.num * power.den then guess else guess - 1

structure Digits where
  value : Nat
  exponent : Int
  deriving DecidableEq, Repr

/-- The decimal with a given number of digits that is nearest to the double among the two at its
sides, if one of them rounds to the double. -/
def candidate? (b : Binary) (count : Nat) : Option Digits :=
  let unit := fun (n : Nat) => Ratio.scale ⟨n, 1⟩ 2 (b.exponent - 2)
  let exact := unit (4 * b.mantissa)
  let exponent := exact.magnitude - count + 1
  let onGrid := fun (r : Ratio) => r.scale 10 (-exponent)
  let low := onGrid (unit (4 * b.mantissa - if b.narrowBelow then 1 else 2))
  let high := onGrid (unit (4 * b.mantissa + 2))
  let here := onGrid exact
  let closed := b.mantissa % 2 == 0
  let below := here.num / here.den
  let above := below + 1
  let reachesDown := if closed then low.num ≤ below * low.den else low.num < below * low.den
  let reachesUp := if closed then above * high.den ≤ high.num else above * high.den < high.num
  let toBelow := here.num - below * here.den
  let toAbove := above * here.den - here.num
  let preferBelow := toBelow < toAbove ∨ (toBelow = toAbove ∧ below % 2 = 0)
  if reachesDown ∧ (¬ reachesUp ∨ preferBelow) then some ⟨below, exponent⟩
  else if reachesUp then some ⟨above, exponent⟩
  else none

def search (b : Binary) : Nat → Nat → Option Digits
  | 0, _ => none
  | tries + 1, count =>
    match candidate? b count with
    | some d => some d
    | none => search b tries (count + 1)

def dropZeros : Nat → Digits → Digits
  | 0, d => d
  | n + 1, d => if d.value % 10 = 0 ∧ d.value ≠ 0 then dropZeros n ⟨d.value / 10, d.exponent + 1⟩ else d

/-- The shortest decimal that rounds to a double; seventeen digits always do. -/
def shortest (b : Binary) : Digits :=
  if b.mantissa = 0 then ⟨0, 0⟩ else dropZeros 17 ((search b 17 1).getD ⟨0, 0⟩)

structure Style where
  mostDigits : Int
  mostZeros : Int
  exponentDigits : Nat
  deriving Repr

def zeros (n : Int) : Text := List.replicate n.toNat '0'

/-- Writes a decimal in positional notation with at least one digit behind the point, or with an
exponent where positional notation would be too long. -/
def Style.write (s : Style) (d : Digits) : Text :=
  let digits := Text.ofNat d.value
  let point : Int := digits.length + d.exponent
  if d.value = 0 then "0.0"
  else if -s.mostZeros ≤ point ∧ point ≤ s.mostDigits then
    if point ≤ 0 then "0." ++ zeros (-point) ++ digits
    else if (digits.length : Int) ≤ point then digits ++ zeros (point - digits.length) ++ ".0"
    else digits.take point.toNat ++ '.' :: digits.drop point.toNat
  else
    let exponent := point - 1
    let shown := Text.ofNat exponent.natAbs
    let fraction := digits.drop 1
    digits.take 1 ++ (if fraction.isEmpty then [] else '.' :: fraction) ++
      'e' :: (if exponent < 0 then '-' else '+') ::
        (zeros (s.exponentDigits - shown.length) ++ shown)

/-- The double nearest to a decimal. Exponents far outside the range of doubles are decided by
their sign alone. -/
def Digits.toFloat (d : Digits) : Float :=
  let size : Int := (Text.ofNat d.value).length + d.exponent
  if d.value = 0 || size < -400 then 0.0
  else if size > 400 then 1.0 / 0.0
  else match d.exponent with
    | .ofNat n => Float.ofScientific (d.value * Nat.pow 10 n) false 0
    | .negSucc n => Float.ofScientific d.value true (n + 1)

end CodeAtlas.Decimal
