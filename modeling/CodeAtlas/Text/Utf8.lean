import CodeAtlas.Text.Basic

set_option autoImplicit false

namespace CodeAtlas.Text

def toBytes (t : Text) : List UInt8 := t.flatMap String.utf8EncodeChar

def continueWith : Nat → Nat → List UInt8 → Option Nat
  | 0, value, _ => some value
  | _ + 1, _, [] => none
  | count + 1, value, b :: rest =>
    if b.toNat / 0x40 = 2 then continueWith count (value * 0x40 + b.toNat % 0x40) rest else none

/-- The character that begins at a byte, of which the following bytes are given too, and the number
of bytes that continue it. Forms longer than needed and surrogates are no characters. -/
def charAt? (b : UInt8) (rest : List UInt8) : Option (Char × Nat) :=
  let n := b.toNat
  let of (count payload least : Nat) : Option (Char × Nat) := do
    let value ← continueWith count payload rest
    if least ≤ value ∧ value.isValidChar then some (Char.ofNat value, count) else none
  if n < 0x80 then of 0 n 0
  else if n < 0xc0 then none
  else if n < 0xe0 then of 1 (n - 0xc0) 0x80
  else if n < 0xf0 then of 2 (n - 0xe0) 0x800
  else if n < 0xf8 then of 3 (n - 0xf0) 0x10000
  else none

/-- Takes the characters of some bytes, of which a number belongs to the last character already
taken; the characters taken so far are given last first. -/
def takeBytes : Text → Nat → List UInt8 → Text
  | taken, _, [] => taken.reverse
  | taken, inside + 1, _ :: rest => takeBytes taken inside rest
  | taken, 0, b :: rest =>
    match charAt? b rest with
    | some (c, count) => takeBytes (c :: taken) count rest
    | none => takeBytes taken 0 rest

def ofBytes (bytes : List UInt8) : Text := takeBytes [] 0 bytes

def takeLines : Text → Text → Text
  | taken, [] => taken.reverse
  | taken, '\r' :: '\n' :: rest => takeLines ('\n' :: taken) rest
  | taken, c :: rest => takeLines ((if c = '\r' then '\n' else c) :: taken) rest

def unifyLines (t : Text) : Text := takeLines [] t

@[simp] theorem ofBytes_nil : ofBytes [] = [] := rfl

theorem charAt?_ascii {b : UInt8} (h : b.toNat < 0x80) (rest : List UInt8) :
    charAt? b rest = some (Char.ofNat b.toNat, 0) := by
  have hv : b.toNat.isValidChar := Or.inl (Nat.lt_trans h (by decide))
  simp [charAt?, h, continueWith, hv]

theorem takeLines_of_not_mem {t : Text} (h : '\r' ∉ t) (taken : Text) :
    takeLines taken t = taken.reverse ++ t := by
  induction t generalizing taken with
  | nil => simp [takeLines]
  | cons c rest ih =>
    have hc : c ≠ '\r' := fun e => h (e ▸ List.mem_cons_self)
    have hr : '\r' ∉ rest := fun m => h (List.mem_cons_of_mem _ m)
    rw [takeLines, if_neg hc, ih hr]
    · simp
    · intro more e; exact absurd e hc

theorem unifyLines_of_not_mem {t : Text} (h : '\r' ∉ t) : unifyLines t = t := by
  simp [unifyLines, takeLines_of_not_mem h]

end CodeAtlas.Text
