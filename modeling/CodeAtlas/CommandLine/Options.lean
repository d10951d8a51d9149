import CodeAtlas.Text.Basic

set_option autoImplicit false

namespace CodeAtlas.CommandLine

structure OptionSpec where
  name : Text
  flags : List Text
  takesValue : Bool := true
  deriving DecidableEq, Repr

structure Given where
  values : List (Text × Text) := []
  switches : List Text := []
  operands : List Text := []
  deriving DecidableEq, Repr

/-- The value of an option; the last one given counts. -/
def Given.value? (g : Given) (name : Text) : Option Text := g.values.reverse.lookup name

def Given.has (g : Given) (name : Text) : Bool := g.switches.contains name

/-- What one argument says: some switches, and at most one option with a value, which may still be
missing. -/
structure Saying where
  switches : List Text := []
  option : Option (Text × Option Text) := none
  deriving DecidableEq, Repr

def withFlag? (specs : List OptionSpec) (flag : Text) : Option OptionSpec :=
  specs.find? fun o => o.flags.contains flag

def readLong? (specs : List OptionSpec) (arg : Text) : Option Saying :=
  let (flag, attached) := match Text.cutAt? ['='] arg with
    | some (flag, value) => (flag, some value)
    | none => (arg, none)
  match withFlag? specs flag with
  | none => none
  | some o =>
    if o.takesValue then some ⟨[], some (o.name, attached)⟩
    else if attached.isSome then none
    else some ⟨[o.name], none⟩

def readShort? (specs : List OptionSpec) : Text → Option Saying
  | [] => some {}
  | c :: rest =>
    match withFlag? specs ['-', c] with
    | none => none
    | some o =>
      if o.takesValue then some ⟨[], some (o.name, if rest.isEmpty then none else some rest)⟩
      else (readShort? specs rest).map fun s => { s with switches := o.name :: s.switches }

def isFlags (arg : Text) : Bool := Text.startsWith arg ['-'] && 1 < arg.length

def readFlags? (specs : List OptionSpec) (arg : Text) : Option Saying :=
  if Text.startsWith arg ['-', '-'] then readLong? specs arg else readShort? specs (arg.drop 1)

/-- Reads arguments. Nothing is given back for an unknown flag, a missing value, or a value of a
switch. When operands end the options, all that follows the first of them is an operand too. -/
def read? (specs : List OptionSpec) (operandsEnd : Bool) (g : Given) : List Text → Option Given
  | [] => some g
  | arg :: rest =>
    if arg = ['-', '-'] then some { g with operands := g.operands ++ rest }
    else if isFlags arg then
      match readFlags? specs arg with
      | none => none
      | some ⟨switches, none⟩ =>
        read? specs operandsEnd { g with switches := g.switches ++ switches } rest
      | some ⟨switches, some (name, some value)⟩ =>
        read? specs operandsEnd
          { g with switches := g.switches ++ switches, values := g.values ++ [(name, value)] } rest
      | some ⟨switches, some (name, none)⟩ =>
        match rest with
        | [] => none
        | value :: more =>
          read? specs operandsEnd
            { g with switches := g.switches ++ switches, values := g.values ++ [(name, value)] }
            more
    else if operandsEnd then some { g with operands := g.operands ++ arg :: rest }
    else read? specs operandsEnd { g with operands := g.operands ++ [arg] } rest

theorem read?_of_no_flags {specs : List OptionSpec} {args : List Text}
    (h : ∀ arg ∈ args, isFlags arg = false) (g : Given) :
    read? specs false g args = some { g with operands := g.operands ++ args } := by
  induction args generalizing g with
  | nil => simp [read?]
  | cons arg rest ih =>
    have ha : isFlags arg = false := h arg List.mem_cons_self
    have hd : arg ≠ ['-', '-'] := fun e => by rw [e] at ha; exact absurd ha (by decide)
    rw [read?, if_neg hd, ha]
    simp [ih fun a m => h a (List.mem_cons_of_mem _ m)]

end CodeAtlas.CommandLine
