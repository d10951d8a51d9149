import CodeAtlas.Text.Basic

set_option autoImplicit false

namespace CodeAtlas

structure SourceFile where
  path : Text
  language : Text
  content : Text
  deriving DecidableEq, Repr

structure Parameter where
  name : Text
  type : Option Text := none
  isOptional : Bool := false
  defaultValue : Option Text := none
  deriving DecidableEq, Repr

structure FunctionRecord where
  name : Text
  parameters : List Parameter
  isAsync : Bool
  isExported : Bool
  startLine : Nat
  endLine : Nat
  deriving DecidableEq, Repr

structure ClassRecord where
  name : Text
  isExported : Bool
  startLine : Nat
  endLine : Nat
  parent : Option Text := none
  interfaces : Option (List Text) := none
  methods : List Text := []
  properties : List Text := []
  deriving DecidableEq, Repr

structure ImportRecord where
  source : Text
  names : List Text
  isTypeOnly : Bool := false
  deriving DecidableEq, Repr

inductive ExportKind where
  | function | type | variable | default
  | other (label : Text)
  deriving DecidableEq, Repr

structure ExportRecord where
  name : Text
  kind : ExportKind
  deriving DecidableEq, Repr

structure ParsedFile where
  path : Text
  language : Text
  functions : List FunctionRecord := []
  classes : List ClassRecord := []
  imports : List ImportRecord := []
  exports : List ExportRecord := []
  deriving DecidableEq, Repr

def Parameter.signature (p : Parameter) : Text :=
  p.name ++ (if p.isOptional then ['?'] else [])
    ++ (match p.type with
        | some t => if t.isEmpty then [] else ": " ++ t
        | none => [])

def FunctionRecord.signature (f : FunctionRecord) : Text :=
  (if f.isAsync then ("async " : Text) else []) ++ f.name
    ++ '(' :: Text.joinWith ", " (f.parameters.map Parameter.signature) ++ [')']

def ExportKind.label : ExportKind → Text
  | .function => "function"
  | .type => "class"
  | .variable => "variable"
  | .default => "default"
  | .other label => label

def ExportKind.ofLabel (label : Text) : ExportKind :=
  if label = "function" then .function
  else if label = "class" then .type
  else if label = "variable" then .variable
  else if label = "default" then .default
  else .other label

@[simp] theorem ExportKind.label_ofLabel (label : Text) : (ofLabel label).label = label := by
  unfold ofLabel
  split
  · rename_i h; exact h.symm
  · split
    · rename_i h; exact h.symm
    · split
      · rename_i h; exact h.symm
      · split
        · rename_i h; exact h.symm
        · rfl

end CodeAtlas
