import CodeAtlas.Fault

set_option autoImplicit false

namespace CodeAtlas

structure Block where
  kind : Text
  text : Text
  deriving DecidableEq, Repr

structure Reply where
  content : List Block
  model : Text
  /-- What the service says about its use, in whatever form. -/
  usage : Data

def Reply.firstText? (r : Reply) : Option Text :=
  (r.content.find? fun b => b.kind = ("text" : Text)).map (·.text)

structure Client (σ : Type) where
  generate : Text → Int → σ → Except Fault Reply × σ

namespace Data

/-- The name of a field that a value becomes. Lists and records name no field. -/
def fieldName? : Data → Except Fault Text
  | .text t => .ok t
  | .bool true => .ok "true"
  | .bool false => .ok "false"
  | .null => .ok "null"
  | .list items => .error (.unusableKey (.list items))
  | .record fields => .error (.unusableKey (.record fields))
  | v => .ok v.display

def entry (index : Nat) (v : Data) : Except Fault (Text × Data) := do
  let parts ← match v with
    | .list _ | .record _ | .text _ => v.members
    | _ => .error (.notAnEntry index)
  match parts with
  | [name, value] => return (← name.fieldName?, value)
  | _ => .error (.notAPair index parts.length)

def entries : Nat → List Data → Fields → Except Fault Fields
  | _, [], fields => .ok fields
  | index, v :: rest, fields => do
    let (name, value) ← entry index v
    entries (index + 1) rest (Fields.set name value fields)

/-- A value as fields: a record as it is, and anything else as a list of pairs. -/
def toFields : Data → Except Fault Fields
  | .record fields => .ok fields
  | v => do entries 0 (← v.members) []

theorem toFields_record (fields : Fields) : toFields (.record fields) = .ok fields := rfl

end Data

end CodeAtlas
