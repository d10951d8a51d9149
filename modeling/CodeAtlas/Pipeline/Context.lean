import CodeAtlas.Fault

set_option autoImplicit false

namespace CodeAtlas

inductive Scope where
  | file | module | repository
  deriving DecidableEq, Repr

def Scope.label : Scope → Text
  | .file => "file"
  | .module => "module"
  | .repository => "repository"

def Scope.ofData : Data → Except Fault Scope
  | .text t =>
    if t = Scope.file.label then .ok .file
    else if t = Scope.module.label then .ok .module
    else if t = Scope.repository.label then .ok .repository
    else .error (.unknownScope (.text t))
  | v => .error (.unknownScope v)

theorem Scope.ofData_label (s : Scope) : Scope.ofData (.text s.label) = .ok s := by
  cases s <;> rfl

structure Context where
  requestId : Text
  repositoryId : Text
  userId : Text
  scope : Scope := .repository
  target : Option Text := none
  deriving DecidableEq, Repr

namespace Context

def fieldNames : List Text := ["request_id", "repository_id", "user_id", "scope", "target"]

def required (fields : Fields) (name : Text) : Except Fault Text :=
  match Fields.get? fields name with
  | some v => .ok v.display
  | none => .error (.missingArgument name)

/-- Reads a context. No other fields may be given, and only the scope and the target may be
missing. -/
def ofFields (fields : Fields) : Except Fault Context := do
  match fields.find? fun (name, _) => name ∉ fieldNames with
  | some (name, _) => .error (.unexpectedField name)
  | none =>
    let requestId ← required fields "request_id"
    let repositoryId ← required fields "repository_id"
    let userId ← required fields "user_id"
    let scope ← match Fields.get? fields "scope" with
      | some v => Scope.ofData v
      | none => .ok .repository
    let target := match Fields.get? fields "target" with
      | some .null => none
      | some v => some v.display
      | none => none
    return { requestId, repositoryId, userId, scope, target }

end Context

end CodeAtlas
