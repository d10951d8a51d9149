import CodeAtlas.Fault

set_option autoImplicit false

namespace CodeAtlas

structure StageState where
  id : Text
  status : Status := .idle
  task : Option Text := none
  error : Option Text := none
  deriving DecidableEq, Repr

namespace StageState

def move (target : Status) (s : StageState) : Except Fault StageState :=
  if s.status.allows target then .ok { s with status := target }
  else .error (.illegalMove s.id s.status target)

def start (task : Option Text) (s : StageState) : Except Fault StageState := do
  return { ← s.move .processing with task }

def updateTask (task : Text) (s : StageState) : Except Fault StageState := s.start (some task)

def complete (s : StageState) : Except Fault StageState := do
  return { ← s.move .completed with task := none }

def fail (message : Text) (s : StageState) : Except Fault StageState := do
  return { ← s.move .error with error := some message }

def reset (s : StageState) : StageState := { id := s.id }

inductive Operation where
  | start (task : Option Text)
  | updateTask (task : Text)
  | complete
  | fail (message : Text)
  | reset
  deriving DecidableEq, Repr

def Operation.target : Operation → Status
  | .start _ | .updateTask _ => .processing
  | .complete => .completed
  | .fail _ => .error
  | .reset => .idle

def perform (op : Operation) (s : StageState) : Except Fault StageState :=
  match op with
  | .start task => s.start task
  | .updateTask task => s.updateTask task
  | .complete => s.complete
  | .fail message => s.fail message
  | .reset => .ok s.reset

/-- The state after an operation; a refused one leaves it as it is. -/
def after (s : StageState) (op : Operation) : StageState :=
  match s.perform op with
  | .ok t => t
  | .error _ => s

def afterAll (s : StageState) (ops : List Operation) : StageState := ops.foldl after s

end StageState

end CodeAtlas
