import CodeAtlas.Stage.State

/-!
Stages as records in memory. An operation reads and writes the fields of its record one after
another, and what it wrote before a fault stays written. A snapshot is a record of its own, with the
values that the fields have when it is taken; records are told apart by their places, not by their
values.
-/

set_option autoImplicit false

namespace CodeAtlas

namespace StageState

abbrev Work := ExceptT Fault (StateM StageState)

namespace Work

def exec {α : Type} (w : Work α) (s : StageState) : Except Fault α × StageState :=
  ExceptT.run w |>.run s

def setStatus (status : Status) : Work Unit := modifyThe StageState fun s => { s with status }

def setTask (task : Option Text) : Work Unit := modifyThe StageState fun s => { s with task }

def setError (error : Option Text) : Work Unit := modifyThe StageState fun s => { s with error }

def goTo (target : Status) : Work Unit := do
  let s ← getThe StageState
  if s.status.allows target then setStatus target
  else throw (.illegalMove s.id s.status target)

end Work

def Operation.work : Operation → Work Unit
  | .start task => do
    Work.goTo .processing
    Work.setTask task
  | .updateTask task => do
    Work.goTo .processing
    Work.setTask (some task)
  | .complete => do
    Work.goTo .completed
    Work.setTask none
  | .fail message => do
    Work.goTo .error
    Work.setError (some message)
  | .reset => do
    Work.setStatus .idle
    Work.setTask none
    Work.setError none

def Operation.exec (op : Operation) (s : StageState) : Except Fault Unit × StageState :=
  op.work.exec s

/-- The values of all fields, for a new record. -/
def snapshot (s : StageState) : StageState where
  id := s.id
  status := s.status
  task := s.task
  error := s.error

inductive Action where
  | perform (place : Nat) (op : Operation)
  | snapshot (place : Nat)
  deriving DecidableEq, Repr

end StageState

abbrev StageMemory := List StageState

namespace StageMemory

open StageState (Action)

/-- The memory after an action. A snapshot gets the next place. -/
def act (m : StageMemory) : Action → StageMemory
  | .perform place op => m.modify place fun s => (op.exec s).2
  | .snapshot place => m ++ (m[place]?.map StageState.snapshot).toList

def actAll (m : StageMemory) (actions : List Action) : StageMemory := actions.foldl act m

end StageMemory

end CodeAtlas
