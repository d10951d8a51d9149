import CodeAtlas.Pipeline.Log
import CodeAtlas.Service.Reply
import CodeAtlas.Stage.State

/-!
The session in which runs take place: the states of the four stages, the log, the clock, and the
state of the service client. A run reads and changes the session and may end with a fault; what it
did to the session before the fault stays done.
-/

set_option autoImplicit false

namespace CodeAtlas

structure Stages where
  structural : StageState := { id := StageName.structural.label }
  retrieval : StageState := { id := StageName.retrieval.label }
  generation : StageState := { id := StageName.generation.label }
  orchestrator : StageState := { id := StageName.orchestrator.label }
  deriving DecidableEq, Repr

namespace Stages

def get (s : Stages) : StageName → StageState
  | .structural => s.structural
  | .retrieval => s.retrieval
  | .generation => s.generation
  | .orchestrator => s.orchestrator

def set (s : Stages) (name : StageName) (state : StageState) : Stages :=
  match name with
  | .structural => { s with structural := state }
  | .retrieval => { s with retrieval := state }
  | .generation => { s with generation := state }
  | .orchestrator => { s with orchestrator := state }

def reset (s : Stages) : Stages where
  structural := s.structural.reset
  retrieval := s.retrieval.reset
  generation := s.generation.reset
  orchestrator := s.orchestrator.reset

@[simp] theorem get_set_self (s : Stages) (name : StageName) (state : StageState) :
    (s.set name state).get name = state := by
  cases name <;> rfl

theorem get_set_of_ne (s : Stages) {name other : StageName} (h : other ≠ name)
    (state : StageState) : (s.set name state).get other = s.get other := by
  cases name <;> cases other <;> first | rfl | exact absurd rfl h

end Stages

structure Session (σ : Type) where
  stages : Stages := {}
  log : List LogEntry := []
  /-- The readings that the clock still gives, in seconds; it stands at zero behind them. -/
  clock : List Float := []
  service : σ

abbrev Run (σ : Type) := ExceptT Fault (StateM (Session σ))

namespace Run

variable {σ α : Type}

def exec (r : Run σ α) (s : Session σ) : Except Fault α × Session σ := ExceptT.run r |>.run s

def perform (stage : StageName) (op : StageState.Operation) : Run σ Unit := do
  let s ← getThe (Session σ)
  match (s.stages.get stage).perform op with
  | .ok state => set { s with stages := s.stages.set stage state }
  | .error fault => throw fault

def resetAll : Run σ Unit := modifyThe (Session σ) fun s => { s with stages := s.stages.reset }

def note (ctx : Context) (event : Event) : Run σ Unit :=
  modifyThe (Session σ) fun s =>
    { s with log := s.log ++ [⟨event, ctx.requestId, ctx.repositoryId⟩] }

def noteAll (ctx : Context) (events : List Event) : Run σ Unit :=
  modifyThe (Session σ) fun s =>
    { s with log := s.log ++ events.map fun e => ⟨e, ctx.requestId, ctx.repositoryId⟩ }

def readClock : Run σ Float := do
  let s ← getThe (Session σ)
  match s.clock with
  | [] => return 0.0
  | t :: rest =>
    set { s with clock := rest }
    return t

def ask (client : Client σ) (prompt : Text) (limit : Int) : Run σ Reply := do
  let s ← getThe (Session σ)
  let (reply, service) := client.generate prompt limit s.service
  set { s with service }
  match reply with
  | .ok reply => return reply
  | .error fault => throw fault

def orFault (e : Except Fault α) : Run σ α := liftM e

/-- Runs with stages of its own and leaves the stages of the session as they are. -/
def isolated (r : Run σ α) : Run σ α := fun s =>
  let (outcome, after) := r.exec { s with stages := {} }
  (outcome, { after with stages := s.stages })

end Run

end CodeAtlas
