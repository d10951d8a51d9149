import CodeAtlas.Pipeline.Document

set_option autoImplicit false

namespace CodeAtlas

namespace StageState

def working (id task : Text) : StageState := { id, status := .processing, task := some task }

def finished (id : Text) : StageState := { id, status := .completed }

def broken (id task message : Text) : StageState :=
  { id, status := .error, task := some task, error := some message }

theorem perform_reset (s : StageState) : s.perform .reset = .ok { id := s.id } := rfl

theorem perform_start (id task : Text) :
    perform (.start (some task)) { id } = .ok (working id task) := rfl

theorem perform_updateTask (id task next : Text) :
    (working id task).perform (.updateTask next) = .ok (working id next) := rfl

theorem perform_complete (id task : Text) :
    (working id task).perform .complete = .ok (finished id) := rfl

theorem perform_fail (id task message : Text) :
    (working id task).perform (.fail message) = .ok (broken id task message) := rfl

end StageState

namespace Session

variable {σ : Type}

def withStage (s : Session σ) (name : StageName) (state : StageState) : Session σ :=
  { s with stages := s.stages.set name state }

def noted (s : Session σ) (ctx : Context) (events : List Event) : Session σ :=
  { s with log := s.log ++ events.map fun e => ⟨e, ctx.requestId, ctx.repositoryId⟩ }

def served (s : Session σ) (service : σ) : Session σ := { s with service }

def ticked (s : Session σ) : Session σ := { s with clock := s.clock.tail }

def cleared (s : Session σ) : Session σ := { s with stages := s.stages.reset }

def stageId (s : Session σ) (name : StageName) : Text := (s.stages.get name).id

@[simp] theorem get_withStage (s : Session σ) (name : StageName) (state : StageState) :
    (s.withStage name state).stages.get name = state := by simp [withStage]

@[simp] theorem get_withStage_of_ne (s : Session σ) {name other : StageName} (h : other ≠ name)
    (state : StageState) : (s.withStage name state).stages.get other = s.stages.get other :=
  Stages.get_set_of_ne s.stages h state

@[simp] theorem get_cleared (s : Session σ) (name : StageName) :
    s.cleared.stages.get name = { id := s.stageId name } := by
  cases name <;> rfl

@[simp] theorem stages_noted (s : Session σ) (ctx : Context) (events : List Event) :
    (s.noted ctx events).stages = s.stages := rfl

@[simp] theorem stages_served (s : Session σ) (service : σ) :
    (s.served service).stages = s.stages := rfl

@[simp] theorem stages_ticked (s : Session σ) : s.ticked.stages = s.stages := rfl

@[simp] theorem service_withStage (s : Session σ) (name : StageName) (state : StageState) :
    (s.withStage name state).service = s.service := rfl

@[simp] theorem service_noted (s : Session σ) (ctx : Context) (events : List Event) :
    (s.noted ctx events).service = s.service := rfl

@[simp] theorem service_served (s : Session σ) (service : σ) :
    (s.served service).service = service := rfl

@[simp] theorem service_ticked (s : Session σ) : s.ticked.service = s.service := rfl

@[simp] theorem service_cleared (s : Session σ) : s.cleared.service = s.service := rfl

@[simp] theorem clock_withStage (s : Session σ) (name : StageName) (state : StageState) :
    (s.withStage name state).clock = s.clock := rfl

@[simp] theorem clock_noted (s : Session σ) (ctx : Context) (events : List Event) :
    (s.noted ctx events).clock = s.clock := rfl

@[simp] theorem clock_served (s : Session σ) (service : σ) :
    (s.served service).clock = s.clock := rfl

@[simp] theorem clock_ticked (s : Session σ) : s.ticked.clock = s.clock.tail := rfl

@[simp] theorem clock_cleared (s : Session σ) : s.cleared.clock = s.clock := rfl

@[simp] theorem stageId_withStage_of_ne (s : Session σ) {name other : StageName}
    (h : other ≠ name) (state : StageState) :
    (s.withStage name state).stageId other = s.stageId other := by
  simp [stageId, h]

@[simp] theorem stageId_noted (s : Session σ) (ctx : Context) (events : List Event)
    (name : StageName) : (s.noted ctx events).stageId name = s.stageId name := rfl

@[simp] theorem stageId_served (s : Session σ) (service : σ) (name : StageName) :
    (s.served service).stageId name = s.stageId name := rfl

@[simp] theorem stageId_ticked (s : Session σ) (name : StageName) :
    s.ticked.stageId name = s.stageId name := rfl

@[simp] theorem stageId_cleared (s : Session σ) (name : StageName) :
    s.cleared.stageId name = s.stageId name := by
  simp [stageId]

-- A session is written with the clock innermost, then the log, the service and the stages, the
-- orchestrator last.

@[simp] theorem withStage_withStage (s : Session σ) (name : StageName) (a b : StageState) :
    (s.withStage name a).withStage name b = s.withStage name b := by
  cases name <;> rfl

@[simp] theorem withStage_orchestrator (s : Session σ) {name : StageName}
    (h : name ≠ .orchestrator) (a b : StageState) :
    (s.withStage .orchestrator a).withStage name b =
      (s.withStage name b).withStage .orchestrator a := by
  cases name with
  | orchestrator => exact absurd rfl h
  | structural => rfl
  | retrieval => rfl
  | generation => rfl

@[simp] theorem noted_noted (s : Session σ) (ctx : Context) (es fs : List Event) :
    (s.noted ctx es).noted ctx fs = s.noted ctx (es ++ fs) := by
  simp [noted]

@[simp] theorem noted_withStage (s : Session σ) (name : StageName) (state : StageState)
    (ctx : Context) (events : List Event) :
    (s.withStage name state).noted ctx events = (s.noted ctx events).withStage name state := rfl

@[simp] theorem noted_served (s : Session σ) (service : σ) (ctx : Context) (events : List Event) :
    (s.served service).noted ctx events = (s.noted ctx events).served service := rfl

@[simp] theorem served_withStage (s : Session σ) (name : StageName) (state : StageState)
    (service : σ) :
    (s.withStage name state).served service = (s.served service).withStage name state := rfl

@[simp] theorem ticked_withStage (s : Session σ) (name : StageName) (state : StageState) :
    (s.withStage name state).ticked = s.ticked.withStage name state := rfl

@[simp] theorem ticked_noted (s : Session σ) (ctx : Context) (events : List Event) :
    (s.noted ctx events).ticked = s.ticked.noted ctx events := rfl

@[simp] theorem ticked_served (s : Session σ) (service : σ) :
    (s.served service).ticked = s.ticked.served service := rfl

@[simp] theorem ticked_cleared (s : Session σ) : s.cleared.ticked = s.ticked.cleared := rfl

end Session

namespace Run

variable {σ α β : Type}

theorem exec_pure (a : α) (s : Session σ) : (pure a : Run σ α).exec s = (.ok a, s) := rfl

theorem exec_throw (fault : Fault) (s : Session σ) :
    (throw fault : Run σ α).exec s = (.error fault, s) := rfl

theorem exec_bind (r : Run σ α) (k : α → Run σ β) (s : Session σ) :
    (r >>= k).exec s =
      match r.exec s with
      | (.ok a, t) => (k a).exec t
      | (.error fault, t) => (.error fault, t) := by
  unfold exec ExceptT.run StateT.run
  simp only [bind, ExceptT.bind, ExceptT.mk, StateT.bind]
  cases h : r s with
  | mk outcome t => cases outcome <;> rfl

theorem exec_tryCatch (r : Run σ α) (handle : Fault → Run σ α) (s : Session σ) :
    (tryCatch r handle).exec s =
      match r.exec s with
      | (.ok a, t) => (.ok a, t)
      | (.error fault, t) => (handle fault).exec t := by
  unfold exec ExceptT.run StateT.run
  simp only [tryCatch, tryCatchThe, MonadExceptOf.tryCatch, ExceptT.tryCatch, ExceptT.mk, bind,
    StateT.bind]
  cases h : r s with
  | mk outcome t => cases outcome <;> rfl

theorem exec_bind_ok {r : Run σ α} {k : α → Run σ β} {s t : Session σ} {a : α}
    (h : r.exec s = (.ok a, t)) : (r >>= k).exec s = (k a).exec t := by
  rw [exec_bind, h]

theorem exec_bind_error {r : Run σ α} {k : α → Run σ β} {s t : Session σ} {fault : Fault}
    (h : r.exec s = (.error fault, t)) : (r >>= k).exec s = (.error fault, t) := by
  rw [exec_bind, h]

theorem exec_tryCatch_ok {r : Run σ α} {handle : Fault → Run σ α} {s t : Session σ} {a : α}
    (h : r.exec s = (.ok a, t)) : (tryCatch r handle).exec s = (.ok a, t) := by
  rw [exec_tryCatch, h]

theorem exec_tryCatch_error {r : Run σ α} {handle : Fault → Run σ α} {s t : Session σ}
    {fault : Fault} (h : r.exec s = (.error fault, t)) :
    (tryCatch r handle).exec s = (handle fault).exec t := by
  rw [exec_tryCatch, h]

theorem exec_get (s : Session σ) : (getThe (Session σ) : Run σ _).exec s = (.ok s, s) := rfl

theorem exec_set (t s : Session σ) : (set t : Run σ PUnit).exec s = (.ok ⟨⟩, t) := rfl

theorem exec_perform {s : Session σ} {stage : StageName} {op : StageState.Operation}
    {state : StageState} (h : (s.stages.get stage).perform op = .ok state) :
    (perform stage op).exec s = (.ok (), s.withStage stage state) := by
  unfold perform
  rw [exec_bind_ok (exec_get s), h]
  exact exec_set ..

theorem exec_note (ctx : Context) (event : Event) (s : Session σ) :
    (note ctx event).exec s = (.ok (), s.noted ctx [event]) := rfl

theorem exec_noteAll (ctx : Context) (events : List Event) (s : Session σ) :
    (noteAll ctx events).exec s = (.ok (), s.noted ctx events) := rfl

theorem exec_resetAll (s : Session σ) :
    (resetAll : Run σ Unit).exec s = (.ok (), s.cleared) := rfl

theorem exec_orFault (e : Except Fault α) (s : Session σ) :
    (orFault e : Run σ α).exec s = (e, s) := by
  cases e <;> rfl

theorem exec_ask (client : Client σ) (prompt : Text) (limit : Int) (s : Session σ) :
    (ask client prompt limit).exec s =
      ((client.generate prompt limit s.service).1,
        s.served (client.generate prompt limit s.service).2) := by
  unfold ask
  rw [exec_bind_ok (exec_get s), exec_bind_ok (exec_set ..)]
  cases h : (client.generate prompt limit s.service).1 with
  | error fault => exact exec_throw fault _
  | ok reply => exact exec_pure reply _

theorem exec_readClock (s : Session σ) :
    (readClock : Run σ Float).exec s = (.ok (s.clock.headD 0.0), s.ticked) := by
  unfold readClock
  rw [exec_bind_ok (exec_get s)]
  obtain ⟨stages, log, clock, service⟩ := s
  cases clock with
  | nil => rfl
  | cons t rest => rfl

end Run

end CodeAtlas
