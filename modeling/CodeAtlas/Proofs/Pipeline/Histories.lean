import CodeAtlas.Proofs.Pipeline.Outcome

/-!
Many runs of one orchestrator, one after the other. A run begins with a reset of all stages and
knows earlier runs only by what it appends to, so it shows what it would show alone.
-/

set_option autoImplicit false

namespace CodeAtlas

theorem Stages.reset_eq {s : Stages} (h : ∀ name, (s.get name).id = name.label) : s.reset = {} := by
  have hreset : ∀ name, (s.get name).reset = { id := name.label } := by
    intro name
    rw [StageState.reset, h name]
  exact congr (congr (congr (congrArg Stages.mk (hreset .structural)) (hreset .retrieval))
    (hreset .generation)) (hreset .orchestrator)

namespace StageState

@[simp] theorem id_working (id task : Text) : (working id task).id = id := rfl

@[simp] theorem id_finished (id : Text) : (finished id).id = id := rfl

@[simp] theorem id_broken (id task message : Text) : (broken id task message).id = id := rfl

@[simp] theorem id_ended {α : Type} (id task : Text) (outcome : Except Fault α) :
    (ended id task outcome).id = id := by
  cases outcome <;> rfl

@[simp] theorem finished_ne (id other : Text) : finished id ≠ { id := other } := by
  simp [finished]

@[simp] theorem broken_ne (id task message other : Text) :
    broken id task message ≠ { id := other } := by
  simp [broken]

@[simp] theorem ended_ne {α : Type} (id task other : Text) (outcome : Except Fault α) :
    ended id task outcome ≠ { id := other } := by
  cases outcome with
  | ok value => exact finished_ne id other
  | error fault => exact broken_ne id task fault.message other

end StageState

namespace Session

variable {σ : Type}

def fresh (clock : List Float) (service : σ) : Session (σ × List (Text × Int)) :=
  { clock, service := (service, []) }

/-- A session with the log and the requests of another in front of its own. -/
def behind (s t : Session (σ × List (Text × Int))) : Session (σ × List (Text × Int)) :=
  { t with log := s.log ++ t.log, service := (t.service.1, s.service.2 ++ t.service.2) }

def renewed (s : Session σ) : Session σ := { s with stages := {} }

def Named (s : Session σ) : Prop := ∀ name, s.stageId name = name.label

theorem named_fresh (clock : List Float) (service : σ) : (fresh clock service).Named := by
  intro name
  cases name <;> rfl

@[simp] theorem stageId_withStage (s : Session σ) (name : StageName) (state : StageState) :
    (s.withStage name state).stageId name = state.id := by
  simp [stageId]

@[simp] theorem log_withStage (s : Session σ) (name : StageName) (state : StageState) :
    (s.withStage name state).log = s.log := rfl

@[simp] theorem log_noted (s : Session σ) (ctx : Context) (events : List Event) :
    (s.noted ctx events).log =
      s.log ++ events.map fun e => ⟨e, ctx.requestId, ctx.repositoryId⟩ := rfl

@[simp] theorem log_served (s : Session σ) (service : σ) : (s.served service).log = s.log := rfl

@[simp] theorem log_ticked (s : Session σ) : s.ticked.log = s.log := rfl

@[simp] theorem log_cleared (s : Session σ) : s.cleared.log = s.log := rfl

@[simp] theorem log_fresh (clock : List Float) (service : σ) : (fresh clock service).log = [] := rfl

@[simp] theorem named_ticked {s : Session σ} : s.ticked.Named ↔ s.Named := .rfl

@[simp] theorem ticked_renewed (s : Session σ) : s.renewed.ticked = s.ticked.renewed := rfl

@[simp] theorem cleared_renewed {s : Session σ} (h : s.Named) : s.renewed.cleared = s.cleared := by
  have hstages : s.stages.reset = {} := Stages.reset_eq h
  rw [cleared, cleared, hstages]
  rfl

@[simp] theorem behind_fresh (s : Session (σ × List (Text × Int))) :
    s.behind (fresh s.clock s.service.1) = s.renewed := by
  simp [behind, fresh, renewed]

@[simp] theorem behind_ticked (s t : Session (σ × List (Text × Int))) :
    s.behind t.ticked = (s.behind t).ticked := rfl

@[simp] theorem behind_cleared (s t : Session (σ × List (Text × Int))) :
    s.behind t.cleared = (s.behind t).cleared := rfl

@[simp] theorem behind_noted (s t : Session (σ × List (Text × Int))) (ctx : Context)
    (events : List Event) : s.behind (t.noted ctx events) = (s.behind t).noted ctx events := by
  simp [behind, noted]

@[simp] theorem behind_served (s t : Session (σ × List (Text × Int)))
    (service : σ × List (Text × Int)) :
    s.behind (t.served service) = (s.behind t).served (service.1, s.service.2 ++ service.2) := rfl

@[simp] theorem behind_withStage (s t : Session (σ × List (Text × Int))) (name : StageName)
    (state : StageState) :
    s.behind (t.withStage name state) = (s.behind t).withStage name state := rfl

end Session

namespace Pipeline

variable {σ : Type}

open Session

theorem stageId_fresh {s : Session (σ × List (Text × Int))} (h : s.Named) (name : StageName) :
    (fresh s.clock s.service.1).stageId name = s.stageId name := by
  rw [named_fresh s.clock s.service.1 name, h name]

theorem behind_closed (p : Pipeline (σ × List (Text × Int))) (ctx : Context)
    (files : List SourceFile) (outcome : Except Fault (Text × Fields))
    (after : σ × List (Text × Int)) {s : Session (σ × List (Text × Int))} (h : s.Named) :
    s.behind (p.closed ctx files outcome after (fresh s.clock s.service.1)) =
      p.closed ctx files outcome (after.1, s.service.2 ++ after.2) s := by
  have hclock : milliseconds (fresh s.clock s.service.1) = milliseconds s := rfl
  cases outcome with
  | ok produced => simp [closed, withAnswer, stageId_fresh h, h, hclock]
  | error fault => simp [closed, withAnswer, stageId_fresh h, h]

/-- A run does what it would do alone, behind the log and the requests of earlier runs. -/
theorem execute_eq_behind (p : Pipeline σ) (ctx : Context) (items : List SourceItem)
    {s : Session (σ × List (Text × Int))} (h : s.Named) :
    (p.recorded.execute ctx items).exec s =
      (((p.recorded.execute ctx items).exec (fresh s.clock s.service.1)).1,
        s.behind ((p.recorded.execute ctx items).exec (fresh s.clock s.service.1)).2) := by
  cases hread : SourceItem.readAll items with
  | error fault =>
    simp [exec_execute_unread p.recorded ctx hread, stageId_fresh h, h]
  | ok files =>
    by_cases hnil : items = []
    · subst hnil
      simp [exec_execute_nil, stageId_fresh h, h]
    · have hne := SourceItem.ne_nil_of_readAll hread hnil
      rw [p.exec_recorded ctx hread hne s, p.exec_recorded ctx hread hne, behind_closed _ _ _ _ _ h]
      rfl

theorem named_closed (p : Pipeline σ) (ctx : Context) (files : List SourceFile)
    (outcome : Except Fault (Text × Fields)) (after : σ) {s : Session σ} (h : s.Named) :
    (p.closed ctx files outcome after s).Named := by
  intro name
  rw [← h name]
  cases outcome <;> cases name <;> simp [closed, withAnswer]

theorem named_execute (p : Pipeline σ) (ctx : Context) (items : List SourceItem)
    {s : Session (σ × List (Text × Int))} (h : s.Named) :
    ((p.recorded.execute ctx items).exec s).2.Named := by
  cases hread : SourceItem.readAll items with
  | error fault =>
    intro name
    rw [exec_execute_unread p.recorded ctx hread, ← h name]
    cases name <;> simp
  | ok files =>
    by_cases hnil : items = []
    · intro name
      subst hnil
      rw [exec_execute_nil, ← h name]
      cases name <;> simp
    · rw [p.exec_recorded ctx hread (SourceItem.ne_nil_of_readAll hread hnil) s]
      exact named_closed _ _ _ _ _ h

theorem exists_event_of_stage (p : Pipeline σ) (ctx : Context) (files : List SourceFile)
    (name : StageName) : ∃ event ∈ p.events ctx files, event.stage? = some name := by
  cases name with
  | structural => exact ⟨.structuralStarted files.length, by simp [events, Analysis.events], rfl⟩
  | retrieval => exact ⟨.retrievalStarted ctx.scope ctx.target, by simp [events], rfl⟩
  | generation =>
    exact ⟨.generationRequested (p.prompt ctx files).length (p.context ctx files).length,
      by simp [events], rfl⟩
  | orchestrator => exact ⟨.pipelineStarted ctx.scope ctx.target, by simp [events], rfl⟩

theorem mem_log_closed (p : Pipeline σ) (ctx : Context) {files : List SourceFile}
    (outcome : Except Fault (Text × Fields)) (after : σ) (s : Session σ) {event : Event}
    (h : event ∈ p.events ctx files) :
    ⟨event, ctx.requestId, ctx.repositoryId⟩ ∈ (p.closed ctx files outcome after s).log := by
  cases outcome <;> simp [closed, withAnswer, h]

theorem get_closed_ne (p : Pipeline σ) (ctx : Context) (files : List SourceFile)
    (outcome : Except Fault (Text × Fields)) (after : σ) (s : Session σ) (name : StageName)
    (id : Text) : (p.closed ctx files outcome after s).stages.get name ≠ { id } := by
  cases outcome <;> cases name <;> simp [closed, withAnswer]

theorem idle_execute_iff (p : Pipeline σ) (ctx : Context) (items : List SourceItem)
    (clock : List Float) (service : σ) (name : StageName) :
    ((p.recorded.execute ctx items).exec (fresh clock service)).2.stages.get name =
        { id := name.label } ↔
      ∀ entry ∈ ((p.recorded.execute ctx items).exec (fresh clock service)).2.log,
        entry.event.stage? ≠ some name := by
  have hid := named_fresh clock service
  cases hread : SourceItem.readAll items with
  | error fault =>
    rw [exec_execute_unread p.recorded ctx hread]
    cases name <;> simp [Event.stage?, hid _]
  | ok files =>
    by_cases hnil : items = []
    · subst hnil
      rw [exec_execute_nil]
      cases name <;> simp [Event.stage?, hid _]
    · rw [p.exec_recorded ctx hread (SourceItem.ne_nil_of_readAll hread hnil)]
      obtain ⟨event, hevent, hstage⟩ := p.recorded.exists_event_of_stage ctx files name
      constructor
      · intro h
        exact (get_closed_ne _ _ _ _ _ _ _ _ h).elim
      · intro h
        exact absurd hstage (h _ (mem_log_closed _ _ _ _ _ hevent))

end Pipeline

/-- A request to an orchestrator, and what surrounds it: how the look-ups in the graph behave,
what the clock shows, and the state in which the client is. -/
structure Job (σ : Type) where
  ctx : Context
  items : List SourceItem
  queries : GraphQueries := Graph.queries
  clock : List Float
  service : σ

/-- What a run shows: how it ends, its requests, what it logs, and the stages afterwards. -/
structure Trace where
  outcome : Except Fault Documentation
  requests : List (Text × Int)
  log : List LogEntry
  stages : Stages

namespace Pipeline

variable {σ : Type}

open Session

def facing (job : Job σ) (s : Session (σ × List (Text × Int))) : Session (σ × List (Text × Int)) :=
  { s with clock := job.clock, service := (job.service, s.service.2) }

def perform (p : Pipeline σ) (job : Job σ) (s : Session (σ × List (Text × Int))) :
    Except Fault Documentation × Session (σ × List (Text × Int)) :=
  ({ p with queries := job.queries }.recorded.execute job.ctx job.items).exec (facing job s)

def trace (p : Pipeline σ) (job : Job σ) (s : Session (σ × List (Text × Int))) : Trace where
  outcome := (p.perform job s).1
  requests := (p.perform job s).2.service.2.drop s.service.2.length
  log := (p.perform job s).2.log.drop s.log.length
  stages := (p.perform job s).2.stages

def history (p : Pipeline σ) : List (Job σ) → Session (σ × List (Text × Int)) → List Trace
  | [], _ => []
  | job :: rest, s => p.trace job s :: p.history rest (p.perform job s).2

def alone (p : Pipeline σ) (job : Job σ) : Trace := p.trace job (fresh job.clock job.service)

theorem trace_eq_alone (p : Pipeline σ) (job : Job σ) {s : Session (σ × List (Text × Int))}
    (h : s.Named) : p.trace job s = p.alone job := by
  have hfacing : (facing job s).Named := h
  have hrun := execute_eq_behind { p with queries := job.queries } job.ctx job.items hfacing
  have hperform : p.perform job s = ((p.perform job (fresh job.clock job.service)).1,
      (facing job s).behind (p.perform job (fresh job.clock job.service)).2) := hrun
  rw [trace, hperform]
  simp [alone, trace, behind, facing, fresh]

/-- Runs of one orchestrator do not influence each other. -/
theorem history_eq_map_alone (p : Pipeline σ) (jobs : List (Job σ))
    {s : Session (σ × List (Text × Int))} (h : s.Named) :
    p.history jobs s = jobs.map p.alone := by
  induction jobs generalizing s with
  | nil => rfl
  | cons job rest ih =>
    have hnext : (p.perform job s).2.Named := named_execute _ _ _ (show (facing job s).Named from h)
    rw [history, List.map_cons, p.trace_eq_alone job h, ih hnext]

theorem idle_alone_iff (p : Pipeline σ) (job : Job σ) (name : StageName) :
    (p.alone job).stages.get name = { id := name.label } ↔
      ∀ entry ∈ (p.alone job).log, entry.event.stage? ≠ some name :=
  idle_execute_iff { p with queries := job.queries } job.ctx job.items job.clock job.service name

theorem history_fresh (p : Pipeline σ) (jobs : List (Job σ)) (clock : List Float) (service : σ) :
    p.history jobs (fresh clock service) = jobs.map p.alone ∧
      ∀ trace ∈ p.history jobs (fresh clock service), ∀ name,
        trace.stages.get name = { id := name.label } ↔
          ∀ entry ∈ trace.log, entry.event.stage? ≠ some name := by
  have hhistory := p.history_eq_map_alone jobs (named_fresh clock service)
  refine ⟨hhistory, ?_⟩
  intro trace htrace name
  rw [hhistory, List.mem_map] at htrace
  obtain ⟨job, _, rfl⟩ := htrace
  exact p.idle_alone_iff job name

end Pipeline

end CodeAtlas
