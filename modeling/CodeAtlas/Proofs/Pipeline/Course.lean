import CodeAtlas.Proofs.Pipeline.Histories

/-!
The log of a run agrees with what happened. A run takes one of a few courses, and its course fixes
the order of its entries, the stages it leaves behind and whether it returns. Numbers that several
entries report are the same in all of them.
-/

set_option autoImplicit false

namespace CodeAtlas

/-- The courses that a run can take: an item cannot be read, there are no items, or the service is
asked. In the last case retrieval has found chunks or has failed, and the service has written a text
or not. -/
inductive Course where
  | unread
  | empty
  | asked (retrieved written : Bool)
  deriving DecidableEq, Repr

namespace Course

def names : Course → List Text
  | .unread => ["pipeline.started", "pipeline.failed"]
  | .empty => ["pipeline.started", "structural.started", "structural.failed", "pipeline.failed"]
  | .asked retrieved written =>
    ["pipeline.started", "structural.started", "structural.parsed", "structural.graph_built",
      "retrieval.started", if retrieved then "retrieval.completed" else "retrieval.degraded",
      "pipeline.hydrated", "generation.request"] ++
    if written then ["generation.completed", "pipeline.completed"]
    else ["generation.failed", "pipeline.failed"]

def status : Course → StageName → Status
  | .unread, .orchestrator => .error
  | .unread, _ => .idle
  | .empty, .structural | .empty, .orchestrator => .error
  | .empty, _ => .idle
  | .asked _ _, .structural => .completed
  | .asked retrieved _, .retrieval => if retrieved then .completed else .error
  | .asked _ written, .generation | .asked _ written, .orchestrator =>
    if written then .completed else .error

def returns : Course → Bool
  | .asked _ written => written
  | _ => false

/-- The order of the entries tells the course. -/
theorem names_injective : Function.Injective names := by
  intro a b
  obtain _ | _ | ⟨_ | _, _ | _⟩ := a <;> obtain _ | _ | ⟨_ | _, _ | _⟩ := b <;> decide

end Course

def StageName.topic : StageName → Text
  | .orchestrator => "pipeline"
  | stage => stage.label

theorem SourceItem.length_of_readAll {items : List SourceItem} {files : List SourceFile}
    (h : readAll items = .ok files) : files.length = items.length := by
  induction items generalizing files with
  | nil => cases h; rfl
  | cons item rest ih =>
    rw [readAll_cons] at h
    cases hf : item.read with
    | error fault => rw [hf] at h; cases h
    | ok f =>
      rw [hf] at h
      cases hr : readAll rest with
      | error fault => rw [hr] at h; cases h
      | ok fs => rw [hr] at h; cases h; rw [List.length_cons, List.length_cons, ih hr]

def Context.entry (ctx : Context) (event : Event) : LogEntry :=
  ⟨event, ctx.requestId, ctx.repositoryId⟩

theorem Retrieval.stage_report (found : Except Fault (List Chunk)) :
    (report found).stage? = some .retrieval := by
  cases found <;> rfl

namespace Trace

def entries (t : Trace) : List LogEntry :=
  t.log.filter fun e => ¬ ("extract." : Text) <+: e.event.name

def said (t : Trace) (name field : Text) : List Data :=
  t.entries.filterMap fun e => if e.event.name = name then Fields.get? e.fields field else none

end Trace

structure Tallied {σ : Type} (p : Pipeline σ) (job : Job σ) (retrieved : Bool) (t : Trace) :
    Prop where
  chunks : ∃ chunks hydrated : Nat, hydrated ≤ chunks ∧ (retrieved = false → chunks = 0) ∧
    t.said "retrieval.completed" "chunk_count" = (if retrieved then [.nat chunks] else []) ∧
    t.said "pipeline.hydrated" "chunk_count" = [.nat chunks] ∧
    t.said "pipeline.hydrated" "hydrated_count" = [.nat hydrated] ∧
    t.said "generation.request" "context_count" = [.nat hydrated]
  prompt : ∃ prompt, t.requests = [(prompt, p.maxOutputTokens)] ∧
    t.said "generation.request" "prompt_chars" = [.nat prompt.length]
  files : t.said "structural.started" "file_count" = [.nat job.items.length]
  result : ∀ d, t.outcome = .ok d →
    t.said "generation.completed" "output_chars" = [.nat d.text.length] ∧
    t.said "structural.parsed" "function_count" = [.nat d.metadata.functionsDocumented] ∧
    t.said "pipeline.completed" "function_count" = [.nat d.metadata.functionsDocumented] ∧
    t.said "structural.parsed" "class_count" = [.nat d.metadata.classesDocumented] ∧
    t.said "pipeline.completed" "class_count" = [.nat d.metadata.classesDocumented] ∧
    t.said "pipeline.completed" "module_count" = [.nat d.metadata.modulesDocumented] ∧
    t.said "pipeline.completed" "generation_time" = [.int d.metadata.milliseconds]

structure Follows {σ : Type} (p : Pipeline σ) (job : Job σ) (course : Course) (t : Trace) :
    Prop where
  unread : course = .unread ↔ ∃ fault, SourceItem.readAll job.items = .error fault
  empty : course = .empty ↔ job.items = []
  order : t.entries.map (·.event.name) = course.names
  origin : ∀ e ∈ t.entries, ∃ stage : StageName, stage.topic ++ ['.'] <+: e.event.name ∧
    Fields.get? e.fields "stage" = some (.text stage.label) ∧
    Fields.get? e.fields "request_id" = some (.text job.ctx.requestId) ∧
    Fields.get? e.fields "repository_id" = some (.text job.ctx.repositoryId)
  stages : ∀ stage, (t.stages.get stage).status = course.status stage
  returned : (∃ d, t.outcome = .ok d) ↔ course.returns = true
  tallied : ∀ retrieved written, course = .asked retrieved written → Tallied p job retrieved t

namespace Event

theorem extract_prefix_iff (e : Event) : ("extract." : Text) <+: e.name ↔ e.stage? = none := by
  have hname : ("extract." : Text).isPrefixOf e.name = e.stage?.isNone := by
    cases e <;> rfl
  rw [← List.isPrefixOf_iff_prefix, hname, Option.isNone_iff_eq_none]

theorem topic_prefix {e : Event} {stage : StageName} (h : e.stage? = some stage) :
    stage.topic ++ ['.'] <+: e.name := by
  rw [← List.isPrefixOf_iff_prefix]
  cases e <;> cases h <;> rfl

end Event

namespace Context

theorem origin_entry (ctx : Context) {e : Event} {stage : StageName} (h : e.stage? = some stage) :
    Fields.get? (ctx.entry e).fields "stage" = some (.text stage.label) ∧
    Fields.get? (ctx.entry e).fields "request_id" = some (.text ctx.requestId) ∧
    Fields.get? (ctx.entry e).fields "repository_id" = some (.text ctx.repositoryId) := by
  have hfields : (ctx.entry e).fields = (ctx.entry e).heading ++
      (([("stage", .text stage.label), ("request_id", .text ctx.requestId),
        ("repository_id", .text ctx.repositoryId)] : Fields) ++ e.fields) := by
    simp only [LogEntry.fields, LogEntry.origin, entry, h, List.append_assoc]
  rw [hfields]
  exact ⟨rfl, rfl, rfl⟩

end Context

namespace Trace

def Reports (t : Trace) (ctx : Context) (events : List Event) : Prop :=
  t.entries = events.map ctx.entry ∧ ∀ e ∈ events, e.stage?.isSome = true

theorem reports_of_log {t : Trace} {ctx : Context} {events : List Event}
    (h : t.log = events.map ctx.entry) :
    t.Reports ctx (events.filter fun e => e.stage?.isSome) := by
  refine ⟨?_, fun e he => (List.mem_filter.1 he).2⟩
  rw [entries, h, List.filter_map]
  refine congrArg _ (List.filter_congr fun e _ => ?_)
  have hname : (ctx.entry e).event.name = e.name := rfl
  simp only [Function.comp_apply, hname, e.extract_prefix_iff]
  cases e.stage? <;> rfl

theorem Reports.order {t : Trace} {ctx : Context} {events : List Event}
    (h : t.Reports ctx events) : t.entries.map (·.event.name) = events.map Event.name := by
  rw [h.1, List.map_map]
  rfl

theorem Reports.origin {t : Trace} {ctx : Context} {events : List Event}
    (h : t.Reports ctx events) : ∀ e ∈ t.entries, ∃ stage : StageName,
      stage.topic ++ ['.'] <+: e.event.name ∧
      Fields.get? e.fields "stage" = some (.text stage.label) ∧
      Fields.get? e.fields "request_id" = some (.text ctx.requestId) ∧
      Fields.get? e.fields "repository_id" = some (.text ctx.repositoryId) := by
  rw [h.1]
  intro entry hentry
  obtain ⟨e, he, rfl⟩ := List.mem_map.1 hentry
  obtain ⟨stage, hstage⟩ := Option.isSome_iff_exists.1 (h.2 e he)
  exact ⟨stage, Event.topic_prefix hstage, ctx.origin_entry hstage⟩

theorem Reports.said {t : Trace} {ctx : Context} {events : List Event}
    (h : t.Reports ctx events) (name field : Text) :
    t.said name field = events.filterMap fun e =>
      if e.name = name then Fields.get? (ctx.entry e).fields field else none := by
  rw [Trace.said, h.1, List.filterMap_map]
  rfl

end Trace

namespace Pipeline

variable {σ : Type}

open Session

def milestones (p : Pipeline σ) (ctx : Context) (files : List SourceFile) : List Event :=
  [.pipelineStarted ctx.scope ctx.target, .structuralStarted files.length,
    .structuralParsed (Codebase.ofFiles files).functionCount (Codebase.ofFiles files).classCount
      (Codebase.ofFiles files).dependencies.length,
    .graphBuilt (Analysis.ofFiles files).graph.nodes.length
      (Analysis.ofFiles files).graph.edges.length,
    .retrievalStarted ctx.scope ctx.target, Retrieval.report (p.found ctx files),
    .pipelineHydrated (Retrieval.salvage (p.found ctx files)).length (p.context ctx files).length,
    .generationRequested (p.prompt ctx files).length (p.context ctx files).length]

theorem filter_scanEvents (files : List SourceFile) :
    (files.filterMap Analysis.scanEvent?).filter (fun e => e.stage?.isSome) = [] := by
  rw [List.filter_eq_nil_iff]
  intro e he
  obtain ⟨f, _, hf⟩ := List.mem_filterMap.1 he
  unfold Analysis.scanEvent? at hf
  cases hissue : (Scan.ofFile f).issue with
  | none => rw [hissue] at hf; cases hf
  | some issue => cases issue <;> rw [hissue] at hf <;> cases hf <;> simp [Event.stage?]

theorem filter_events (p : Pipeline σ) (ctx : Context) (files : List SourceFile) :
    (p.events ctx files).filter (fun e => e.stage?.isSome) = p.milestones ctx files := by
  -- The scans stand between the first two events and the others.
  obtain ⟨begun, rest, hevents, hmilestones⟩ : ∃ begun rest,
      p.events ctx files = begun ++ files.filterMap Analysis.scanEvent? ++ rest ∧
      p.milestones ctx files = begun ++ rest :=
    ⟨[_, _], [_, _, _, _, _, _], by
      simp only [events, Analysis.events, List.cons_append, List.append_assoc]; rfl, rfl⟩
  rw [hevents, List.filter_append, List.filter_append, filter_scanEvents, List.append_nil,
    ← List.filter_append, ← hmilestones, List.filter_eq_self]
  intro e he
  simp only [milestones, List.mem_cons, List.not_mem_nil, or_false] at he
  obtain rfl | rfl | rfl | rfl | rfl | rfl | rfl | rfl := he
  case inr.inr.inr.inr.inr.inl => rw [Retrieval.stage_report]; rfl
  all_goals rfl

def closing (files : List SourceFile) (milliseconds : Int) : Except Fault (Text × Fields) → Event
  | .ok _ => .pipelineCompleted milliseconds (Codebase.ofFiles files).functionCount
      (Codebase.ofFiles files).classCount (Codebase.ofFiles files).modules.length
  | .error fault => .pipelineFailed fault.message

theorem filter_report (files : List SourceFile) (milliseconds : Int)
    (outcome : Except Fault (Text × Fields)) :
    [Reply.report outcome, closing files milliseconds outcome].filter (fun e => e.stage?.isSome) =
      [Reply.report outcome, closing files milliseconds outcome] := by
  cases outcome <;> rfl

theorem log_closed (p : Pipeline σ) (ctx : Context) (files : List SourceFile)
    (outcome : Except Fault (Text × Fields)) (after : σ) (s : Session σ) :
    (p.closed ctx files outcome after s).log = s.log ++
      (p.events ctx files ++ [Reply.report outcome, closing files (milliseconds s) outcome]).map
        ctx.entry := by
  cases outcome <;> simp [closed, withAnswer, closing, Context.entry]

theorem follows_unread (p : Pipeline σ) (job : Job σ) (s : Session (σ × List (Text × Int)))
    {fault : Fault} (h : SourceItem.readAll job.items = .error fault) :
    Follows p job .unread (p.trace job s) := by
  have hrun := exec_execute_unread { p with queries := job.queries }.recorded job.ctx h (facing job s)
  rw [← perform] at hrun
  have hlog : (p.trace job s).log =
      [.pipelineStarted job.ctx.scope job.ctx.target, .pipelineFailed fault.message].map
        job.ctx.entry := by
    simp [trace, hrun, facing, Context.entry]
  have hreports := Trace.reports_of_log hlog
  constructor
  case unread => exact iff_of_true rfl ⟨fault, h⟩
  case empty =>
    refine iff_of_false (by simp) fun hnil => ?_
    rw [hnil] at h
    cases h
  case order => rw [hreports.order]; rfl
  case origin => exact hreports.origin
  case stages =>
    intro stage
    cases stage <;> simp [trace, hrun, Course.status]
  case returned => simp [trace, hrun, Course.returns]
  case tallied => simp

theorem follows_empty (p : Pipeline σ) (job : Job σ) (s : Session (σ × List (Text × Int)))
    (h : job.items = []) : Follows p job .empty (p.trace job s) := by
  have hrun := exec_execute_nil { p with queries := job.queries }.recorded job.ctx (facing job s)
  rw [← h, ← perform] at hrun
  have hlog : (p.trace job s).log =
      [.pipelineStarted job.ctx.scope job.ctx.target, .structuralStarted 0,
        .structuralFailed Fault.noFiles.message, .pipelineFailed Fault.noFiles.message].map
        job.ctx.entry := by
    simp [trace, hrun, facing, Context.entry]
  have hreports := Trace.reports_of_log hlog
  constructor
  case unread =>
    refine iff_of_false (by simp) ?_
    rintro ⟨fault, hfault⟩
    rw [h] at hfault
    cases hfault
  case empty => exact iff_of_true rfl h
  case order => rw [hreports.order]; rfl
  case origin => exact hreports.origin
  case stages =>
    intro stage
    cases stage <;> simp [trace, hrun, Course.status]
  case returned => simp [trace, hrun, Course.returns]
  case tallied => simp

def report (p : Pipeline σ) (ctx : Context) (files : List SourceFile) (milliseconds : Int)
    (outcome : Except Fault (Text × Fields)) : List Event :=
  p.milestones ctx files ++ [Reply.report outcome, closing files milliseconds outcome]

structure Asked (p : Pipeline σ) (job : Job σ) (files : List SourceFile)
    (outcome : Except Fault (Text × Fields)) (milliseconds : Int) (t : Trace) : Prop where
  ended : t.outcome = outcome.map fun produced => ⟨produced.1, metadata files milliseconds⟩
  requests : t.requests = [(p.prompt job.ctx files, p.maxOutputTokens)]
  reports : t.Reports job.ctx (p.report job.ctx files milliseconds outcome)
  stages : ∀ stage, (t.stages.get stage).status =
    (Course.asked (p.found job.ctx files).isOk outcome.isOk).status stage

theorem asked_of_readAll (p : Pipeline σ) (job : Job σ) (s : Session (σ × List (Text × Int)))
    {files : List SourceFile} (h : SourceItem.readAll job.items = .ok files)
    (hne : job.items ≠ []) :
    ∃ outcome, Asked { p with queries := job.queries } job files outcome (milliseconds (facing job s))
      (p.trace job s) := by
  have hrun := exec_recorded { p with queries := job.queries } job.ctx h
    (SourceItem.ne_nil_of_readAll h hne) (facing job s)
  rw [← perform] at hrun
  generalize Reply.outcome _ = outcome at hrun
  refine ⟨outcome, ?_⟩
  constructor
  case ended => rw [trace, hrun]
  case requests =>
    simp only [trace, hrun, service_closed, asked]
    exact List.drop_left
  case reports =>
    have hlog : (p.trace job s).log =
        ({ p with queries := job.queries }.events job.ctx files ++ [Reply.report outcome,
          closing files (milliseconds (facing job s)) outcome]).map job.ctx.entry := by
      simp only [trace, hrun, log_closed]
      exact List.drop_left
    rw [report, ← filter_report, ← filter_events, ← List.filter_append]
    exact Trace.reports_of_log hlog
  case stages =>
    intro stage
    simp only [trace, hrun]
    cases stage with
    | structural => exact status_structural_closed ..
    | retrieval =>
      have hfound : { p with queries := job.queries }.found job.ctx files =
        ({ p with queries := job.queries }.selection job.ctx files).map
          (Retrieval.chunks (Codebase.ofFiles files)) := rfl
      have hselection : { p with queries := job.queries }.recorded.selection job.ctx files =
        { p with queries := job.queries }.selection job.ctx files := rfl
      refine (status_retrieval_closed ..).trans ?_
      rw [hfound, hselection]
      cases { p with queries := job.queries }.selection job.ctx files <;> rfl
    | generation =>
      cases outcome with
      | ok produced => exact (status_closed_ok ..).1
      | error fault => exact (status_closed_error ..).1
    | orchestrator =>
      cases outcome with
      | ok produced => exact (status_closed_ok ..).2
      | error fault => exact (status_closed_error ..).2

theorem Asked.tallied {p : Pipeline σ} {job : Job σ} {files : List SourceFile}
    {outcome : Except Fault (Text × Fields)} {milliseconds : Int} {t : Trace}
    (h : Asked p job files outcome milliseconds t) (hlength : files.length = job.items.length) :
    Tallied p job (p.found job.ctx files).isOk t := by
  obtain ⟨hended, hrequests, hreports, -⟩ := h
  have hsaid := hreports.said
  simp only [report, milestones] at hsaid
  -- With the kinds of the two outcomes given, every name in the list of events is.
  constructor
  case chunks =>
    have hle : (p.context job.ctx files).length ≤
        (Retrieval.salvage (p.found job.ctx files)).length := Retrieval.length_hydrate_le ..
    refine ⟨_, _, hle, ?_⟩
    simp only [hsaid]
    cases p.found job.ctx files with
    | error fault => cases outcome <;> exact ⟨fun _ => rfl, rfl, rfl, rfl, rfl⟩
    | ok chunks => cases outcome <;> exact ⟨(fun h => by cases h), rfl, rfl, rfl, rfl⟩
  case prompt =>
    refine ⟨_, hrequests, ?_⟩
    rw [hsaid]
    cases p.found job.ctx files <;> cases outcome <;> rfl
  case files =>
    rw [hsaid, ← hlength]
    cases p.found job.ctx files <;> cases outcome <;> rfl
  case result =>
    intro d hd
    cases outcome with
    | error fault => rw [hended] at hd; cases hd
    | ok produced =>
      rw [hended] at hd
      cases hd
      simp only [hsaid]
      cases p.found job.ctx files <;> exact ⟨rfl, rfl, rfl, rfl, rfl, rfl, rfl⟩

theorem follows_asked (p : Pipeline σ) (job : Job σ) (s : Session (σ × List (Text × Int)))
    {files : List SourceFile} (h : SourceItem.readAll job.items = .ok files)
    (hne : job.items ≠ []) : ∃ retrieved written,
      Follows p job (.asked retrieved written) (p.trace job s) := by
  obtain ⟨outcome, hasked⟩ := p.asked_of_readAll job s h hne
  refine ⟨({ p with queries := job.queries }.found job.ctx files).isOk, outcome.isOk, ?_⟩
  constructor
  case unread => simp [h]
  case empty => simp [hne]
  case order =>
    rw [hasked.reports.order, report, milestones]
    cases { p with queries := job.queries }.found job.ctx files <;> cases outcome <;> rfl
  case origin => exact hasked.reports.origin
  case stages => exact hasked.stages
  case returned =>
    rw [hasked.ended]
    cases outcome <;> simp [Course.returns, Except.map, Except.isOk, Except.toBool]
  case tallied =>
    rintro _ _ ⟨⟩
    obtain ⟨chunks, prompt, files, result⟩ := hasked.tallied (SourceItem.length_of_readAll h)
    exact ⟨chunks, prompt, files, result⟩

/-- Every run follows one course, and its log tells which. -/
theorem existsUnique_follows (p : Pipeline σ) (job : Job σ)
    (s : Session (σ × List (Text × Int))) : ∃! course, Follows p job course (p.trace job s) := by
  have hexists : ∃ course, Follows p job course (p.trace job s) := by
    cases h : SourceItem.readAll job.items with
    | error fault => exact ⟨_, p.follows_unread job s h⟩
    | ok files =>
      by_cases hne : job.items = []
      · exact ⟨_, p.follows_empty job s hne⟩
      · obtain ⟨retrieved, written, hfollows⟩ := p.follows_asked job s h hne
        exact ⟨_, hfollows⟩
  obtain ⟨course, hcourse⟩ := hexists
  refine ⟨course, hcourse, fun other hother => ?_⟩
  exact Course.names_injective (hother.order.symm.trans hcourse.order)

end Pipeline

end CodeAtlas
