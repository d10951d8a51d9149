import CodeAtlas.Proofs.Pipeline.Stages

set_option autoImplicit false

namespace CodeAtlas

namespace Session

variable {σ : Type}

def begun (s : Session σ) (ctx : Context) : Session σ :=
  (s.ticked.cleared.noted ctx [.pipelineStarted ctx.scope ctx.target]).withStage .orchestrator
    (.working (s.stageId .orchestrator) "Orchestrating documentation generation")

end Session

namespace Pipeline

variable {σ : Type}

def found (p : Pipeline σ) (ctx : Context) (files : List SourceFile) : Except Fault (List Chunk) :=
  Retrieval.outcome p.queries p.relatedDepth.toNat ctx.scope ctx.target
    (Analysis.ofFiles files).codebase (Analysis.ofFiles files).graph

def context (p : Pipeline σ) (ctx : Context) (files : List SourceFile) : List Chunk :=
  Retrieval.hydrate (Retrieval.salvage (p.found ctx files)) files

def prompt (p : Pipeline σ) (ctx : Context) (files : List SourceFile) : Text :=
  Prompt.write (Analysis.ofFiles files).codebase (p.context ctx files) ctx.scope ctx.target
    (some (Analysis.ofFiles files).insights)

def events (p : Pipeline σ) (ctx : Context) (files : List SourceFile) : List Event :=
  .pipelineStarted ctx.scope ctx.target :: Analysis.events files ++
    [.retrievalStarted ctx.scope ctx.target, Retrieval.report (p.found ctx files),
      .pipelineHydrated (Retrieval.salvage (p.found ctx files)).length
        (p.context ctx files).length,
      .generationRequested (p.prompt ctx files).length (p.context ctx files).length]

def withAnswer (p : Pipeline σ) (ctx : Context) (files : List SourceFile)
    (outcome : Except Fault (Text × Fields)) (after : σ) (s : Session σ) : Session σ :=
  ((((s.ticked.cleared.noted ctx (p.events ctx files ++ [Reply.report outcome])).served
    after).withStage .structural (.finished (s.stageId .structural))).withStage .retrieval
      (.ended (s.stageId .retrieval) "Finding relevant context" (p.found ctx files))).withStage
        .generation (.ended (s.stageId .generation) "Generating documentation" outcome)

def milliseconds (s : Session σ) : Int :=
  millisecondsBetween (s.clock.headD 0.0) (s.clock.tail.headD 0.0)

def metadata (files : List SourceFile) (milliseconds : Int) : Metadata where
  filesAnalyzed := (Codebase.ofFiles files).paths
  functionsDocumented := (Codebase.ofFiles files).functionCount
  classesDocumented := (Codebase.ofFiles files).classCount
  modulesDocumented := (Codebase.ofFiles files).modules.length
  milliseconds

def closed (p : Pipeline σ) (ctx : Context) (files : List SourceFile)
    (outcome : Except Fault (Text × Fields)) (after : σ) (s : Session σ) : Session σ :=
  match outcome with
  | .ok _ =>
    ((p.withAnswer ctx files outcome after s).ticked.noted ctx
      [.pipelineCompleted (milliseconds s) (Codebase.ofFiles files).functionCount
        (Codebase.ofFiles files).classCount (Codebase.ofFiles files).modules.length]).withStage
          .orchestrator (.finished (s.stageId .orchestrator))
  | .error fault =>
    ((p.withAnswer ctx files outcome after s).noted ctx [.pipelineFailed fault.message]).withStage
      .orchestrator (.broken (s.stageId .orchestrator) "Generating documentation" fault.message)

theorem exec_steps_unread (p : Pipeline σ) (ctx : Context) {items : List SourceItem}
    {fault : Fault} (h : SourceItem.readAll items = .error fault) (started : Float)
    (s : Session σ) : (p.steps ctx items started).exec s = (.error fault, s) := by
  unfold steps
  rw [h]
  exact Run.exec_bind_error (Run.exec_orFault ..)

theorem exec_steps_nil (p : Pipeline σ) (ctx : Context) (started : Float) (s : Session σ) :
    (p.steps ctx [] started).exec (s.begun ctx) =
      (.error .noFiles, ((s.ticked.cleared.noted ctx [.pipelineStarted ctx.scope ctx.target,
        .structuralStarted 0, .structuralFailed Fault.noFiles.message]).withStage .structural
          (.broken (s.stageId .structural) "Analyzing code structure"
            Fault.noFiles.message)).withStage .orchestrator
              (.working (s.stageId .orchestrator) "Analyzing code structure")) := by
  have hread : SourceItem.readAll [] = .ok [] := rfl
  unfold steps Session.begun
  rw [hread, Run.exec_bind_ok (Run.exec_orFault ..),
    Run.exec_bind_ok (Run.exec_updateTask (by simp; rfl) _), List.map_nil,
    Run.exec_bind_error (Run.exec_structural_nil ..)]
  simp

theorem exec_steps (p : Pipeline σ) (ctx : Context) {items : List SourceItem}
    {files : List SourceFile} (h : SourceItem.readAll items = .ok files) (hne : files ≠ [])
    (s : Session σ) {reply : Except Fault Reply} {after : σ}
    (hreply : p.client.generate (p.prompt ctx files) p.maxOutputTokens s.service = (reply, after)) :
    (p.steps ctx items (s.clock.headD 0.0)).exec (s.begun ctx) =
      match Reply.outcome reply with
      | .ok (text, usage) =>
        (.ok ⟨text, metadata files (milliseconds s)⟩, p.closed ctx files (.ok (text, usage)) after s)
      | .error fault =>
        (.error fault, (p.withAnswer ctx files (.error fault) after s).withStage .orchestrator
          (.working (s.stageId .orchestrator) "Generating documentation")) := by
  have hfound : Retrieval.outcome p.queries p.relatedDepth.toNat ctx.scope ctx.target
      (Analysis.ofFiles files).codebase (Analysis.ofFiles files).graph = p.found ctx files := rfl
  have hcontext : Retrieval.hydrate (Retrieval.salvage (p.found ctx files)) files =
      p.context ctx files := rfl
  have hgen := fun (t : Session σ) (ht : t.service = s.service) =>
    @Run.exec_generation _ p.client p.maxOutputTokens ctx (Analysis.ofFiles files).codebase
      (p.context ctx files) (some (Analysis.ofFiles files).insights) t (p.prompt ctx files) rfl
      reply after (ht ▸ hreply)
  -- Nothing fails before the service is asked: the files are read, and retrieval keeps its faults.
  unfold steps Session.begun
  rw [h, Run.exec_bind_ok (Run.exec_orFault ..),
    Run.exec_bind_ok (Run.exec_updateTask (by simp; rfl) _),
    Run.exec_bind_ok (Run.exec_structural ctx hne _),
    Run.exec_bind_ok (Run.exec_updateTask (by simp; rfl) _),
    Run.exec_bind_ok (Run.exec_retrieval ..), hfound, hcontext, Run.exec_bind_ok (Run.exec_note ..),
    Run.exec_bind_ok (Run.exec_updateTask (by simp; rfl) _), Run.exec_bind, hgen _ (by simp)]
  cases hout : Reply.outcome reply with
  | ok produced =>
    obtain ⟨text, usage⟩ := produced
    simp only [Except.map]
    rw [Run.exec_bind_ok (Run.exec_readClock _), Run.exec_bind_ok (Run.exec_complete (by simp; rfl)),
      Run.exec_bind_ok (Run.exec_note ..), Run.exec_pure]
    simp [closed, withAnswer, events, metadata, milliseconds, Analysis.ofFiles, Analysis.ofCodebase]
  | error fault =>
    simp [Except.map, withAnswer, events]

theorem exec_execute_eq (p : Pipeline σ) (ctx : Context) (items : List SourceItem)
    (s : Session σ) :
    (p.execute ctx items).exec s =
      (tryCatch (p.steps ctx items (s.clock.headD 0.0)) fun fault => do
        Run.note ctx (.pipelineFailed fault.message)
        Run.perform .orchestrator (.fail fault.message)
        throw fault).exec (s.begun ctx) := by
  have hidle : s.ticked.cleared.stages.get .orchestrator = { id := s.stageId .orchestrator } := by
    simp
  have hstart : (s.ticked.cleared.stages.get .orchestrator).perform
      (.start (some "Orchestrating documentation generation")) =
        .ok (.working (s.stageId .orchestrator) "Orchestrating documentation generation") := by
    rw [hidle]
    exact StageState.perform_start ..
  unfold execute
  rw [Run.exec_bind_ok (Run.exec_readClock s), Run.exec_bind_ok (Run.exec_resetAll _),
    Run.exec_bind_ok (Run.exec_perform hstart), Run.exec_bind_ok (Run.exec_note ..)]
  rfl

theorem exec_execute_error {p : Pipeline σ} {ctx : Context} {items : List SourceItem}
    {s t : Session σ} {fault : Fault} {id task : Text}
    (h : (p.steps ctx items (s.clock.headD 0.0)).exec (s.begun ctx) =
      (.error fault, t.withStage .orchestrator (.working id task))) :
    (p.execute ctx items).exec s = (.error fault,
      (t.noted ctx [.pipelineFailed fault.message]).withStage .orchestrator
        (.broken id task fault.message)) := by
  rw [exec_execute_eq, Run.exec_tryCatch_error h, Run.exec_bind_ok (Run.exec_note ..),
    Run.exec_bind_ok (Run.exec_fail (by simp; rfl) _), Run.exec_throw]
  simp

theorem exec_execute_unread (p : Pipeline σ) (ctx : Context) {items : List SourceItem}
    {fault : Fault} (h : SourceItem.readAll items = .error fault) (s : Session σ) :
    (p.execute ctx items).exec s = (.error fault,
      (s.ticked.cleared.noted ctx [.pipelineStarted ctx.scope ctx.target,
        .pipelineFailed fault.message]).withStage .orchestrator
          (.broken (s.stageId .orchestrator) "Orchestrating documentation generation"
            fault.message)) := by
  have hsteps := p.exec_steps_unread ctx h (s.clock.headD 0.0) (s.begun ctx)
  rw [exec_execute_error hsteps]
  simp

theorem exec_execute_nil (p : Pipeline σ) (ctx : Context) (s : Session σ) :
    (p.execute ctx []).exec s = (.error .noFiles,
      ((s.ticked.cleared.noted ctx [.pipelineStarted ctx.scope ctx.target, .structuralStarted 0,
        .structuralFailed Fault.noFiles.message, .pipelineFailed Fault.noFiles.message]).withStage
          .structural (.broken (s.stageId .structural) "Analyzing code structure"
            Fault.noFiles.message)).withStage .orchestrator
              (.broken (s.stageId .orchestrator) "Analyzing code structure"
                Fault.noFiles.message)) := by
  rw [exec_execute_error (p.exec_steps_nil ctx (s.clock.headD 0.0) s)]
  simp

theorem exec_execute (p : Pipeline σ) (ctx : Context) {items : List SourceItem}
    {files : List SourceFile} (h : SourceItem.readAll items = .ok files) (hne : files ≠ [])
    (s : Session σ) {reply : Except Fault Reply} {after : σ}
    (hreply : p.client.generate (p.prompt ctx files) p.maxOutputTokens s.service = (reply, after)) :
    (p.execute ctx items).exec s =
      ((Reply.outcome reply).map fun produced => ⟨produced.1, metadata files (milliseconds s)⟩,
        p.closed ctx files (Reply.outcome reply) after s) := by
  have hsteps := p.exec_steps ctx h hne s hreply
  cases hout : Reply.outcome reply with
  | ok produced =>
    obtain ⟨text, usage⟩ := produced
    rw [hout] at hsteps
    rw [exec_execute_eq, Run.exec_tryCatch_ok hsteps]
    rfl
  | error fault =>
    rw [hout] at hsteps
    rw [exec_execute_error hsteps]
    rfl

end Pipeline

end CodeAtlas
