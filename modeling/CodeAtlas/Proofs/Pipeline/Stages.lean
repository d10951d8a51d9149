import CodeAtlas.Proofs.Pipeline.Exec

set_option autoImplicit false

namespace CodeAtlas

namespace Analysis

def events (files : List SourceFile) : List Event :=
  .structuralStarted files.length :: files.filterMap scanEvent? ++
    [.structuralParsed (ofFiles files).codebase.functionCount (ofFiles files).codebase.classCount
        (ofFiles files).codebase.dependencies.length,
      .graphBuilt (ofFiles files).graph.nodes.length (ofFiles files).graph.edges.length]

end Analysis

namespace Retrieval

def outcome (queries : GraphQueries) (hops : Nat) (scope : Scope) (target : Option Text)
    (c : Codebase) (g : Graph) : Except Fault (List Chunk) :=
  (select queries hops scope target c g).map (chunks c)

def salvage : Except Fault (List Chunk) → List Chunk
  | .ok found => found
  | .error _ => []

def report : Except Fault (List Chunk) → Event
  | .ok found => .retrievalCompleted found.length
  | .error fault => .retrievalDegraded fault.message

end Retrieval

def Reply.outcome : Except Fault Reply → Except Fault (Text × Fields)
  | .error fault => .error fault.asService
  | .ok reply =>
    match reply.firstText? with
    | none => .error (.service .noText)
    | some text => reply.usage.toFields.map (text, ·)

def Reply.report : Except Fault (Text × Fields) → Event
  | .ok (text, usage) => .generationCompleted text.length usage
  | .error fault => .generationFailed fault.message

def StageState.ended {α : Type} (id task : Text) : Except Fault α → StageState
  | .ok _ => finished id
  | .error fault => broken id task fault.message

namespace Run

variable {σ α : Type}

theorem exec_begin (stage : StageName) (task : Text) (k : Unit → Run σ α) (s : Session σ) :
    (perform stage .reset >>= fun _ => perform stage (.start (some task)) >>= k).exec s =
      (k ()).exec (s.withStage stage (.working (s.stageId stage) task)) := by
  have hreset : (perform stage .reset).exec s =
      (.ok (), s.withStage stage { id := s.stageId stage }) :=
    exec_perform (StageState.perform_reset _)
  have hstart : ((s.withStage stage { id := s.stageId stage }).stages.get stage).perform
      (.start (some task)) = .ok (.working (s.stageId stage) task) := by
    rw [Session.get_withStage]
    exact StageState.perform_start ..
  rw [exec_bind_ok hreset, exec_bind_ok (exec_perform hstart), Session.withStage_withStage]

theorem exec_complete {s : Session σ} {stage : StageName} {id task : Text}
    (h : s.stages.get stage = .working id task) :
    (perform stage .complete).exec s = (.ok (), s.withStage stage (.finished id)) := by
  apply exec_perform
  rw [h]
  exact StageState.perform_complete ..

theorem exec_fail {s : Session σ} {stage : StageName} {id task : Text}
    (h : s.stages.get stage = .working id task) (message : Text) :
    (perform stage (.fail message)).exec s =
      (.ok (), s.withStage stage (.broken id task message)) := by
  apply exec_perform
  rw [h]
  exact StageState.perform_fail ..

theorem exec_updateTask {s : Session σ} {stage : StageName} {id task : Text}
    (h : s.stages.get stage = .working id task) (next : Text) :
    (perform stage (.updateTask next)).exec s =
      (.ok (), s.withStage stage (.working id next)) := by
  apply exec_perform
  rw [h]
  exact StageState.perform_updateTask ..

/-- The files were read before, so reading them again gives them back. -/
theorem exec_analyse (ctx : Context) {files : List SourceFile} (h : files ≠ []) {s : Session σ}
    {id task : Text} (hs : s.stages.get .structural = .working id task) :
    (analyse ctx (files.map .file)).exec (s.noted ctx [.structuralStarted files.length]) =
      (.ok (Analysis.ofFiles files),
        (s.noted ctx (Analysis.events files)).withStage .structural (.finished id)) := by
  have hne : (files.map SourceItem.file).isEmpty = false := by simpa using h
  unfold analyse
  rw [hne, SourceItem.readAll_file]
  simp only [Bool.false_eq_true, if_false]
  rw [exec_bind_ok (exec_orFault ..), exec_bind_ok (exec_noteAll ..),
    exec_bind_ok (exec_note ..), exec_bind_ok (exec_updateTask (by simpa using hs) _),
    exec_bind_ok (exec_note ..), exec_bind_ok (exec_complete (by simp; rfl)), exec_pure]
  simp [Analysis.events, Analysis.ofFiles, Analysis.ofCodebase]

theorem exec_structural (ctx : Context) {files : List SourceFile} (h : files ≠ [])
    (s : Session σ) :
    (structural ctx (files.map .file)).exec s =
      (.ok (Analysis.ofFiles files),
        (s.noted ctx (Analysis.events files)).withStage .structural
          (.finished (s.stageId .structural))) := by
  have hwork := exec_analyse ctx h
    (s.get_withStage .structural (.working (s.stageId .structural) "Analyzing code structure"))
  unfold structural
  rw [exec_begin, exec_bind_ok (exec_note ..), List.length_map, exec_tryCatch_ok hwork]
  simp

theorem exec_structural_nil (ctx : Context) (s : Session σ) :
    (structural ctx []).exec s =
      (.error .noFiles,
        (s.noted ctx [.structuralStarted 0, .structuralFailed Fault.noFiles.message]).withStage
          .structural (.broken (s.stageId .structural) "Analyzing code structure"
            Fault.noFiles.message)) := by
  have hwork : ∀ t : Session σ, (analyse ctx []).exec t = (.error .noFiles, t) := fun t => rfl
  unfold structural
  rw [exec_begin, exec_bind_ok (exec_note ..), exec_tryCatch_error (hwork _),
    exec_bind_ok (exec_fail (by simp; rfl) _), exec_bind_ok (exec_note ..), exec_throw]
  simp

theorem exec_choose_ok {queries : GraphQueries} {hops : Nat} {ctx : Context}
    {target : Option Text} {c : Codebase} {g : Graph} {found : List Chunk}
    (h : Retrieval.outcome queries hops ctx.scope target c g = .ok found) {s : Session σ}
    {id task : Text} (hs : s.stages.get .retrieval = .working id task) :
    (choose queries hops ctx target (some (c, g))).exec s =
      (.ok found,
        (s.noted ctx [.retrievalCompleted found.length]).withStage .retrieval (.finished id)) := by
  unfold Retrieval.outcome at h
  unfold choose
  cases hsel : Retrieval.select queries hops ctx.scope target c g with
  | error fault => rw [hsel] at h; cases h
  | ok paths =>
    rw [hsel] at h
    cases h
    simp only [hsel]
    rw [exec_bind_ok (exec_orFault ..), exec_bind_ok (exec_note ..),
      exec_bind_ok (exec_complete (by simpa using hs)), exec_pure]

theorem exec_choose_error {queries : GraphQueries} {hops : Nat} {ctx : Context}
    {target : Option Text} {c : Codebase} {g : Graph} {fault : Fault}
    (h : Retrieval.outcome queries hops ctx.scope target c g = .error fault) (s : Session σ) :
    (choose queries hops ctx target (some (c, g))).exec s = (.error fault, s) := by
  unfold Retrieval.outcome at h
  unfold choose
  cases hsel : Retrieval.select queries hops ctx.scope target c g with
  | ok paths => rw [hsel] at h; cases h
  | error other =>
    rw [hsel] at h
    cases h
    simp only [hsel]
    exact exec_bind_error (exec_orFault ..)

theorem exec_retrieval (queries : GraphQueries) (hops : Nat) (ctx : Context)
    (target : Option Text) (c : Codebase) (g : Graph) (s : Session σ) :
    (retrieval queries hops ctx target (some (c, g))).exec s =
      (.ok (Retrieval.salvage (Retrieval.outcome queries hops ctx.scope target c g)),
        (s.noted ctx [.retrievalStarted ctx.scope target,
          Retrieval.report (Retrieval.outcome queries hops ctx.scope target c g)]).withStage
            .retrieval (.ended (s.stageId .retrieval) "Finding relevant context"
              (Retrieval.outcome queries hops ctx.scope target c g))) := by
  unfold retrieval
  rw [exec_begin, exec_bind_ok (exec_note ..)]
  cases h : Retrieval.outcome queries hops ctx.scope target c g with
  | ok found =>
    rw [exec_tryCatch_ok (exec_choose_ok h (by simp; rfl))]
    simp [Retrieval.salvage, Retrieval.report, StageState.ended]
  | error fault =>
    rw [exec_tryCatch_error (exec_choose_error h _),
      exec_bind_ok (exec_fail (by simp; rfl) _), exec_bind_ok (exec_note ..), exec_pure]
    simp [Retrieval.salvage, Retrieval.report, StageState.ended]

theorem exec_request_ok {client : Client σ} {prompt : Text} {limit : Int} {s : Session σ}
    {r : Reply} {after : σ} (h : client.generate prompt limit s.service = (.ok r, after)) :
    (tryCatch (ask client prompt limit) fun fault => throw fault.asService).exec s =
      (.ok r, s.served after) := by
  have hask := exec_ask client prompt limit s
  rw [h] at hask
  exact exec_tryCatch_ok hask

theorem exec_request_error {client : Client σ} {prompt : Text} {limit : Int} {s : Session σ}
    {fault : Fault} {after : σ}
    (h : client.generate prompt limit s.service = (.error fault, after)) :
    (tryCatch (ask client prompt limit) fun fault => throw fault.asService).exec s =
      (.error fault.asService, s.served after) := by
  have hask := exec_ask client prompt limit s
  rw [h] at hask
  rw [exec_tryCatch_error hask]
  exact exec_throw ..

theorem exec_compose_ok {client : Client σ} {limit : Int} {ctx : Context} {c : Codebase}
    {chunks : List Chunk} {insights : Option Insights} {prompt : Text}
    (hprompt : prompt = Prompt.write c chunks ctx.scope ctx.target insights) {s : Session σ}
    {id task : Text} (hs : s.stages.get .generation = .working id task)
    {reply : Except Fault Reply} {after : σ}
    (hreply : client.generate prompt limit s.service = (reply, after)) {text : Text}
    {usage : Fields} (h : Reply.outcome reply = .ok (text, usage)) :
    (compose client limit ctx (some ⟨some c, chunks, insights⟩)).exec s =
      (.ok text, ((s.noted ctx [.generationRequested prompt.length chunks.length,
        .generationCompleted text.length usage]).served after).withStage .generation
          (.finished id)) := by
  cases reply with
  | error fault => cases h
  | ok r =>
    have hask := @exec_request_ok _ client prompt limit
      (s.noted ctx [.generationRequested prompt.length chunks.length]) r after hreply
    simp only [Reply.outcome] at h
    cases ht : r.firstText? with
    | none => rw [ht] at h; cases h
    | some found =>
      rw [ht] at h
      cases hu : r.usage.toFields with
      | error fault => simp only [hu] at h; cases h
      | ok fields =>
        simp only [hu] at h
        cases h
        unfold compose
        simp only [← hprompt]
        rw [exec_bind_ok (exec_note ..), exec_bind_ok hask, ht]
        simp only [hu]
        rw [exec_bind_ok (exec_orFault ..), exec_bind_ok (exec_note ..),
          exec_bind_ok (exec_complete (by simpa using hs)), exec_pure]
        simp

theorem exec_compose_error {client : Client σ} {limit : Int} {ctx : Context} {c : Codebase}
    {chunks : List Chunk} {insights : Option Insights} {prompt : Text}
    (hprompt : prompt = Prompt.write c chunks ctx.scope ctx.target insights) {s : Session σ}
    {reply : Except Fault Reply} {after : σ}
    (hreply : client.generate prompt limit s.service = (reply, after)) {fault : Fault}
    (h : Reply.outcome reply = .error fault) :
    (compose client limit ctx (some ⟨some c, chunks, insights⟩)).exec s =
      (.error fault, (s.noted ctx [.generationRequested prompt.length chunks.length]).served
        after) := by
  unfold compose
  simp only [← hprompt]
  rw [exec_bind_ok (exec_note ..)]
  cases reply with
  | error other =>
    cases h
    exact exec_bind_error (exec_request_error hreply)
  | ok r =>
    have hask := @exec_request_ok _ client prompt limit
      (s.noted ctx [.generationRequested prompt.length chunks.length]) r after hreply
    simp only [Reply.outcome] at h
    rw [exec_bind_ok hask]
    cases ht : r.firstText? with
    | none => rw [ht] at h; cases h; exact exec_throw ..
    | some found =>
      rw [ht] at h
      cases hu : r.usage.toFields with
      | ok fields => simp only [hu] at h; cases h
      | error other =>
        simp only [hu] at h
        cases h
        exact exec_bind_error (exec_orFault ..)

theorem exec_generation (client : Client σ) (limit : Int) (ctx : Context) (c : Codebase)
    (chunks : List Chunk) (insights : Option Insights) (s : Session σ) {prompt : Text}
    (hprompt : prompt = Prompt.write c chunks ctx.scope ctx.target insights)
    {reply : Except Fault Reply} {after : σ}
    (hreply : client.generate prompt limit s.service = (reply, after)) :
    (generation client limit ctx (some ⟨some c, chunks, insights⟩)).exec s =
      ((Reply.outcome reply).map (·.1),
        ((s.noted ctx [.generationRequested prompt.length chunks.length,
          Reply.report (Reply.outcome reply)]).served after).withStage .generation
            (.ended (s.stageId .generation) "Generating documentation"
              (Reply.outcome reply))) := by
  have hstarted : client.generate prompt limit
      (s.withStage .generation
        (.working (s.stageId .generation) "Generating documentation")).service =
        (reply, after) := hreply
  unfold generation
  rw [exec_begin]
  cases h : Reply.outcome reply with
  | ok found =>
    obtain ⟨text, usage⟩ := found
    rw [exec_tryCatch_ok (exec_compose_ok hprompt (by simp; rfl) hstarted h)]
    simp [Reply.report, StageState.ended, Except.map]
  | error fault =>
    rw [exec_tryCatch_error (exec_compose_error hprompt hstarted h),
      exec_bind_ok (exec_fail (by simp; rfl) _), exec_bind_ok (exec_note ..), exec_throw]
    simp [Reply.report, StageState.ended, Except.map]

end Run

end CodeAtlas
