import CodeAtlas.Proofs.Graph.Ids
import CodeAtlas.Proofs.Pipeline.Runs

set_option autoImplicit false

namespace CodeAtlas

namespace Reply

theorem firstText?_eq_none {r : Reply} (h : ∀ b ∈ r.content, b.kind ≠ "text") :
    r.firstText? = none := by
  simp only [firstText?, Option.map_eq_none_iff, List.find?_eq_none, decide_eq_true_eq]
  exact h

theorem firstText?_eq_some {r : Reply} {front rest : List Block} {b : Block}
    (hr : r.content = front ++ b :: rest) (hfront : ∀ x ∈ front, x.kind ≠ "text")
    (hb : b.kind = "text") : r.firstText? = some b.text := by
  have hf : front.find? (fun x => decide (x.kind = ("text" : Text))) = none := by
    simpa only [List.find?_eq_none, decide_eq_true_eq] using hfront
  simp only [firstText?, hr, List.find?_append, hf, Option.none_or]
  rw [List.find?_cons_of_pos (by simpa using hb)]
  rfl

end Reply

namespace Client

variable {σ : Type}

/-- What a client says about its use is a record whenever it replies. -/
def Accounts (client : Client σ) : Prop :=
  ∀ prompt limit s reply, (client.generate prompt limit s).1 = .ok reply →
    ∃ fields, reply.usage = .record fields

def recorded (client : Client σ) : Client (σ × List (Text × Int)) where
  generate prompt limit s :=
    ((client.generate prompt limit s.1).1,
      ((client.generate prompt limit s.1).2, s.2 ++ [(prompt, limit)]))

end Client

/-- When the use is accounted for, only the service can be at fault. -/
theorem Reply.kind_of_outcome {reply : Except Fault Reply} {fault : Fault}
    (hu : ∀ r, reply = .ok r → ∃ fields, r.usage = .record fields)
    (h : outcome reply = .error fault) : fault.kind = .service := by
  cases reply with
  | error other => cases h; exact Fault.kind_asService other
  | ok r =>
    obtain ⟨fields, hfields⟩ := hu r rfl
    simp only [outcome, hfields, Data.toFields_record] at h
    cases ht : r.firstText? with
    | none => rw [ht] at h; cases h; rfl
    | some text => rw [ht] at h; cases h

def Session.status {σ : Type} (s : Session σ) (name : StageName) : Status :=
  (s.stages.get name).status

@[simp] theorem StageState.status_finished (id : Text) : (finished id).status = .completed := rfl

@[simp] theorem StageState.status_broken (id task message : Text) :
    (broken id task message).status = .error := rfl

namespace Pipeline

variable {σ : Type}

def recorded (p : Pipeline σ) : Pipeline (σ × List (Text × Int)) :=
  { p with client := p.client.recorded }

def selection (p : Pipeline σ) (ctx : Context) (files : List SourceFile) :
    Except Fault (List Text) :=
  Retrieval.select p.queries p.relatedDepth.toNat ctx.scope ctx.target (Codebase.ofFiles files)
    (Graph.ofCodebase (Codebase.ofFiles files))

def answer (p : Pipeline σ) (ctx : Context) (files : List SourceFile)
    (s : Session (σ × List (Text × Int))) : Except Fault Reply :=
  (p.client.generate (p.prompt ctx files) p.maxOutputTokens s.service.1).1

def asked (p : Pipeline σ) (ctx : Context) (files : List SourceFile)
    (s : Session (σ × List (Text × Int))) : σ × List (Text × Int) :=
  ((p.client.generate (p.prompt ctx files) p.maxOutputTokens s.service.1).2,
    s.service.2 ++ [(p.prompt ctx files, p.maxOutputTokens)])

theorem exec_recorded (p : Pipeline σ) (ctx : Context) {items : List SourceItem}
    {files : List SourceFile} (h : SourceItem.readAll items = .ok files) (hne : files ≠ [])
    (s : Session (σ × List (Text × Int))) :
    (p.recorded.execute ctx items).exec s =
      ((Reply.outcome (p.answer ctx files s)).map
          fun produced => ⟨produced.1, metadata files (milliseconds s)⟩,
        p.recorded.closed ctx files (Reply.outcome (p.answer ctx files s))
          (p.asked ctx files s) s) :=
  p.recorded.exec_execute ctx h hne s rfl

structure Answered (p : Pipeline σ) (ctx : Context) (files : List SourceFile)
    (s t : Session (σ × List (Text × Int))) (outcome : Except Fault Documentation) : Prop where
  calls : t.service.2 = s.service.2 ++ [(p.prompt ctx files, p.maxOutputTokens)]
  structural : t.status .structural = .completed
  retrieved : t.status .retrieval = .completed ↔ ∃ paths, p.selection ctx files = .ok paths
  degraded : t.status .retrieval = .error ↔ ∃ fault, p.selection ctx files = .error fault
  refused : ∀ fault, p.answer ctx files s = .error fault →
    outcome = .error (if fault.kind = .service then fault
      else .service (.generationFailed fault.message)) ∧
    t.status .generation = .error ∧ t.status .orchestrator = .error
  silent : ∀ reply, p.answer ctx files s = .ok reply →
    (∀ b ∈ reply.content, b.kind ≠ ("text" : Text)) →
    outcome = .error (.service .noText) ∧
    t.status .generation = .error ∧ t.status .orchestrator = .error
  written : ∀ reply front b rest, p.answer ctx files s = .ok reply →
    reply.content = front ++ b :: rest → (∀ x ∈ front, x.kind ≠ ("text" : Text)) →
    b.kind = ("text" : Text) →
    (∃ metadata, outcome = .ok ⟨b.text, metadata⟩) ∧
    t.status .generation = .completed ∧ t.status .orchestrator = .completed

structure Settled (p : Pipeline σ) (ctx : Context) (items : List SourceItem)
    (s t : Session (σ × List (Text × Int))) (outcome : Except Fault Documentation) : Prop where
  lawful : ∀ fault, outcome = .error fault → fault.kind ≠ .transition
  unread : ∀ fault, SourceItem.readAll items = .error fault →
    outcome = .error fault ∧ t.service = s.service ∧ t.status .structural = .idle ∧
    t.status .retrieval = .idle ∧ t.status .generation = .idle ∧ t.status .orchestrator = .error
  empty : items = [] →
    outcome = .error .noFiles ∧ t.service = s.service ∧ t.status .structural = .error ∧
    t.status .retrieval = .idle ∧ t.status .generation = .idle ∧ t.status .orchestrator = .error
  answered : ∀ files, SourceItem.readAll items = .ok files → items ≠ [] →
    p.Answered ctx files s t outcome

theorem status_retrieval_closed (p : Pipeline σ) (ctx : Context) (files : List SourceFile)
    (outcome : Except Fault (Text × Fields)) (after : σ) (s : Session σ) :
    (p.closed ctx files outcome after s).status .retrieval =
      match p.selection ctx files with
      | .ok _ => .completed
      | .error _ => .error := by
  have hfound : p.found ctx files =
    (p.selection ctx files).map (Retrieval.chunks (Codebase.ofFiles files)) := rfl
  cases hsel : p.selection ctx files with
  | ok paths =>
    rw [hsel] at hfound
    cases outcome <;>
      simp [closed, withAnswer, Session.status, StageState.ended, hfound, Except.map]
  | error fault =>
    rw [hsel] at hfound
    cases outcome <;>
      simp [closed, withAnswer, Session.status, StageState.ended, hfound, Except.map]

theorem status_closed_ok (p : Pipeline σ) (ctx : Context) (files : List SourceFile)
    (produced : Text × Fields) (after : σ) (s : Session σ) :
    (p.closed ctx files (.ok produced) after s).status .generation = .completed ∧
    (p.closed ctx files (.ok produced) after s).status .orchestrator = .completed := by
  simp [closed, withAnswer, Session.status, StageState.ended]

theorem status_closed_error (p : Pipeline σ) (ctx : Context) (files : List SourceFile)
    (fault : Fault) (after : σ) (s : Session σ) :
    (p.closed ctx files (.error fault) after s).status .generation = .error ∧
    (p.closed ctx files (.error fault) after s).status .orchestrator = .error := by
  simp [closed, withAnswer, Session.status, StageState.ended]

theorem status_structural_closed (p : Pipeline σ) (ctx : Context) (files : List SourceFile)
    (outcome : Except Fault (Text × Fields)) (after : σ) (s : Session σ) :
    (p.closed ctx files outcome after s).status .structural = .completed := by
  cases outcome <;> simp [closed, withAnswer, Session.status]

theorem service_closed (p : Pipeline σ) (ctx : Context) (files : List SourceFile)
    (outcome : Except Fault (Text × Fields)) (after : σ) (s : Session σ) :
    (p.closed ctx files outcome after s).service = after := by
  cases outcome <;> simp [closed, withAnswer]

theorem answered_of_readAll (p : Pipeline σ) (hu : p.client.Accounts) (ctx : Context)
    {items : List SourceItem} {files : List SourceFile}
    (h : SourceItem.readAll items = .ok files) (hne : items ≠ [])
    (s : Session (σ × List (Text × Int))) :
    p.Answered ctx files s ((p.recorded.execute ctx items).exec s).2
      ((p.recorded.execute ctx items).exec s).1 := by
  have hrun := p.exec_recorded ctx h (SourceItem.ne_nil_of_readAll h hne) s
  have hselection : p.recorded.selection ctx files = p.selection ctx files := rfl
  have hretrieval := status_retrieval_closed p.recorded ctx files
    (Reply.outcome (p.answer ctx files s))
  rw [hselection] at hretrieval
  rw [hrun]
  constructor
  case calls => rw [service_closed]; rfl
  case structural => exact status_structural_closed ..
  case retrieved =>
    rw [hretrieval]
    cases p.selection ctx files with
    | ok paths => simp
    | error fault => simp
  case degraded =>
    rw [hretrieval]
    cases p.selection ctx files with
    | ok paths => simp
    | error fault => simp
  case refused =>
    intro fault hanswer
    have hout : Reply.outcome (p.answer ctx files s) = .error fault.asService := by
      rw [hanswer]; rfl
    rw [hout]
    refine ⟨?_, status_closed_error ..⟩
    simp only [Except.map, Fault.asService]
    by_cases hk : fault.kind = .service
    · simp [hk]
    · simp [hk]
  case silent =>
    intro reply hanswer hblocks
    have hout : Reply.outcome (p.answer ctx files s) = .error (.service .noText) := by
      simp only [hanswer, Reply.outcome, Reply.firstText?_eq_none hblocks]
    rw [hout]
    exact ⟨rfl, status_closed_error ..⟩
  case written =>
    intro reply front b rest hanswer hcontent hfront hb
    obtain ⟨usage, husage⟩ := hu _ _ _ _ hanswer
    have hout : Reply.outcome (p.answer ctx files s) = .ok (b.text, usage) := by
      simp only [hanswer, Reply.outcome, Reply.firstText?_eq_some hcontent hfront hb, husage,
        Data.toFields_record]
      rfl
    rw [hout]
    exact ⟨⟨_, rfl⟩, status_closed_ok ..⟩

theorem execute_settled (p : Pipeline σ) (hu : p.client.Accounts) (ctx : Context)
    (items : List SourceItem) (s : Session (σ × List (Text × Int))) :
    p.Settled ctx items s ((p.recorded.execute ctx items).exec s).2
      ((p.recorded.execute ctx items).exec s).1 := by
  constructor
  case lawful =>
    -- A fault is one of an item, of the empty list or of the service.
    intro fault hfault
    cases h : SourceItem.readAll items with
    | error other =>
      rw [exec_execute_unread p.recorded ctx h s] at hfault
      cases hfault
      rcases SourceItem.kind_of_readAll h with hk | hk <;> simp [hk]
    | ok files =>
      by_cases hne : items = []
      · subst hne
        rw [exec_execute_nil p.recorded ctx s] at hfault
        cases hfault
        simp [Fault.kind]
      · have hrun := p.exec_recorded ctx h (SourceItem.ne_nil_of_readAll h hne) s
        rw [hrun] at hfault
        cases hout : Reply.outcome (p.answer ctx files s) with
        | ok produced => rw [hout] at hfault; cases hfault
        | error other =>
          rw [hout] at hfault
          cases hfault
          have hkind := Reply.kind_of_outcome (fun r hr => hu _ _ _ _ hr) hout
          simp [hkind]
  case unread =>
    intro fault h
    rw [exec_execute_unread p.recorded ctx h s]
    simp [Session.status]
  case empty =>
    intro hnil
    subst hnil
    rw [exec_execute_nil p.recorded ctx s]
    simp [Session.status]
  case answered =>
    intro files h hne
    exact p.answered_of_readAll hu ctx h hne s

def sample : Pipeline Unit where
  client := { generate := fun _ _ s =>
    (.ok ⟨[⟨"thinking", "Three files."⟩, ⟨"text", "# Pets"⟩], "model", .record []⟩, s) }
  maxOutputTokens := 4096
  relatedDepth := 2

theorem execute_settled_sample :
    sample.client.Accounts ∧
    ∃ t metadata, (sample.recorded.execute { requestId := "1", repositoryId := "2", userId := "3" }
        (Codebase.sampleFiles.map .file)).exec { service := ((), []) } =
          (.ok ⟨"# Pets", metadata⟩, t) ∧
      t.service.2.length = 1 ∧ t.status .structural = .completed ∧
      t.status .generation = .completed ∧ t.status .orchestrator = .completed := by
  have hu : sample.client.Accounts := by
    intro prompt limit s reply h
    cases h
    exact ⟨[], rfl⟩
  have hsettled := execute_settled sample hu
    { requestId := "1", repositoryId := "2", userId := "3" } (Codebase.sampleFiles.map .file)
    { service := ((), []) }
  have hanswered := hsettled.answered _ (SourceItem.readAll_file _) (by simp [Codebase.sampleFiles])
  obtain ⟨⟨metadata, hout⟩, hgeneration, horchestrator⟩ :=
    hanswered.written _ [⟨"thinking", "Three files."⟩] _ [] rfl rfl (by decide) rfl
  refine ⟨hu, _, metadata, Prod.ext hout rfl, ?_, hanswered.structural, hgeneration, horchestrator⟩
  rw [hanswered.calls]
  rfl

end Pipeline

end CodeAtlas
