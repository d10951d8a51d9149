import CodeAtlas.Proofs.Pipeline.Outcome
import CodeAtlas.Proofs.Pipeline.Sections

set_option autoImplicit false

namespace CodeAtlas

def Metadata.untimed (m : Metadata) : Metadata := { m with milliseconds := 0 }

def Documentation.untimed (d : Documentation) : Documentation :=
  { d with metadata := d.metadata.untimed }

namespace Prompt

def around (scope : Scope) (target : Option Text) (shape excerpts : Text) : Text :=
  Text.concat [preamble, heading scope target, shape, excerpts, requirements]

end Prompt

namespace Pipeline

variable {σ : Type}

theorem prompt_eq_around (p : Pipeline σ) (ctx : Context) (files : List SourceFile) :
    p.prompt ctx files = Prompt.around ctx.scope ctx.target (Prompt.structureSection files)
      (Prompt.display (p.context ctx files)) := p.prompt_eq ctx files

theorem context_eq_nil {p : Pipeline σ} {ctx : Context} {files : List SourceFile} {fault : Fault}
    (h : p.selection ctx files = .error fault) : p.context ctx files = [] := by
  have hfound : p.found ctx files = .error fault := by
    change (p.selection ctx files).map _ = _
    rw [h]
    rfl
  rw [context, hfound]
  rfl

/-- A run asks once, with a given section about the structure. When retrieval fails there are no
excerpts. -/
structure Asks (p : Pipeline σ) (ctx : Context) (shape : Text)
    (s t : Session (σ × List (Text × Int))) (excerpts : Text) : Prop where
  request : t.service.2 = s.service.2 ++
    [(Prompt.around ctx.scope ctx.target shape excerpts, p.maxOutputTokens)]
  degraded : t.status .retrieval = .error → excerpts = []

theorem asks_of_readAll (p : Pipeline σ) (ctx : Context) {items : List SourceItem}
    {files : List SourceFile} (h : SourceItem.readAll items = .ok files) (hne : files ≠ [])
    (s : Session (σ × List (Text × Int))) :
    p.Asks ctx (Prompt.structureSection files) s ((p.recorded.execute ctx items).exec s).2
      (Prompt.display (p.context ctx files)) := by
  rw [p.exec_recorded ctx h hne s]
  constructor
  case request => rw [service_closed, ← prompt_eq_around]; rfl
  case degraded =>
    rw [status_retrieval_closed]
    intro hstatus
    have hselection : p.recorded.selection ctx files = p.selection ctx files := rfl
    rw [hselection] at hstatus
    cases hsel : p.selection ctx files with
    | ok paths => rw [hsel] at hstatus; cases hstatus
    | error fault => rw [context_eq_nil hsel]; rfl

/-- Up to the time it took, what a run gives follows from the files and the reply alone. -/
theorem untimed_exec (p : Pipeline σ) (ctx : Context) {items : List SourceItem}
    {files : List SourceFile} (h : SourceItem.readAll items = .ok files) (hne : files ≠ [])
    (s : Session (σ × List (Text × Int))) :
    ((p.recorded.execute ctx items).exec s).1.map Documentation.untimed =
      (Reply.outcome (p.answer ctx files s)).map fun produced =>
        ⟨produced.1, metadata files 0⟩ := by
  rw [p.exec_recorded ctx h hne s]
  cases Reply.outcome (p.answer ctx files s) with
  | ok produced => rfl
  | error fault => rfl

/-- Runs over the same files that get the same reply differ in the heading and in the excerpts of
their prompts and in the time they take. -/
theorem execute_isolates (p q : Pipeline σ) (ctx other : Context) {items : List SourceItem}
    {files : List SourceFile} (h : SourceItem.readAll items = .ok files) (hne : items ≠ [])
    (s t : Session (σ × List (Text × Int)))
    (hreply : p.answer ctx files s = q.answer other files t) :
    ((p.recorded.execute ctx items).exec s).1.map Documentation.untimed =
        ((q.recorded.execute other items).exec t).1.map Documentation.untimed ∧
      (∃ excerpts, p.Asks ctx (Prompt.structureSection files) s
        ((p.recorded.execute ctx items).exec s).2 excerpts) ∧
      ∃ excerpts, q.Asks other (Prompt.structureSection files) t
        ((q.recorded.execute other items).exec t).2 excerpts := by
  have hfiles := SourceItem.ne_nil_of_readAll h hne
  refine ⟨?_, ⟨_, p.asks_of_readAll ctx h hfiles s⟩, _, q.asks_of_readAll other h hfiles t⟩
  rw [p.untimed_exec ctx h hfiles s, q.untimed_exec other h hfiles t, hreply]

/-- The sample with another depth and an index that is offline. -/
def offline : Pipeline Unit :=
  { sample with
    relatedDepth := 5
    queries := { related := fun _ _ _ => .error (.stated .runtime "offline")
                 module := fun _ _ => .error (.stated .runtime "offline") } }

theorem execute_isolates_sample :
    ∃ metadata excerpts,
      ((offline.recorded.execute
          { requestId := "1", repositoryId := "2", userId := "3", scope := .file
            target := some "a.py" }
          (Codebase.sampleFiles.map .file)).exec { service := ((), []) }).1.map
            Documentation.untimed = .ok ⟨"# Pets", metadata⟩ ∧
      ((offline.recorded.execute
          { requestId := "1", repositoryId := "2", userId := "3", scope := .file
            target := some "a.py" }
          (Codebase.sampleFiles.map .file)).exec { service := ((), []) }).2.service.2 =
        [(Prompt.around .file (some "a.py") (Prompt.structureSection Codebase.sampleFiles) [],
          4096)] ∧
      ((sample.recorded.execute { requestId := "1", repositoryId := "2", userId := "3" }
          (Codebase.sampleFiles.map .file)).exec { service := ((), []) }).2.service.2 =
        [(Prompt.around .repository none (Prompt.structureSection Codebase.sampleFiles) excerpts,
          4096)] := by
  have hread := SourceItem.readAll_file Codebase.sampleFiles
  have hne : Codebase.sampleFiles ≠ [] := List.cons_ne_nil _ _
  obtain ⟨hout, ⟨_, hoffline⟩, excerpts, hsample⟩ := execute_isolates offline sample
    { requestId := "1", repositoryId := "2", userId := "3", scope := .file, target := some "a.py" }
    { requestId := "1", repositoryId := "2", userId := "3" } hread (by simp [Codebase.sampleFiles])
    { service := ((), []) } { service := ((), []) } rfl
  refine ⟨metadata Codebase.sampleFiles 0, excerpts, ?_, ?_, hsample.request⟩
  · rw [hout, untimed_exec _ _ hread hne]
    rfl
  · have hstatus := hoffline.degraded
    rw [exec_recorded _ _ hread hne, status_retrieval_closed] at hstatus
    rw [hoffline.request, hstatus rfl]
    rfl

end Pipeline

end CodeAtlas
