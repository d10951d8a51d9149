import CodeAtlas.Pipeline.Prompt
import CodeAtlas.Pipeline.Session

set_option autoImplicit false

namespace CodeAtlas

structure GenerationInput where
  codebase : Option Codebase
  chunks : List Chunk := []
  insights : Option Insights := none

def Fault.asService (fault : Fault) : Fault :=
  match fault.kind with
  | .service => fault
  | _ => .service (.generationFailed fault.message)

theorem Fault.kind_asService (fault : Fault) : fault.asService.kind = .service := by
  unfold asService
  split
  · assumption
  · rfl

namespace Run

variable {σ : Type}

def compose (client : Client σ) (limit : Int) (ctx : Context)
    (input : Option GenerationInput) : Run σ Text := do
  match input with
  | none => throw .noStructure
  | some ⟨none, _, _⟩ => throw .noStructure
  | some ⟨some c, chunks, insights⟩ =>
    let prompt := Prompt.write c chunks ctx.scope ctx.target insights
    note ctx (.generationRequested prompt.length chunks.length)
    let reply ← tryCatch (ask client prompt limit) fun fault => throw fault.asService
    match reply.firstText? with
    | none => throw (.service .noText)
    | some text =>
      let usage ← orFault reply.usage.toFields
      note ctx (.generationCompleted text.length usage)
      perform .generation .complete
      return text

def generation (client : Client σ) (limit : Int) (ctx : Context)
    (input : Option GenerationInput) : Run σ Text := do
  perform .generation .reset
  perform .generation (.start (some "Generating documentation"))
  tryCatch (compose client limit ctx input) fun fault => do
    perform .generation (.fail fault.message)
    note ctx (.generationFailed fault.message)
    throw fault

end Run

end CodeAtlas
