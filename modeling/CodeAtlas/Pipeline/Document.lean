import CodeAtlas.Pipeline.Generation
import CodeAtlas.Pipeline.Retrieval

/-!
A whole run: structural analysis, retrieval of context, generation. All stages are reset first. A
fault of the structural or of the generation stage ends the run.
-/

set_option autoImplicit false

namespace CodeAtlas

structure Pipeline (σ : Type) where
  client : Client σ
  maxOutputTokens : Int
  relatedDepth : Int
  queries : GraphQueries := Graph.queries

structure Metadata where
  filesAnalyzed : List Text
  functionsDocumented : Nat
  classesDocumented : Nat
  modulesDocumented : Nat
  milliseconds : Int
  deriving DecidableEq, Repr

structure Documentation where
  text : Text
  metadata : Metadata
  deriving DecidableEq, Repr

def millisecondsBetween (started ended : Float) : Int :=
  (Numeral.truncate? ((ended - started) * 1000.0)).getD 0

namespace Pipeline

variable {σ : Type}

def steps (p : Pipeline σ) (ctx : Context) (items : List SourceItem) (started : Float) :
    Run σ Documentation := do
  let files ← Run.orFault (SourceItem.readAll items)
  Run.perform .orchestrator (.updateTask "Analyzing code structure")
  let analysis ← Run.structural ctx (files.map .file)
  Run.perform .orchestrator (.updateTask "Finding relevant code context")
  let chunks ← Run.retrieval p.queries p.relatedDepth.toNat ctx ctx.target
    (some (analysis.codebase, analysis.graph))
  let hydrated := Retrieval.hydrate chunks files
  Run.note ctx (.pipelineHydrated chunks.length hydrated.length)
  Run.perform .orchestrator (.updateTask "Generating documentation")
  let text ← Run.generation p.client p.maxOutputTokens ctx
    (some ⟨some analysis.codebase, hydrated, some analysis.insights⟩)
  let c := analysis.codebase
  let ended ← Run.readClock
  let ms := millisecondsBetween started ended
  Run.perform .orchestrator .complete
  Run.note ctx (.pipelineCompleted ms c.functionCount c.classCount c.modules.length)
  return ⟨text, ⟨c.paths, c.functionCount, c.classCount, c.modules.length, ms⟩⟩

def execute (p : Pipeline σ) (ctx : Context) (items : List SourceItem) : Run σ Documentation := do
  let started ← Run.readClock
  Run.resetAll
  Run.perform .orchestrator (.start (some "Orchestrating documentation generation"))
  Run.note ctx (.pipelineStarted ctx.scope ctx.target)
  tryCatch (p.steps ctx items started) fun fault => do
    Run.note ctx (.pipelineFailed fault.message)
    Run.perform .orchestrator (.fail fault.message)
    throw fault

def document (p : Pipeline σ) (context : Fields) (items : List SourceItem) :
    Run σ Documentation := do
  let ctx ← Run.orFault (Context.ofFields context)
  Run.isolated (p.execute ctx items)

end Pipeline

end CodeAtlas
