import CodeAtlas.Pipeline.Context

set_option autoImplicit false

namespace CodeAtlas

inductive StageName where
  | structural | retrieval | generation | orchestrator
  deriving DecidableEq, Repr

def StageName.label : StageName → Text
  | .structural => "structural"
  | .retrieval => "retrieval"
  | .generation => "generation"
  | .orchestrator => "orchestrator"

inductive Level where
  | debug | info | warning | error
  deriving DecidableEq, Repr

def Level.label : Level → Text
  | .debug => "DEBUG"
  | .info => "INFO"
  | .warning => "WARNING"
  | .error => "ERROR"

inductive Event where
  | pipelineStarted (scope : Scope) (target : Option Text)
  | pipelineHydrated (chunks hydrated : Nat)
  | pipelineCompleted (milliseconds : Int) (functions classes modules : Nat)
  | pipelineFailed (reason : Text)
  | structuralStarted (files : Nat)
  | structuralParsed (functions classes dependencies : Nat)
  | graphBuilt (nodes edges : Nat)
  | structuralFailed (reason : Text)
  | retrievalStarted (scope : Scope) (target : Option Text)
  | retrievalCompleted (chunks : Nat)
  | retrievalDegraded (reason : Text)
  | generationRequested (promptSize chunks : Nat)
  | generationCompleted (size : Nat) (usage : Fields)
  | generationFailed (reason : Text)
  | languageUnsupported (language path : Text)
  | scanFailed (path : Text)

namespace Event

def name : Event → Text
  | .pipelineStarted .. => "pipeline.started"
  | .pipelineHydrated .. => "pipeline.hydrated"
  | .pipelineCompleted .. => "pipeline.completed"
  | .pipelineFailed _ => "pipeline.failed"
  | .structuralStarted _ => "structural.started"
  | .structuralParsed .. => "structural.parsed"
  | .graphBuilt .. => "structural.graph_built"
  | .structuralFailed _ => "structural.failed"
  | .retrievalStarted .. => "retrieval.started"
  | .retrievalCompleted _ => "retrieval.completed"
  | .retrievalDegraded _ => "retrieval.degraded"
  | .generationRequested .. => "generation.request"
  | .generationCompleted .. => "generation.completed"
  | .generationFailed _ => "generation.failed"
  | .languageUnsupported .. => "extract.unsupported_language"
  | .scanFailed _ => "extract.failed"

/-- The stage that reports an event; scans of single files belong to no stage. -/
def stage? : Event → Option StageName
  | .pipelineStarted .. | .pipelineHydrated .. | .pipelineCompleted .. | .pipelineFailed _ =>
    some .orchestrator
  | .structuralStarted _ | .structuralParsed .. | .graphBuilt .. | .structuralFailed _ =>
    some .structural
  | .retrievalStarted .. | .retrievalCompleted _ | .retrievalDegraded _ => some .retrieval
  | .generationRequested .. | .generationCompleted .. | .generationFailed _ => some .generation
  | .languageUnsupported .. | .scanFailed _ => none

def level : Event → Level
  | .pipelineHydrated .. | .graphBuilt .. | .languageUnsupported .. => .debug
  | .pipelineFailed _ | .structuralFailed _ | .generationFailed _ => .error
  | .retrievalDegraded _ | .scanFailed _ => .warning
  | _ => .info

def showTarget (target : Option Text) : Text :=
  let t := target.getD []
  if t.isEmpty then "N/A" else t

def message : Event → Text
  | .pipelineStarted scope _ =>
    Text.concat ["Starting documentation generation for ", scope.label, " scope"]
  | .pipelineHydrated chunks hydrated =>
    Text.concat ["Hydrated ", Text.ofNat hydrated, " of ", Text.ofNat chunks, " context chunks"]
  | .pipelineCompleted ms _ _ _ =>
    Text.concat ["Documentation generation complete in ", Text.ofInt ms, "ms"]
  | .pipelineFailed reason => Text.concat ["Documentation generation failed: ", reason]
  | .structuralStarted files =>
    Text.concat ["Starting analysis of ", Text.ofNat files, " files"]
  | .structuralParsed functions classes dependencies =>
    Text.concat ["Parsed ", Text.ofNat functions, " functions, ", Text.ofNat classes, " classes, ",
      Text.ofNat dependencies, " dependencies"]
  | .graphBuilt nodes edges =>
    Text.concat ["Graph built: ", Text.ofNat nodes, " nodes, ", Text.ofNat edges, " edges"]
  | .structuralFailed reason => Text.concat ["Structural analysis failed: ", reason]
  | .retrievalStarted scope target =>
    Text.concat ["Finding relevant context for scope: ", scope.label, ", target: ",
      showTarget target]
  | .retrievalCompleted chunks =>
    Text.concat ["Returning ", Text.ofNat chunks, " context chunks"]
  | .retrievalDegraded reason =>
    Text.concat ["Retrieval degraded to empty context: ", reason]
  | .generationRequested size chunks =>
    Text.concat ["Requesting documentation (", Text.ofNat size, " prompt characters, ",
      Text.ofNat chunks, " context files)"]
  | .generationCompleted size _ =>
    Text.concat ["Documentation generated (", Text.ofNat size, " characters)"]
  | .generationFailed reason => Text.concat ["Documentation generation failed: ", reason]
  | .languageUnsupported language path =>
    Text.concat ["No pattern set for language '", language, "'; ", path,
      " yields an empty record"]
  | .scanFailed path => Text.concat ["Failed to scan ", path]

def fields : Event → Fields
  | .pipelineStarted scope target => [("scope", .text scope.label), ("target", .ofOption target)]
  | .pipelineHydrated chunks hydrated =>
    [("chunk_count", .nat chunks), ("hydrated_count", .nat hydrated)]
  | .pipelineCompleted ms functions classes modules =>
    [("generation_time", .int ms), ("function_count", .nat functions),
     ("class_count", .nat classes), ("module_count", .nat modules)]
  | .structuralStarted files => [("file_count", .nat files)]
  | .structuralParsed functions classes dependencies =>
    [("function_count", .nat functions), ("class_count", .nat classes),
     ("dependency_count", .nat dependencies)]
  | .graphBuilt nodes edges => [("node_count", .nat nodes), ("edge_count", .nat edges)]
  | .retrievalCompleted chunks => [("chunk_count", .nat chunks)]
  | .generationRequested size chunks =>
    [("prompt_chars", .nat size), ("context_count", .nat chunks)]
  | .generationCompleted size usage => [("output_chars", .nat size), ("usage", .record usage)]
  | .languageUnsupported _ path | .scanFailed path => [("path", .text path)]
  | .pipelineFailed _ | .structuralFailed _ | .retrievalStarted .. | .retrievalDegraded _
  | .generationFailed _ => []

end Event

structure LogEntry where
  event : Event
  requestId : Text
  repositoryId : Text

namespace LogEntry

def heading (e : LogEntry) : Fields :=
  [("event", .text e.event.name), ("level", .text e.event.level.label),
   ("message", .text e.event.message)]

def origin (e : LogEntry) : Fields :=
  match e.event.stage? with
  | some stage =>
    [("stage", .text stage.label), ("request_id", .text e.requestId),
     ("repository_id", .text e.repositoryId)]
  | none => []

def fields (e : LogEntry) : Fields := e.heading ++ e.origin ++ e.event.fields

end LogEntry

end CodeAtlas
