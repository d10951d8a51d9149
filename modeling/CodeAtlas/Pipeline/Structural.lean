import CodeAtlas.Graph.Insights
import CodeAtlas.Pipeline.Session
import CodeAtlas.Source.Intake

set_option autoImplicit false

namespace CodeAtlas

structure Analysis where
  codebase : Codebase
  graph : Graph
  insights : Insights

namespace Analysis

def ofCodebase (c : Codebase) : Analysis :=
  let graph := Graph.ofCodebase c
  ⟨c, graph, Insights.of c graph⟩

def ofFiles (files : List SourceFile) : Analysis := ofCodebase (Codebase.ofFiles files)

def scanEvent? (f : SourceFile) : Option Event :=
  match (Scan.ofFile f).issue with
  | some .unsupportedLanguage => some (.languageUnsupported f.language f.path)
  | some .unreadable => some (.scanFailed f.path)
  | none => none

end Analysis

namespace Run

variable {σ : Type}

def analyse (ctx : Context) (items : List SourceItem) : Run σ Analysis := do
  if items.isEmpty then throw .noFiles
  let files ← orFault (SourceItem.readAll items)
  noteAll ctx (files.filterMap Analysis.scanEvent?)
  let c := Codebase.ofFiles files
  note ctx (.structuralParsed c.functionCount c.classCount c.dependencies.length)
  perform .structural (.updateTask "Building dependency graph")
  let graph := Graph.ofCodebase c
  note ctx (.graphBuilt graph.nodes.length graph.edges.length)
  let insights := Insights.of c graph
  perform .structural .complete
  return ⟨c, graph, insights⟩

def structural (ctx : Context) (items : List SourceItem) : Run σ Analysis := do
  perform .structural .reset
  perform .structural (.start (some "Analyzing code structure"))
  note ctx (.structuralStarted items.length)
  tryCatch (analyse ctx items) fun fault => do
    perform .structural (.fail fault.message)
    note ctx (.structuralFailed fault.message)
    throw fault

end Run

end CodeAtlas
