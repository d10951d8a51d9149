import CodeAtlas.Codebase.Report
import CodeAtlas.CommandLine.Command
import CodeAtlas.CommandLine.Shell
import CodeAtlas.Json.Writer
import CodeAtlas.Pipeline.Document
import CodeAtlas.Project.Sources
import CodeAtlas.Service.Connection

set_option autoImplicit false

namespace CodeAtlas.CommandLine

def versionLine : Text := "DocGraph CLI v0.1.0"

def helpLine : Text :=
  Text.concat ["Commands: ", Text.joinWith ", " (Command.options.map (·.1))]

structure Workspace where
  path : Text
  place : List Text
  sources : List SourceFile

namespace Workspace

def name (p : Workspace) : Text := p.place.getLastD []

def context (p : Workspace) (scope : Scope) (target : Option Text) : Context where
  requestId := "command-line"
  repositoryId := p.name
  userId := "local"
  scope
  target

end Workspace

def directoryOf (path : Text) : Shell (List Text) := do
  let w ← getThe World
  match w.tree.locate w.directory path with
  | .ok place => if w.tree.isDirectory place then return place else throw (.misuse none)
  | .error _ => throw (.misuse none)

def openProject (path : Text) (place : List Text) : Shell Workspace := do
  let w ← getThe World
  let sources := Project.sources Project.standardLimit w.tree place
  if sources.isEmpty then
    throw (.misuse (some
      (Text.concat ["No supported source files found under '", Path.tidy path, "'."])))
  return { path, place, sources }

/-- Analyses a project. The settings must be in order, even though only generation needs them. -/
def analysisOf (path : Text) (place : List Text) : Shell (Workspace × Analysis) := do
  let project ← openProject path place
  let _ ← Shell.access (SettingsStore.settings {})
  let stage : Run Unit Analysis :=
    Run.structural (project.context .repository none) (project.sources.map .file)
  let analysis ← Shell.orFault (stage.exec { service := () }).1
  return (project, analysis)

/-- Faults that end a generation with a message; all others end the program. -/
def isReported (f : Fault) : Bool :=
  match f.kind with
  | .input | .service | .retrieval | .transition => true
  | _ => false

def summary (m : Metadata) : Text :=
  Text.joinWith " | " [
    Text.concat ["Files: ", Text.ofNat m.filesAnalyzed.length],
    Text.concat ["Functions: ", Text.ofNat m.functionsDocumented],
    Text.concat ["Classes: ", Text.ofNat m.classesDocumented],
    Text.concat ["Modules: ", Text.ofNat m.modulesDocumented],
    Text.concat ["Time: ", Text.ofInt m.milliseconds, "ms"]]

def generate (path : Text) (place : List Text) (c : Commission) : Shell Unit := do
  let settings ← Shell.access (SettingsStore.settings
    { provider := .ofOption c.provider, model := .ofOption c.model, apiKey := .ofOption c.apiKey
      maxOutputTokens := (c.maxTokens.map Data.int).getD .null })
  let project ← openProject path place
  let w ← getThe World
  let pipeline : Pipeline Transport :=
    { client := (Connection.ofSettings settings).client
      maxOutputTokens := settings.maxOutputTokens, relatedDepth := settings.relatedDepth }
  let job := pipeline.execute (project.context c.scope c.target) (project.sources.map .file)
  let (outcome, session) := job.exec { service := w.transport }
  set { w with transport := session.service }
  match outcome with
  | .error f =>
    if isReported f then
      Shell.message (Text.concat ["[red]✗ ", f.message, "[/red]"])
      throw (.exit 1)
    else throw (.fault f)
  | .ok documentation =>
    match c.output with
    | some output =>
      Shell.writeFile output documentation.text
      Shell.message (Text.concat ["[green]✓[/green] Wrote documentation to ", Path.tidy output])
    | none => Shell.echo documentation.text
    Shell.message (summary documentation.metadata)

def listed (names : List Text) : Text :=
  let t := Text.joinWith ", " names
  if t.isEmpty then ['-'] else t

def structureTable (name : Text) (c : Codebase) : Exhibit :=
  .table (Text.concat ["Structure of ", name])
    ["File", "Language", "Functions", "Classes", "Imports"]
    (c.files.map fun f => [f.path, f.language, Text.ofNat f.functions.length,
      Text.ofNat f.classes.length, Text.ofNat f.imports.length])

def insightsPanel (i : Insights) : Exhibit :=
  .panel "Insights" (Text.joinWith ['\n'] [
    Text.concat ["[bold]Modules:[/bold] ", listed i.modules],
    Text.concat ["[bold]Most imported:[/bold] ", listed i.criticalPaths],
    Text.concat ["[bold]Exported components:[/bold] ", Text.ofNat i.keyComponents.length]])

def analyze (path : Text) (place : List Text) (asJson : Bool) : Shell Unit := do
  let (project, a) ← analysisOf path place
  if asJson then
    Shell.echo (Json.write .report (.record
      [("structure", .record a.codebase.fields), ("insights", a.insights.toData)]))
  else
    Shell.exhibit (structureTable project.name a.codebase)
    Shell.exhibit (insightsPanel a.insights)
    Shell.echo (Text.joinWith " | " [
      Text.concat ["Files: ", Text.ofNat a.codebase.files.length],
      Text.concat ["Nodes: ", Text.ofNat a.graph.nodes.length],
      Text.concat ["Edges: ", Text.ofNat a.graph.edges.length]])

def analysisWith (path : Text) (place : List Text) (file : Text) : Shell Analysis := do
  let (_, a) ← analysisOf path place
  if a.graph.isFile file then return a
  else throw (.misuse (some (Text.concat ["File '", file, "' is not part of the project."])))

def related (path : Text) (place : List Text) (file : Text) (hops : Nat) : Shell Unit := do
  let a ← analysisWith path place file
  let files := a.graph.related file hops
  if files.isEmpty then Shell.echo (Text.concat ["No files related to '", file, "'."])
  else files.forM Shell.echo

def module (path : Text) (place : List Text) (entry : Text) : Shell Unit := do
  let a ← analysisWith path place entry
  (a.graph.preorder entry).forM Shell.echo

def requireWritten (written : Bool) : Shell Unit := do
  unless written do
    Shell.message "[red]✗ Could not write configuration.[/red]"
    throw (.exit 1)

def setService (provider : Text) (model apiKey endpoint : Option Text) : Shell Unit := do
  let name := Text.lower provider
  match Provider.ofName? name with
  | none => throw (.misuse (some (Text.concat ["Unknown provider '", name, "'."])))
  | some p =>
    let model := (Data.ofOption model).orElse (.text p.model)
    let written ← Shell.access (SettingsStore.change
      (.save (.text name) model (.ofOption apiKey) (.ofOption endpoint)))
    requireWritten written
    Shell.echo (Text.concat ["LLM set to ", name, " (", model.display, ")."])

def unsetService (confirmed : Bool) : Shell Unit := do
  let file ← Shell.access SettingsStore.load
  if !Fields.has file Sections.service then
    Shell.echo "No LLM configuration found. Nothing to unset."
  else
    let service ← Shell.access SettingsStore.service
    let shown (name : Text) : Text := (Settings.fieldOf service name).display
    let question :=
      Text.concat ["Remove ", shown "provider", " (", shown "model", ") settings?"]
    let agreed ← if confirmed then pure true else Shell.confirm question
    if agreed then
      requireWritten (← Shell.access (SettingsStore.change .clear))
      Shell.echo (Text.concat ["LLM configuration removed; using ", Provider.standard.name,
        " defaults."])
    else Shell.echo "Cancelled."

def masked (key : Data) : Except Fault Text :=
  if key.isPresent then
    match key with
    | .text t => .ok (t.take 4 ++ ['…'])
    | .list items => .ok ((Data.list (items.take 4)).display ++ ['…'])
    | v => .error (.notSliceable v)
  else .ok "(not set)"

def showService : Shell Unit := do
  let s ← Shell.access (SettingsStore.settings {})
  let key ← Shell.orFault (masked s.apiKey)
  Shell.echo (Text.concat ["Provider: ", s.provider])
  Shell.echo (Text.concat ["Model: ", s.model.display])
  Shell.echo (Text.concat ["Endpoint: ", s.endpoint.display])
  Shell.echo (Text.concat ["API key: ", key])
  Shell.echo (Text.concat ["Max output tokens: ", Text.ofInt s.maxOutputTokens])

def execute (c : Command) : Shell Unit := do
  match c with
  | .generate path commission => generate path (← directoryOf path) commission
  | .analyze path asJson => analyze path (← directoryOf path) asJson
  | .related path file hops => related path (← directoryOf path) file hops
  | .module path entry => module path (← directoryOf path) entry
  | .setService provider model apiKey endpoint => setService provider model apiKey endpoint
  | .unsetService confirmed => unsetService confirmed
  | .showService => showService

def perform (args : List Text) : Shell Unit :=
  match Request.read? args with
  | none => throw (.misuse none)
  | some .version => Shell.echo versionLine
  | some .help => Shell.echo helpLine
  | some (.command c) => execute c

def run (args : List Text) (w : World) : Ending × World :=
  match (perform args).exec w with
  | (.ok (), w) => (.exit 0, w)
  | (.error ending, w) => (ending, w)

end CodeAtlas.CommandLine
