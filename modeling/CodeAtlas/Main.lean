import CodeAtlas.CommandLine.Markup
import CodeAtlas.CommandLine.Run
import CodeAtlas.Toml.Format

/-!
The program. It gathers the world that a command line needs, runs the command line in it, and prints
and writes what has come of it. Questions are answered line by line: while an answer is missing, one
more line is read and the command line is run again. There is no connection to the network.
-/

set_option autoImplicit false

namespace CodeAtlas.Program

open CodeAtlas.CommandLine

def shown (t : Text) : String := String.ofList t

def pathOf (place : List Text) : String := shown ('/' :: Text.joinWith ['/'] place)

def placeOf (directory path : Text) : List Text :=
  (Text.splitAt '/' (Path.normalize (Path.join directory path))).filter fun s => s ≠ [] ∧ s ≠ ['.']

def entryAt (place : List Text) : IO.FS.DirEntry := ⟨pathOf place, "."⟩

def isDirectory (place : List Text) : IO Bool := (entryAt place).path.isDir

partial def readTree (place : List Text) : IO (List (List Text × TreeEntry)) := do
  let mut entries := [(place, TreeEntry.directory)]
  for e in ← (entryAt place).path.readDir do
    let name := e.fileName.toList
    let inner := place ++ [name]
    if ← isDirectory inner then
      unless name ∈ Project.skippedDirectories do
        entries := entries ++ (← readTree inner)
    else if (Project.languageOf? name).isSome then
      entries := entries ++ [(inner, .file (← IO.FS.readBinFile (pathOf inner)).toList)]
  return entries

def knownDirectory (place : List Text) : IO (List (List Text × TreeEntry)) := do
  return if ← isDirectory place then [(place, .directory)] else []

def readFiles (directory : Text) (args : List Text) : IO FileTree := do
  match Request.read? args with
  | some (.command c) =>
    let project ← match c.project? with
      | some path =>
        let place := placeOf directory path
        if ← isDirectory place then readTree place else pure []
      | none => pure []
    let output ← match c.output? with
      | some path =>
        let place := placeOf directory path
        pure ((← knownDirectory place) ++ (← knownDirectory place.dropLast))
      | none => pure []
    return ⟨project ++ output ++ (← knownDirectory (placeOf directory []))⟩
  | _ => return {}

def readEnvironment : IO Environment := do
  let names := Environment.sharedKeyVariable :: Provider.all.filterMap Provider.keyVariable?
  let mut env := []
  for name in names do
    if let some v ← IO.getEnv (shown name) then
      env := env ++ [(name, v.toList)]
  return env

def settingsDirectory : IO Text := do
  match ← IO.getEnv "DOCGRAPH_HOME" with
  | some home => return home.toList
  | none => return Path.join ((← IO.getEnv "HOME").getD "/").toList ".docgraph"

def settingsFile (home : Text) : Text := Path.join home "config.toml"

def readPlace (home : Text) : IO SettingsPlace := do
  let file : IO.FS.DirEntry := ⟨shown home, "config.toml"⟩
  let there : IO.FS.DirEntry := ⟨shown (Path.directory home), shown (Path.baseName home)⟩
  if ← file.path.isDir then return .directory
  else if ← file.path.pathExists then return .file (← IO.FS.readFile (shown (settingsFile home))).toList
  else if (← there.path.pathExists) && !(← there.path.isDir) then return .blocked
  else return .absent

def readWorld (directory home : Text) (args : List Text) : IO World := do
  return { tree := ← readFiles directory args
           directory := placeOf directory []
           settings := { format := Toml.format, place := ← readPlace home
                         environment := ← readEnvironment }
           transport := { pending := [], otherwise := .unreachable "no connection to the network" } }

/-- Runs a command line, reading lines while it asks for more. The number counts the characters of
the output that are on the screen already. -/
partial def converse (args : List Text) (w : World) (seen : Nat) : IO (Ending × World × Nat) := do
  let (ending, after) := run args w
  match ending with
  | .fault .noAnswer =>
    IO.print (shown (after.output.drop seen))
    (← IO.getStdout).flush
    let line ← (← IO.getStdin).getLine
    if line.isEmpty then return (ending, after, after.output.length)
    else
      let typed := Text.dropRight (fun c => c == '\n' || c == '\r') line.toList
      converse args { w with input := w.input ++ [typed] } (after.output.length + typed.length + 1)
  | _ => return (ending, after, seen)

def printExhibit : Exhibit → IO Unit
  | .table title columns rows => do
    IO.println (shown title)
    for row in columns :: rows do
      IO.println (shown (Text.joinWith "  " row))
  | .panel title body => do
    IO.println (shown title)
    IO.println (shown (Markup.plain body))

def writeFiles (before after : FileTree) : IO Unit := do
  for (place, entry) in after.entries do
    if let .file bytes := entry then
      unless before.file? place = some bytes do
        IO.FS.writeBinFile (pathOf place) ⟨bytes.toArray⟩

def writePlace (home : Text) (before after : SettingsPlace) : IO Unit := do
  unless before = after do
    if let .file content := after then
      IO.FS.createDirAll (shown home)
      IO.FS.writeFile (shown (settingsFile home)) (shown content)

def exitCode : Ending → IO UInt32
  | .exit code => return code.toUInt32
  | .misuse reason => do
    IO.eprintln (shown (reason.getD "Usage error; --help lists the commands."))
    return 2
  | .fault f => do
    IO.eprintln (shown f.message)
    return 1

end CodeAtlas.Program

open CodeAtlas CodeAtlas.Program in
def main (args : List String) : IO UInt32 := do
  let args := args.map String.toList
  let directory := (← IO.currentDir).toString.toList
  let home ← settingsDirectory
  let before ← readWorld directory home args
  let (ending, after, seen) ← converse args before 0
  after.exhibits.forM printExhibit
  IO.print (shown (after.output.drop seen))
  for m in after.messages do
    IO.eprintln (shown (CommandLine.Markup.plain m))
  writeFiles before.tree after.tree
  writePlace home before.settings.place after.settings.place
  exitCode ending
