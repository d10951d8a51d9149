import CodeAtlas.Project.FileTree
import CodeAtlas.Service.Transport
import CodeAtlas.Settings.Store
import CodeAtlas.Text.Utf8

/-!
The world in which a command works: the files, the settings file, the connection to services, what
is typed in, and what is printed. A command changes the world step by step and may end early.
-/

set_option autoImplicit false

namespace CodeAtlas.CommandLine

inductive Exhibit where
  | table (title : Text) (columns : List Text) (rows : List (List Text))
  | panel (title body : Text)
  deriving DecidableEq, Repr

inductive Ending where
  | exit (code : Nat)
  | misuse (reason : Option Text)
  | fault (f : Fault)

structure World where
  tree : FileTree := {}
  directory : List Text := []
  settings : SettingsStore
  transport : Transport
  input : List Text := []
  output : Text := []
  exhibits : List Exhibit := []
  messages : List Text := []

abbrev Shell := ExceptT Ending (StateM World)

namespace Shell

variable {α : Type}

def exec (s : Shell α) (w : World) : Except Ending α × World := (ExceptT.run s).run w

def print (t : Text) : Shell Unit :=
  modifyThe World fun w => { w with output := w.output ++ t }

def echo (t : Text) : Shell Unit := print (t ++ ['\n'])

def exhibit (e : Exhibit) : Shell Unit :=
  modifyThe World fun w => { w with exhibits := w.exhibits ++ [e] }

def message (t : Text) : Shell Unit :=
  modifyThe World fun w => { w with messages := w.messages ++ [t] }

def orFault (e : Except Fault α) : Shell α :=
  match e with
  | .ok v => return v
  | .error f => throw (.fault f)

def access (a : SettingsAccess α) : Shell α := do
  let w ← getThe World
  let (outcome, settings) := SettingsStore.exec a w.settings
  set { w with settings }
  orFault outcome

def writeFile (path : Text) (content : Text) : Shell Unit := do
  let w ← getThe World
  let path := Path.tidy path
  let place ← orFault (w.tree.locate w.directory path)
  let tree ← orFault (w.tree.write path place (Text.toBytes content))
  set { w with tree }

end Shell

/-- A typed line as an answer to a question that is answered by yes or no; an empty line says no. -/
def answer? (line : Text) : Option Bool :=
  let t := Text.strip (Text.lower line)
  if t = "y" ∨ t = "yes" then some true
  else if t = "n" ∨ t = "no" ∨ t.isEmpty then some false
  else none

/-- Asks a question until a line answers it. This gives what is shown, the typed lines included, and
the answer with the lines left, if there is an answer. -/
def dialogue (question : Text) : List Text → Text × Option (Bool × List Text)
  | [] => (question, none)
  | line :: rest =>
    let shown := question ++ line ++ ['\n']
    match answer? line with
    | some yes => (shown, some (yes, rest))
    | none =>
      let (more, answer) := dialogue question rest
      (shown ++ "Error: invalid input\n" ++ more, answer)

def Shell.confirm (question : Text) : Shell Bool := do
  let w ← getThe World
  let (shown, answer) := dialogue (question ++ " [y/N]: ") w.input
  Shell.print shown
  match answer with
  | some (yes, input) =>
    modifyThe World fun w => { w with input }
    return yes
  | none => throw (.fault .noAnswer)

end CodeAtlas.CommandLine
