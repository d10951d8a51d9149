import CodeAtlas.Distinct
import CodeAtlas.Path
import CodeAtlas.Source.Scan

set_option autoImplicit false

namespace CodeAtlas

inductive Link where
  | contains | imports | calls | inherits | implements
  | other (label : Text)
  deriving DecidableEq, Repr

def Link.label : Link → Text
  | .contains => "contains"
  | .imports => "import"
  | .calls => "call"
  | .inherits => "extends"
  | .implements => "implements"
  | .other label => label

def Link.ofLabel (label : Text) : Link :=
  if label = "contains" then .contains
  else if label = "import" then .imports
  else if label = "call" then .calls
  else if label = "extends" then .inherits
  else if label = "implements" then .implements
  else .other label

structure Dependency where
  importer : Text
  target : Text
  link : Link := .imports
  relationship : Text := []
  deriving DecidableEq, Repr

structure Module where
  name : Text
  files : List Text
  dependencies : List Text
  entryPoint : Option Text
  deriving DecidableEq, Repr

structure Codebase where
  files : List ParsedFile := []
  dependencies : List Dependency := []
  modules : List Module := []
  deriving DecidableEq, Repr

namespace Module

def nameOf (path : Text) : Text :=
  let dir := Path.directory path
  if dir.isEmpty then ['/'] else dir

def isEntry (path : Text) : Bool :=
  let base := Path.baseName path
  (Path.splitExtension base).1 = "index" || base = "__init__.py"

def addNew (names : List Text) : List Text → List Text
  | [] => names
  | n :: rest => if n ∈ names then addNew names rest else addNew (names ++ [n]) rest

/-- Puts a file into a module. The first entry file stays the entry. -/
def add (f : ParsedFile) (m : Module) : Module :=
  { m with
    files := m.files ++ [f.path]
    dependencies := addNew m.dependencies (f.imports.map (·.source))
    entryPoint := m.entryPoint <|> (if isEntry f.path then some f.path else none) }

def insert (f : ParsedFile) : List Module → List Module
  | [] => [add f ⟨nameOf f.path, [], [], none⟩]
  | m :: rest => if m.name = nameOf f.path then add f m :: rest else m :: insert f rest

def group (files : List ParsedFile) : List Module :=
  files.foldl (fun modules f => insert f modules) []

@[simp] theorem name_add (f : ParsedFile) (m : Module) : (add f m).name = m.name := rfl

@[simp] theorem files_add (f : ParsedFile) (m : Module) :
    (add f m).files = m.files ++ [f.path] := rfl

end Module

namespace Codebase

def dependenciesOf (f : ParsedFile) : List Dependency :=
  f.imports.map fun i =>
    { importer := f.path, target := i.source, relationship := Text.joinWith ", " i.names }

def ofParsed (files : List ParsedFile) : Codebase where
  files
  dependencies := files.flatMap dependenciesOf
  modules := Module.group files

def ofFiles (files : List SourceFile) : Codebase :=
  ofParsed (files.map fun f => (Scan.ofFile f).file)

/-- The file with a path; of several the first. -/
def file? (c : Codebase) (path : Text) : Option ParsedFile := c.files.find? (·.path = path)

def paths (c : Codebase) : List Text := c.files.map (·.path)

def functionCount (c : Codebase) : Nat := (c.files.flatMap (·.functions)).length

def classCount (c : Codebase) : Nat := (c.files.flatMap (·.classes)).length

@[simp] theorem paths_ofFiles (files : List SourceFile) :
    (ofFiles files).paths = files.map (·.path) := by
  simp [ofFiles, ofParsed, paths, Scan.ofFile, Scan.path_of]

end Codebase

end CodeAtlas
