import CodeAtlas.Codebase.Specifier
import CodeAtlas.Graph.Basic

/-!
The dependency graph of a codebase. It has a node for every file and one for every name that a file
declares; the first declaration of a name owns the node. Edges lead from a file to its declarations,
from a class to its parent and its interfaces, and from a file to what it imports.
-/

set_option autoImplicit false

namespace CodeAtlas

inductive Declaration where
  | function (f : FunctionRecord)
  | type (c : ClassRecord)
  deriving DecidableEq, Repr

namespace Declaration

def name : Declaration → Text
  | .function f => f.name
  | .type c => c.name

def isExported : Declaration → Bool
  | .function f => f.isExported
  | .type c => c.isExported

def idOf (path name : Text) : Text := path ++ "::" ++ name

def id (path : Text) (d : Declaration) : Text := idOf path d.name

def all (f : ParsedFile) : List Declaration := f.functions.map .function ++ f.classes.map .type

/-- The declarations of a file that own their names. -/
def owning (f : ParsedFile) : List Declaration := firstsBy name [] (all f)

def traits : Declaration → Traits
  | .function f => .function f.isExported f.isAsync f.parameters.length
  | .type c => .type c.isExported c.methods.length c.parent

def kind : Declaration → NodeKind
  | .function _ => .function
  | .type _ => .type

def node (path : Text) (d : Declaration) : Node where
  id := d.id path
  kind := d.kind
  name := d.name
  path := some path
  traits := d.traits

theorem nodup_name_owning (f : ParsedFile) : ((owning f).map name).Nodup :=
  nodup_map_firstsBy name [] (all f)

end Declaration

namespace Graph

def classIds (c : Codebase) (name : Text) : List Text :=
  distinct (c.files.flatMap fun f =>
    (f.classes.filter (·.name = name)).map fun _ => Declaration.idOf f.path name)

/-- Where an edge to a class of a name leads: to the class if there is only one, or else to the
bare name. -/
def classTarget (c : Codebase) (name : Text) : Text :=
  match classIds c name with
  | [id] => id
  | _ => name

def fileNode (f : ParsedFile) : Node where
  id := f.path
  kind := .file
  name :=
    let base := Path.baseName f.path
    if base.isEmpty then f.path else base
  path := some f.path
  traits := .file f.language f.functions.length f.classes.length

def nodesOf (f : ParsedFile) : List Node :=
  fileNode f :: (Declaration.owning f).map (·.node f.path)

def heritage (c : Codebase) (path : Text) : Declaration → List Edge
  | .function _ => []
  | .type t =>
    let id := Declaration.idOf path t.name
    (t.parent.toList.filter fun p => !p.isEmpty).map (fun p => ⟨id, classTarget c p, .inherits, none⟩)
      ++ (t.interfaces.getD []).map fun i => ⟨id, classTarget c i, .implements, none⟩

def edgesOf (c : Codebase) (f : ParsedFile) : List Edge :=
  (Declaration.owning f).flatMap fun d =>
    ⟨f.path, d.id f.path, .contains, none⟩ :: heritage c f.path d

/-- The edge of a dependency. An import leads to the file it names, if it names one. -/
def dependencyEdge (known : List Text) (d : Dependency) : Edge where
  source := d.importer
  target :=
    if d.link = .imports then
      match Specifier.resolve d.importer d.target known with
      | some path => if path.isEmpty then d.target else path
      | none => d.target
    else d.target
  link := d.link
  weight := some 1

def ofCodebase (c : Codebase) : Graph where
  nodes := c.files.flatMap nodesOf
  edges := c.files.flatMap (edgesOf c) ++ c.dependencies.map (dependencyEdge c.paths)

theorem mem_edges_ofCodebase {c : Codebase} {e : Edge} :
    e ∈ (ofCodebase c).edges ↔
      (∃ f ∈ c.files, e ∈ edgesOf c f) ∨ ∃ d ∈ c.dependencies, dependencyEdge c.paths d = e := by
  simp [ofCodebase]

theorem path_of_mem_nodesOf {f : ParsedFile} {n : Node} (h : n ∈ nodesOf f) :
    n.path = some f.path := by
  rcases List.mem_cons.1 h with rfl | h
  · rfl
  · obtain ⟨d, _, rfl⟩ := List.mem_map.1 h
    rfl

end Graph

end CodeAtlas
