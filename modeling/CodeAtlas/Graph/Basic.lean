import CodeAtlas.Codebase.Basic
import CodeAtlas.Data

/-!
Directed graphs over files and their declarations. When nodes share an id, the first of them is the
one that counts. Edges may end in ids that no node has.
-/

set_option autoImplicit false

namespace CodeAtlas

inductive NodeKind where
  | file | function | type | module
  | other (label : Text)
  deriving DecidableEq, Repr

def NodeKind.label : NodeKind → Text
  | .file => "file"
  | .function => "function"
  | .type => "class"
  | .module => "module"
  | .other label => label

def NodeKind.ofLabel (label : Text) : NodeKind :=
  if label = "file" then .file
  else if label = "function" then .function
  else if label = "class" then .type
  else if label = "module" then .module
  else .other label

inductive Traits where
  | file (language : Text) (functions classes : Nat)
  | function (exported async : Bool) (parameters : Nat)
  | type (exported : Bool) (methods : Nat) (parent : Option Text)
  | other (fields : Fields)

namespace Traits

def fields : Traits → Fields
  | .file language functions classes =>
    [("language", .text language), ("function_count", .nat functions),
     ("class_count", .nat classes)]
  | .function exported async parameters =>
    [("is_exported", .bool exported), ("is_async", .bool async),
     ("parameter_count", .nat parameters)]
  | .type exported methods parent =>
    [("is_exported", .bool exported), ("method_count", .nat methods),
     ("extends", .ofOption parent)]
  | .other fields => fields

def exported : Traits → Bool
  | .function exported .. => exported
  | .type exported .. => exported
  | _ => false

end Traits

structure Node where
  id : Text
  kind : NodeKind
  name : Text
  path : Option Text := none
  traits : Traits := .other []

structure Edge where
  source : Text
  target : Text
  link : Link
  weight : Option Int := none
  deriving DecidableEq, Repr

structure Graph where
  nodes : List Node := []
  edges : List Edge := []

namespace Graph

/-- The node with an id; of several the first. -/
def node? (g : Graph) (id : Text) : Option Node := g.nodes.find? (·.id = id)

def isFile (g : Graph) (id : Text) : Bool :=
  match g.node? id with
  | some n => n.kind = .file
  | none => false

def fileNodes (g : Graph) : List Node := g.nodes.filter (·.kind = .file)

def outgoing (g : Graph) (id : Text) (link : Option Link := none) : List Edge :=
  g.edges.filter fun e => e.source = id && link.all (· = e.link)

def incoming (g : Graph) (id : Text) (link : Option Link := none) : List Edge :=
  g.edges.filter fun e => e.target = id && link.all (· = e.link)

/-- The ids joined to an id by an edge in either direction, each once and the id itself left out:
first the targets of its edges, then the sources of the edges that reach it. -/
def neighbors (g : Graph) (id : Text) : List Text :=
  (distinct ((g.outgoing id).map (·.target) ++ (g.incoming id).map (·.source))).filter (· ≠ id)

theorem id_of_node? {g : Graph} {id : Text} {n : Node} (h : g.node? id = some n) : n.id = id := by
  simpa using List.find?_some h

theorem mem_outgoing {g : Graph} {id : Text} {e : Edge} :
    e ∈ g.outgoing id ↔ e ∈ g.edges ∧ e.source = id := by
  simp [outgoing]

theorem mem_incoming {g : Graph} {id : Text} {e : Edge} :
    e ∈ g.incoming id ↔ e ∈ g.edges ∧ e.target = id := by
  simp [incoming]

/-- Two different ids are neighbours exactly when an edge joins them. -/
theorem mem_neighbors {g : Graph} {a b : Text} :
    b ∈ g.neighbors a ↔ b ≠ a ∧
      ∃ e ∈ g.edges, (e.source = a ∧ e.target = b) ∨ (e.source = b ∧ e.target = a) := by
  simp only [neighbors, List.mem_filter, mem_distinct, List.mem_append, List.mem_map,
    mem_outgoing, mem_incoming, decide_eq_true_eq]
  constructor
  · rintro ⟨⟨e, ⟨he, hs⟩, rfl⟩ | ⟨e, ⟨he, ht⟩, rfl⟩, hne⟩
    · exact ⟨hne, e, he, .inl ⟨hs, rfl⟩⟩
    · exact ⟨hne, e, he, .inr ⟨rfl, ht⟩⟩
  · rintro ⟨hne, e, he, ⟨hs, ht⟩ | ⟨hs, ht⟩⟩
    · exact ⟨.inl ⟨e, ⟨he, hs⟩, ht⟩, hne⟩
    · exact ⟨.inr ⟨e, ⟨he, ht⟩, hs⟩, hne⟩

theorem nodup_neighbors (g : Graph) (id : Text) : (g.neighbors id).Nodup :=
  (nodup_distinct _).filter _

end Graph

end CodeAtlas
