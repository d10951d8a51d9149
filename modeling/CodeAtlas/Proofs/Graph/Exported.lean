import CodeAtlas.Graph.Insights
import CodeAtlas.Proofs.Data.Equality
import CodeAtlas.Proofs.Graph.Inheritance
import CodeAtlas.Proofs.Order

/-!
The exported components against the graph. A node tells about the first declaration of its name,
while a component is listed if any declaration of the name in the file is exported. Main statement:
the components are the nodes that are said to be exported, and those whose name is declared again in
the same file and exported there.
-/

set_option autoImplicit false

namespace CodeAtlas

def Node.SaysExported (n : Node) : Prop :=
  Fields.get? n.traits.fields "is_exported" = some (.bool true)

instance (n : Node) : Decidable n.SaysExported := by unfold Node.SaysExported; infer_instance

theorem Declaration.saysExported_node (path : Text) (d : Declaration) :
    (d.node path).SaysExported ↔ d.isExported = true := by
  cases d <;> simp [Node.SaysExported, node, traits, Traits.fields, isExported, Fields.get?_cons]

namespace Graph

def IsDeclared (g : Graph) (n : Node) : Prop :=
  n ∈ g.nodes ∧ (n.kind = .function ∨ n.kind = .type)

theorem isDeclared_ofCodebase {c : Codebase} {n : Node} :
    (ofCodebase c).IsDeclared n ↔
      ∃ f ∈ c.files, ∃ d ∈ Declaration.owning f, n = d.node f.path := by
  constructor
  · rintro ⟨hn, hkind⟩
    obtain ⟨f, hf, rfl | ⟨d, hd, rfl⟩⟩ := mem_nodes_ofCodebase.1 hn
    · simp at hkind
    · exact ⟨f, hf, d, hd, rfl⟩
  · rintro ⟨f, hf, d, hd, rfl⟩
    refine ⟨mem_nodes_ofCodebase.2 ⟨f, hf, .inr ⟨d, hd, rfl⟩⟩, ?_⟩
    cases d with
    | function r => exact .inl rfl
    | type t => exact .inr rfl

theorem id_of_isDeclared {c : Codebase} {n : Node} (hn : (ofCodebase c).IsDeclared n)
    {path : Text} (hpath : n.path = some path) : n.id = Declaration.idOf path n.name := by
  obtain ⟨f, _, d, _, rfl⟩ := isDeclared_ofCodebase.1 hn
  rw [← Option.some.inj hpath]
  rfl

end Graph

namespace Codebase

def Exports (c : Codebase) (n : Node) : Prop :=
  ∃ f ∈ c.files, n.path = some f.path ∧ ∃ d ∈ Declaration.all f, d.name = n.name ∧
    d.isExported = true

theorem exports_node {c : Codebase} {f : ParsedFile} (hf : f ∈ c.files) {d o : Declaration}
    (hd : d ∈ Declaration.all f) (hname : d.name = o.name) (hexported : d.isExported = true) :
    c.Exports (o.node f.path) := ⟨f, hf, rfl, d, hd, hname, hexported⟩

end Codebase

namespace Insights

theorem mem_exportedIds {f : ParsedFile} {id : Text} :
    id ∈ exportedIds f ↔ ∃ d ∈ Declaration.all f, d.isExported = true ∧ d.id f.path = id := by
  simp [exportedIds, and_assoc]

/-- The components are the declared names with an exported declaration. -/
theorem mem_keyComponents {c : Codebase} {id : Text} :
    id ∈ (of c (Graph.ofCodebase c)).keyComponents ↔
      ∃ n, (Graph.ofCodebase c).IsDeclared n ∧ n.id = id ∧ c.Exports n := by
  simp only [of, mem_distinct, List.mem_flatMap, mem_exportedIds]
  constructor
  · rintro ⟨f, hf, d, hd, hexported, rfl⟩
    obtain ⟨o, ho, hname⟩ := Declaration.exists_owning hd
    refine ⟨o.node f.path, Graph.isDeclared_ofCodebase.2 ⟨f, hf, o, ho, rfl⟩, ?_,
      Codebase.exports_node hf hd hname.symm hexported⟩
    exact congrArg (Declaration.idOf f.path) hname
  · rintro ⟨n, hn, rfl, f, hf, hpath, d, hd, hname, hexported⟩
    rw [Graph.id_of_isDeclared hn hpath, ← hname]
    exact ⟨f, hf, d, hd, hexported, rfl⟩

/-- A node that says so has an exported declaration, the first of its name. -/
theorem exports_of_saysExported {c : Codebase} {n : Node} (hn : (Graph.ofCodebase c).IsDeclared n)
    (h : n.SaysExported) : c.Exports n := by
  obtain ⟨f, hf, d, hd, rfl⟩ := Graph.isDeclared_ofCodebase.1 hn
  exact Codebase.exports_node hf (Declaration.mem_all_of_mem_owning hd) rfl
    ((d.saysExported_node f.path).1 h)

/-- What the components have to do with what the nodes say. -/
structure Exhibits (c : Codebase) (ids : List Text) : Prop where
  nodes : ∀ id, id ∈ ids ↔ ∃ n, (Graph.ofCodebase c).IsDeclared n ∧ n.id = id ∧ c.Exports n
  said : ∀ n, (Graph.ofCodebase c).IsDeclared n → n.SaysExported → n.id ∈ ids
  agrees : (∀ id, id ∈ ids ↔
      ∃ n, (Graph.ofCodebase c).IsDeclared n ∧ n.id = id ∧ n.SaysExported) ↔
    ∀ f ∈ c.files, ∀ d ∈ Declaration.all f, d.isExported = true →
      ∃ first, (Declaration.all f).find? (fun o => o.name = d.name) = some first ∧
        first.isExported = true
  order : FirstSeen (c.files.flatMap exportedIds) ids

section

variable {c : Codebase} (hcolon : ∀ f ∈ c.files, ∀ d ∈ Declaration.all f, ':' ∉ d.name)
  (hp : c.paths.Nodup)
include hcolon hp

/-- A declared name has one node, which tells about its first declaration. -/
theorem first_of_node {f : ParsedFile} (hf : f ∈ c.files) {d : Declaration}
    (hd : d ∈ Declaration.all f) {n : Node} (hn : (Graph.ofCodebase c).IsDeclared n)
    (hid : n.id = d.id f.path) :
    ∃ first, (Declaration.all f).find? (fun o => o.name = d.name) = some first ∧
      n = first.node f.path := by
  obtain ⟨g, hg, o, ho, rfl⟩ := Graph.isDeclared_ofCodebase.1 hn
  have hoc := hcolon g hg o (Declaration.mem_all_of_mem_owning ho)
  obtain ⟨hpath, hname⟩ := Declaration.idOf_injective hoc (hcolon f hf d hd) hid
  obtain rfl : g = f := List.inj_on_of_nodup_map hp hg hf hpath
  exact ⟨o, hname ▸ Declaration.find?_of_mem_owning ho, rfl⟩

theorem agrees_iff :
    (∀ id, id ∈ (of c (Graph.ofCodebase c)).keyComponents ↔
      ∃ n, (Graph.ofCodebase c).IsDeclared n ∧ n.id = id ∧ n.SaysExported) ↔
    ∀ f ∈ c.files, ∀ d ∈ Declaration.all f, d.isExported = true →
      ∃ first, (Declaration.all f).find? (fun o => o.name = d.name) = some first ∧
        first.isExported = true := by
  constructor
  · intro h f hf d hd hexported
    have hlisted : d.id f.path ∈ (of c (Graph.ofCodebase c)).keyComponents :=
      mem_distinct.2 (List.mem_flatMap.2 ⟨f, hf, mem_exportedIds.2 ⟨d, hd, hexported, rfl⟩⟩)
    obtain ⟨n, hn, hid, hsays⟩ := (h _).1 hlisted
    obtain ⟨first, hfirst, rfl⟩ := first_of_node hcolon hp hf hd hn hid
    exact ⟨first, hfirst, (first.saysExported_node f.path).1 hsays⟩
  · intro h id
    rw [mem_keyComponents]
    constructor
    · rintro ⟨n, hn, rfl, f, hf, hpath, d, hd, hname, hexported⟩
      obtain ⟨first, hfirst, hsays⟩ := h f hf d hd hexported
      have hid : n.id = d.id f.path := by
        rw [Graph.id_of_isDeclared hn hpath, ← hname]
        rfl
      obtain ⟨owner, howner, rfl⟩ := first_of_node hcolon hp hf hd hn hid
      obtain rfl : first = owner := Option.some.inj (hfirst.symm.trans howner)
      exact ⟨_, hn, rfl, (first.saysExported_node f.path).2 hsays⟩
    · rintro ⟨n, hn, hid, hsays⟩
      exact ⟨n, hn, hid, exports_of_saysExported hn hsays⟩

end

theorem exhibits_keyComponents {files : List SourceFile} (hp : (files.map (·.path)).Nodup) :
    let c := Codebase.ofFiles files
    Exhibits c (of c (Graph.ofCodebase c)).keyComponents where
  nodes _ := mem_keyComponents
  said n hn hsays := mem_keyComponents.2 ⟨n, hn, rfl, exports_of_saysExported hn hsays⟩
  agrees := agrees_iff (Codebase.colon_not_mem_ofFiles files) (by simpa using hp)
  order := firstSeen_distinct _

def redeclaredFiles : List SourceFile :=
  [⟨"a.ts", "typescript", "function f() \x7b\x7d\nexport function f() \x7b\x7d\n"⟩]

theorem exhibits_redeclared :
    (redeclaredFiles.map (·.path)).Nodup ∧
    let c := Codebase.ofFiles redeclaredFiles
    Exhibits c (of c (Graph.ofCodebase c)).keyComponents ∧
    (of c (Graph.ofCodebase c)).keyComponents = (["a.ts::f"] : List Text) := by
  have hp : (redeclaredFiles.map (·.path)).Nodup := by decide
  exact ⟨hp, exhibits_keyComponents hp, by decide +kernel⟩

/-- The node of that name does not say that it is exported, but the name is listed. -/
theorem not_saysExported_redeclared :
    (redeclaredFiles.map (·.path)).Nodup ∧ (Codebase.ofFiles redeclaredFiles).Separate ∧
    let c := Codebase.ofFiles redeclaredFiles
    let g := Graph.ofCodebase c
    ¬ ∀ id, id ∈ (of c g).keyComponents ↔
      ∃ n ∈ g.nodes, n.id = id ∧ (n.kind = .function ∨ n.kind = .type) ∧ n.SaysExported := by
  have hlisted : ("a.ts::f" : Text) ∈ (of (Codebase.ofFiles redeclaredFiles)
      (Graph.ofCodebase (Codebase.ofFiles redeclaredFiles))).keyComponents := by decide +kernel
  have hsilent : ∀ n ∈ (Graph.ofCodebase (Codebase.ofFiles redeclaredFiles)).nodes,
      ¬ n.SaysExported := by decide +kernel
  refine ⟨by decide, by decide +kernel, fun h => ?_⟩
  obtain ⟨n, hn, _, _, hsays⟩ := (h _).1 hlisted
  exact hsilent n hn hsays

end Insights

end CodeAtlas
