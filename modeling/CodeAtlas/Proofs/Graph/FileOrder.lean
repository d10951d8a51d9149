import CodeAtlas.Proofs.Codebase.FileOrder
import CodeAtlas.Proofs.Graph.Ids
import CodeAtlas.Proofs.Graph.Imported
import CodeAtlas.Proofs.Graph.Reach

set_option autoImplicit false

namespace CodeAtlas.Graph

/-- Graphs that show the same: every id has the same node in both, and they have the same edges. -/
structure Agree (g h : Graph) : Prop where
  node? : ∀ id, g.node? id = h.node? id
  edges : ∀ e, e ∈ g.edges ↔ e ∈ h.edges

namespace Agree

variable {g h : Graph}

theorem symm (hgh : Agree g h) : Agree h g :=
  ⟨fun id => (hgh.node? id).symm, fun e => (hgh.edges e).symm⟩

theorem isFile (hgh : Agree g h) (id : Text) : g.isFile id = h.isFile id := by
  rw [Graph.isFile, Graph.isFile, hgh.node?]

theorem mem_neighbors (hgh : Agree g h) (a b : Text) :
    b ∈ g.neighbors a ↔ b ∈ h.neighbors a := by
  simp only [Graph.mem_neighbors, hgh.edges]

theorem step (hgh : Agree g h) (file a : Text) : g.step file a = h.step file a := by
  simp only [Graph.step, hgh.node?, hgh.isFile]

theorem inside (hgh : Agree g h) {file a : Text} (ha : Inside g file a) : Inside h file a := by
  induction ha with
  | start => exact .start
  | step _ hb hi ih => exact .step ih ((hgh.mem_neighbors _ _).1 hb) (hgh.step _ _ ▸ hi)

theorem mem_adjacentFiles (hgh : Agree g h) {file path : Text} :
    path ∈ g.adjacentFiles file ↔ path ∈ h.adjacentFiles file := by
  have hinside : ∀ a, Inside g file a ↔ Inside h file a := fun a =>
    ⟨hgh.inside, hgh.symm.inside⟩
  simp only [Graph.mem_adjacentFiles, hinside, hgh.mem_neighbors, hgh.step]

theorem hops (hgh : Agree g h) {n : Nat} {a b : Text} (hab : Hops g n a b) : Hops h n a b := by
  induction hab with
  | zero a => exact .zero a
  | succ hb _ ih => exact .succ (hgh.mem_adjacentFiles.1 hb) ih

theorem related (hgh : Agree g h) (file : Text) (n : Nat) :
    (g.related file n).Perm (h.related file n) := by
  rw [List.perm_ext_iff_of_nodup (nodup_related g file n) (nodup_related h file n)]
  intro path
  have hhops : ∀ m a b, Hops g m a b ↔ Hops h m a b := fun _ _ _ => ⟨hgh.hops, hgh.symm.hops⟩
  simp only [mem_related, hhops]

theorem preorder (hgh : Agree g h) (entry : Text) : (g.preorder entry).Perm (h.preorder entry) := by
  rw [List.perm_ext_iff_of_nodup (nodup_preorder g entry) (nodup_preorder h entry)]
  intro path
  have himports : g.Imports = h.Imports := by
    funext a b
    simp only [Imports, mem_importedFiles, hgh.edges, hgh.isFile]
  rw [mem_preorder, mem_preorder, himports]

end Agree

section Rearranged

variable {c d : Codebase} (h : c.Rearranged d)
include h

theorem classTarget_rearranged (name : Text) : classTarget c name = classTarget d name := by
  have hids : (classIds c name).Perm (classIds d name) :=
    distinct_perm (h.files.flatMap_right _)
  have name_of_length : ∀ {e : Codebase}, (classIds e name).length ≠ 1 →
      classTarget e name = name := by
    intro e he
    unfold classTarget
    split
    · rename_i id hone
      rw [hone] at he
      exact absurd rfl he
    · rfl
  rcases singleton_or_of_perm hids with ⟨id, hc, hd⟩ | ⟨hc, hd⟩
  · rw [classTarget, classTarget, hc, hd]
  · rw [name_of_length hc, name_of_length hd]

theorem edgesOf_rearranged (f : ParsedFile) : edgesOf c f = edgesOf d f := by
  have hheritage : ∀ declared, heritage c f.path declared = heritage d f.path declared := by
    intro declared
    cases declared with
    | function r => rfl
    | type t => simp only [heritage, classTarget_rearranged h]
  simp only [edgesOf, hheritage]

theorem dependencyEdge_rearranged (dep : Dependency) :
    dependencyEdge c.paths dep = dependencyEdge d.paths dep := by
  simp only [dependencyEdge, Specifier.resolve_perm _ _ h.paths]

theorem nodes_rearranged : (ofCodebase c).nodes.Perm (ofCodebase d).nodes :=
  h.files.flatMap_right nodesOf

theorem edges_rearranged : (ofCodebase c).edges.Perm (ofCodebase d).edges := by
  have hedges : edgesOf c = edgesOf d := funext (edgesOf_rearranged h)
  have hdeps : dependencyEdge c.paths = dependencyEdge d.paths :=
    funext (dependencyEdge_rearranged h)
  simp only [ofCodebase, hedges, hdeps]
  exact (h.files.flatMap_right _).append (h.dependencies.map _)

/-- With distinct ids, it does not matter which node of an id comes first. -/
theorem agree_rearranged (hn : ((ofCodebase c).nodes.map (·.id)).Nodup) :
    Agree (ofCodebase c) (ofCodebase d) where
  node? := by
    intro id
    have hperm := nodes_rearranged h
    cases hc : (ofCodebase c).node? id with
    | none =>
      refine (List.find?_eq_none.2 fun n hm => ?_).symm
      exact List.find?_eq_none.1 hc n (hperm.mem_iff.2 hm)
    | some n =>
      have hd := find?_key ((hperm.map (·.id)).nodup_iff.1 hn)
        (hperm.mem_iff.1 (List.mem_of_find?_eq_some hc))
      rw [id_of_node? hc] at hd
      exact hd.symm
  edges := fun e => (edges_rearranged h).mem_iff

end Rearranged

/-- What stays the same when the files come in another order. -/
structure SameButOrder (c d : Codebase) : Prop where
  nodes : (ofCodebase c).nodes.Perm (ofCodebase d).nodes
  edges : (ofCodebase c).edges.Perm (ofCodebase d).edges
  related : ∀ file hops,
    ((ofCodebase c).related file hops).Perm ((ofCodebase d).related file hops)
  preorder : ∀ entry, ((ofCodebase c).preorder entry).Perm ((ofCodebase d).preorder entry)
  functionCount : c.functionCount = d.functionCount
  classCount : c.classCount = d.classCount
  moduleCount : c.modules.length = d.modules.length

/-- The order of the files does not change what is related to what. -/
theorem sameButOrder_of_perm {files other : List SourceFile}
    (hd : (files.map (·.path)).Nodup) (hs : (Codebase.ofFiles files).Separate)
    (h : files.Perm other) : SameButOrder (Codebase.ofFiles files) (Codebase.ofFiles other) := by
  have hfiles := Codebase.rearranged_ofFiles h
  have hids := nodup_ids (Codebase.clearIds_ofFiles hs) (by rwa [Codebase.paths_ofFiles])
  have hagree := agree_rearranged hfiles hids
  exact ⟨nodes_rearranged hfiles, edges_rearranged hfiles, hagree.related, hagree.preorder,
    hfiles.functionCount, hfiles.classCount, hfiles.moduleCount⟩

theorem sameButOrder_sample :
    (Codebase.sampleFiles.map (·.path)).Nodup ∧ (Codebase.ofFiles Codebase.sampleFiles).Separate ∧
      SameButOrder (Codebase.ofFiles Codebase.sampleFiles)
        (Codebase.ofFiles Codebase.sampleFiles.reverse) :=
  have hd : (Codebase.sampleFiles.map (·.path)).Nodup := by decide
  have hs : (Codebase.ofFiles Codebase.sampleFiles).Separate := by decide +kernel
  ⟨hd, hs, sameButOrder_of_perm hd hs (List.reverse_perm _).symm⟩

end CodeAtlas.Graph
