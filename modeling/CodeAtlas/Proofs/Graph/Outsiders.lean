import CodeAtlas.Pipeline.Retrieval
import CodeAtlas.Proofs.Graph.Inheritance
import CodeAtlas.Proofs.Graph.Reach

/-!
What is related to a name that no node has. Edges can end in such a name: an import that names no
file keeps its specifier as target, and a base that is not exactly one class keeps its name. Main
statement: the files related to the name are none, unless edges from files end in it.
-/

set_option autoImplicit false

namespace CodeAtlas

namespace Graph

def LeadsToFile (g : Graph) (id : Text) : Prop :=
  ∃ n, g.node? id = some n ∧
    (n.kind = .file ∨ ∃ path, n.path = some path ∧ path ≠ [] ∧ g.isFile path = true)

theorem related_eq_nil_iff {g : Graph} {file : Text} {hops : Nat} :
    g.related file hops = [] ↔ hops = 0 ∨ g.adjacentFiles file = [] := by
  constructor
  · intro h
    rcases Nat.eq_zero_or_pos hops with h0 | hpos
    · exact .inl h0
    · refine .inr (List.eq_nil_iff_forall_not_mem.2 fun path hpath => ?_)
      have hrelated : path ∈ g.related file hops :=
        mem_related.2 ⟨(mem_adjacentFiles.1 hpath).1, 1, hpos, .succ hpath (.zero path)⟩
      rw [h] at hrelated
      exact List.not_mem_nil hrelated
  · rintro (rfl | h)
    · exact related_zero g file
    · refine List.eq_nil_iff_forall_not_mem.2 fun path hpath => ?_
      obtain ⟨hne, n, _, hhops⟩ := mem_related.1 hpath
      cases hhops with
      | zero => exact hne rfl
      | succ hnext _ =>
        rw [h] at hnext
        exact List.not_mem_nil hnext

theorem mem_paths_of_step {c : Codebase} {file id path : Text}
    (h : (ofCodebase c).step file id = .file path) : path ∈ c.paths := by
  obtain ⟨n, hn, ⟨hkind, rfl⟩ | ⟨_, _, _, _, hfile⟩⟩ := step_eq_file_iff.1 h
  · exact mem_paths_of_isFile (by simp [isFile, hn, hkind])
  · exact mem_paths_of_isFile hfile

theorem Hops.eq_or_mem_paths {c : Codebase} {n : Nat} {a b : Text}
    (h : Hops (ofCodebase c) n a b) : b = a ∨ b ∈ c.paths := by
  induction h with
  | zero a => exact .inl rfl
  | succ hnext _ ih =>
    refine .inr ?_
    rcases ih with rfl | hb
    · obtain ⟨_, _, _, _, _, _, hstep⟩ := mem_adjacentFiles.1 hnext
      exact mem_paths_of_step hstep
    · exact hb

theorem mem_paths_of_related {c : Codebase} {file path : Text} {hops : Nat}
    (h : path ∈ (ofCodebase c).related file hops) : path ∈ c.paths := by
  obtain ⟨hne, n, _, hhops⟩ := mem_related.1 h
  exact hhops.eq_or_mem_paths.resolve_left hne

end Graph

namespace Codebase

/-- A file imports by the name what is no file of the codebase, or a class is based on the name and
it is not that of exactly one class. -/
def Mentions (c : Codebase) (name : Text) : Prop :=
  (∃ d ∈ c.dependencies, d.target = name ∧
    Specifier.resolve d.importer d.target c.paths = none) ∨
  ∃ f ∈ c.files, ∃ d ∈ Declaration.owning f, ∃ base ∈ d.bases, base.2 = name ∧
    ∀ id, Graph.classIds c name ≠ [id]

end Codebase

namespace Graph

theorem exists_node_of_mem_classIds {c : Codebase} {name id : Text} (h : id ∈ classIds c name) :
    ∃ n ∈ (ofCodebase c).nodes, n.id = id := by
  obtain ⟨path, hhome, rfl⟩ := mem_classIds.1 h
  obtain ⟨f, hf, rfl, o, ho, hname⟩ := exists_owning_of_mem_homes hhome
  exact ⟨o.node f.path, mem_nodes_ofCodebase.2 ⟨f, hf, .inr ⟨o, ho, rfl⟩⟩,
    congrArg (Declaration.idOf f.path) hname⟩

section

variable {files : List SourceFile} {seed : Text}
  (hseed : ∀ n ∈ (ofCodebase (Codebase.ofFiles files)).nodes, n.id ≠ seed)
include hseed

theorem not_mem_paths_of_outsider : seed ∉ (Codebase.ofFiles files).paths := by
  intro h
  obtain ⟨f, hf, hpath⟩ := Codebase.mem_paths.1 h
  exact hseed _ (mem_nodes_ofCodebase.2 ⟨f, hf, .inl rfl⟩) hpath

theorem path_ne_outsider {n : Node} (hn : n ∈ (ofCodebase (Codebase.ofFiles files)).nodes) :
    n.path ≠ some seed := by
  intro hpath
  obtain ⟨f, hf, hfile⟩ := List.mem_flatMap.1 hn
  rw [path_of_mem_nodesOf hfile] at hpath
  exact not_mem_paths_of_outsider hseed (Codebase.mem_paths.2 ⟨f, hf, Option.some.inj hpath⟩)

/-- Nothing is declared in a name that no node has, so a walk from it goes through nothing else. -/
theorem inside_outsider_iff {a : Text} :
    Inside (ofCodebase (Codebase.ofFiles files)) seed a ↔ a = seed := by
  constructor
  · intro h
    cases h with
    | start => rfl
    | step _ _ hi =>
      obtain ⟨_, n, hn, _, hpath⟩ := step_eq_inside_iff.1 hi
      exact absurd hpath (path_ne_outsider hseed (List.mem_of_find?_eq_some hn))
  · rintro rfl
    exact .start

theorem mem_neighbors_outsider {b : Text} :
    b ∈ (ofCodebase (Codebase.ofFiles files)).neighbors seed ↔
      ∃ e ∈ (ofCodebase (Codebase.ofFiles files)).edges, e.target = seed ∧ e.source = b := by
  rw [mem_neighbors]
  constructor
  · rintro ⟨_, e, he, ⟨hsource, _⟩ | ⟨hsource, htarget⟩⟩
    · obtain ⟨n, hn, hid⟩ := exists_source he
      exact absurd (hid.trans hsource) (hseed n hn)
    · exact ⟨e, he, htarget, hsource⟩
  · rintro ⟨e, he, htarget, rfl⟩
    obtain ⟨n, hn, hid⟩ := exists_source he
    exact ⟨hid ▸ hseed n hn, e, he, .inr ⟨rfl, htarget⟩⟩

theorem leadsToFile_iff {id : Text} :
    (ofCodebase (Codebase.ofFiles files)).LeadsToFile id ↔
      ∃ path, path ≠ seed ∧ (ofCodebase (Codebase.ofFiles files)).step seed id = .file path := by
  simp only [step_eq_file_iff]
  constructor
  · rintro ⟨n, hn, hlands⟩
    have hmem : n ∈ (ofCodebase (Codebase.ofFiles files)).nodes := List.mem_of_find?_eq_some hn
    by_cases hkind : n.kind = .file
    · exact ⟨id, id_of_node? hn ▸ hseed n hmem, n, hn, .inl ⟨hkind, rfl⟩⟩
    · obtain ⟨path, hpath, hne, hfile⟩ := hlands.resolve_left hkind
      have hother : path ≠ seed := fun he => path_ne_outsider hseed hmem (he ▸ hpath)
      exact ⟨path, hother, n, hn, .inr ⟨hkind, hpath, hother, hne, hfile⟩⟩
  · rintro ⟨path, _, n, hn, ⟨hkind, _⟩ | ⟨_, hpath, _, hne, hfile⟩⟩
    · exact ⟨n, hn, .inl hkind⟩
    · exact ⟨n, hn, .inr ⟨path, hpath, hne, hfile⟩⟩

theorem adjacentFiles_outsider_iff :
    (ofCodebase (Codebase.ofFiles files)).adjacentFiles seed = [] ↔
      ∀ e ∈ (ofCodebase (Codebase.ofFiles files)).edges, e.target = seed →
        ¬ (ofCodebase (Codebase.ofFiles files)).LeadsToFile e.source := by
  simp only [List.eq_nil_iff_forall_not_mem, mem_adjacentFiles, leadsToFile_iff hseed]
  constructor
  · rintro h e he htarget ⟨path, hne, hstep⟩
    obtain ⟨n, hn, hid⟩ := exists_source he
    have hsource := (mem_neighbors_outsider hseed).2 ⟨e, he, htarget, rfl⟩
    exact h path ⟨hne, seed, e.source, .start, hsource, hid ▸ hseed n hn, hstep⟩
  · rintro h path ⟨hne, a, b, ha, hb, _, hstep⟩
    rw [(inside_outsider_iff hseed).1 ha] at hb
    obtain ⟨e, he, htarget, rfl⟩ := (mem_neighbors_outsider hseed).1 hb
    exact h e he htarget ⟨path, hne, hstep⟩

/-- The edges that end in such a name are those that were meant to lead elsewhere. -/
theorem exists_edge_outsider_iff :
    (∃ e ∈ (ofCodebase (Codebase.ofFiles files)).edges, e.target = seed) ↔
      (Codebase.ofFiles files).Mentions seed := by
  constructor
  · rintro ⟨e, he, htarget⟩
    rcases mem_edges_ofCodebase.1 he with ⟨f, hf, he⟩ | ⟨d, hd, rfl⟩
    · obtain ⟨d, hd, rfl | he⟩ := mem_edgesOf.1 he
      · exact absurd htarget (hseed _ (mem_nodes_ofCodebase.2 ⟨f, hf, .inr ⟨d, hd, rfl⟩⟩))
      · rw [heritage_eq] at he
        obtain ⟨base, hbase, rfl⟩ := List.mem_map.1 he
        rcases classTarget_cases (Codebase.ofFiles files) base.2 with ⟨id, hids, hto⟩ | ⟨hids, hto⟩
        · obtain ⟨n, hn, hid⟩ := exists_node_of_mem_classIds (hids ▸ List.mem_singleton_self id)
          exact absurd (hid.trans (hto.symm.trans htarget)) (hseed n hn)
        · have hname : base.2 = seed := hto.symm.trans htarget
          exact .inr ⟨f, hf, d, hd, base, hbase, hname, hname ▸ hids⟩
    · rw [target_dependencyEdge (link_of_mem_dependencies hd)] at htarget
      cases hr : Specifier.resolve d.importer d.target (Codebase.ofFiles files).paths with
      | none =>
        rw [hr] at htarget
        exact .inl ⟨d, hd, htarget, hr⟩
      | some path =>
        rw [hr] at htarget
        exact absurd (htarget ▸ Specifier.mem_of_resolve hr) (not_mem_paths_of_outsider hseed)
  · rintro (⟨d, hd, rfl, hr⟩ | ⟨f, hf, d, hd, base, hbase, rfl, hids⟩)
    · refine ⟨_, mem_edges_ofCodebase.2 (.inr ⟨d, hd, rfl⟩), ?_⟩
      rw [target_dependencyEdge (link_of_mem_dependencies hd), hr, Option.getD_none]
    · refine ⟨baseEdge (Codebase.ofFiles files) (d.id f.path) base,
        mem_edges_ofCodebase.2 (.inl ⟨f, hf, mem_edgesOf.2 ⟨d, hd, .inr ?_⟩⟩), ?_⟩
      · rw [heritage_eq]
        exact List.mem_map_of_mem hbase
      · rcases classTarget_cases (Codebase.ofFiles files) base.2 with ⟨id, hid, _⟩ | ⟨_, hto⟩
        · exact absurd hid (hids id)
        · exact hto

end

/-- With clear ids and paths that are not empty, every edge comes from a file. -/
theorem leadsToFile_source {files : List SourceFile} (hs : (Codebase.ofFiles files).Separate)
    (hp : ∀ f ∈ (Codebase.ofFiles files).files, f.path ≠ []) {e : Edge}
    (he : e ∈ (ofCodebase (Codebase.ofFiles files)).edges) :
    (ofCodebase (Codebase.ofFiles files)).LeadsToFile e.source := by
  have hc := Codebase.clearIds_ofFiles hs
  obtain ⟨n, hn, hid⟩ := exists_source he
  obtain ⟨m, hm, hpath, hkind⟩ := node?_of_mem_nodes hc hn
  refine ⟨m, hid ▸ hm, ?_⟩
  obtain ⟨f, hf, rfl | ⟨d, _, rfl⟩⟩ := mem_nodes_ofCodebase.1 hn
  · exact .inl (hkind.2 rfl)
  · have hfile : f.path ∈ (Codebase.ofFiles files).paths := Codebase.mem_paths.2 ⟨f, hf, rfl⟩
    exact .inr ⟨f.path, hpath, hp f hf, (isFile_iff_mem_paths hc).2 hfile⟩

structure RelatedByName (c : Codebase) (name : Text) (hops : Nat) : Prop where
  related : (ofCodebase c).related name hops = [] ↔ hops = 0 ∨
    ∀ e ∈ (ofCodebase c).edges, e.target = name → ¬ (ofCodebase c).LeadsToFile e.source
  selected : name ≠ [] → ∃ paths,
    Retrieval.select queries hops .file (some name) c (ofCodebase c) = .ok paths ∧
    ((∀ path ∈ paths, path ∉ c.paths) ↔ (ofCodebase c).related name hops = [])
  mentioned : (∃ e ∈ (ofCodebase c).edges, e.target = name) ↔ c.Mentions name
  sources : c.Separate → (∀ f ∈ c.files, f.path ≠ []) →
    ∀ e ∈ (ofCodebase c).edges, (ofCodebase c).LeadsToFile e.source

/-- Files are related to a name without a node iff it ends edges from files. -/
theorem relatedByName_outsider {files : List SourceFile} {seed : Text}
    (hseed : ∀ n ∈ (ofCodebase (Codebase.ofFiles files)).nodes, n.id ≠ seed) (hops : Nat) :
    RelatedByName (Codebase.ofFiles files) seed hops := by
  constructor
  case related => rw [related_eq_nil_iff, adjacentFiles_outsider_iff hseed]
  case selected =>
    intro hne
    refine ⟨(ofCodebase (Codebase.ofFiles files)).related seed hops ++ [seed], ?_, ?_⟩
    · simp [Retrieval.select, queries, Except.map, hne]
    · constructor
      · intro h
        refine List.eq_nil_iff_forall_not_mem.2 fun path hpath => ?_
        exact h path (List.mem_append_left _ hpath) (mem_paths_of_related hpath)
      · intro h path hpath
        rw [h, List.nil_append, List.mem_singleton] at hpath
        exact hpath ▸ not_mem_paths_of_outsider hseed
  case mentioned => exact exists_edge_outsider_iff hseed
  case sources => exact fun hs hp e he => leadsToFile_source hs hp he

def packageFiles : List SourceFile := [⟨"a.ts", "typescript", "import React from 'react';\n"⟩]

theorem relatedByName_package :
    let c := Codebase.ofFiles packageFiles
    (∀ n ∈ (ofCodebase c).nodes, n.id ≠ "react") ∧ c.Mentions "react" ∧
      RelatedByName c "react" 2 := by
  have hseed : ∀ n ∈ (ofCodebase (Codebase.ofFiles packageFiles)).nodes, n.id ≠ "react" := by
    decide +kernel
  have hedge : ∃ e ∈ (ofCodebase (Codebase.ofFiles packageFiles)).edges, e.target = "react" := by
    decide +kernel
  have h := relatedByName_outsider hseed 2
  exact ⟨hseed, h.mentioned.1 hedge, h⟩

/-- The file is related to the package, and selected for it. -/
theorem not_related_nil_package :
    (∀ n ∈ (ofCodebase (Codebase.ofFiles packageFiles)).nodes, n.id ≠ "react") ∧
    (ofCodebase (Codebase.ofFiles packageFiles)).related "react" 2 = (["a.ts"] : List Text) ∧
    Retrieval.select queries 2 .file (some "react") (Codebase.ofFiles packageFiles)
      (ofCodebase (Codebase.ofFiles packageFiles)) = .ok (["a.ts", "react"] : List Text) := by
  have hrelated : (ofCodebase (Codebase.ofFiles packageFiles)).related "react" 2 =
      (["a.ts"] : List Text) := by decide +kernel
  refine ⟨by decide +kernel, hrelated, ?_⟩
  simp only [Retrieval.select, queries, Option.getD_some, hrelated]
  rfl

end Graph

end CodeAtlas
