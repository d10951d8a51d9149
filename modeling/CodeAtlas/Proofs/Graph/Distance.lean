import CodeAtlas.Proofs.Graph.Ids
import CodeAtlas.Proofs.Graph.Reach
import Mathlib.Combinatorics.SimpleGraph.Metric

/-!
Related files are near files. Every node belongs to one file, and two files are joined if some edge
leads from a node of the one to a node of the other. The files related to a file are those within
the given distance of it.
-/

set_option autoImplicit false

namespace CodeAtlas.Graph

/-- A file node belongs to itself, and a declaration to its file. -/
def Owns (g : Graph) (path id : Text) : Prop :=
  ∃ n ∈ g.nodes, n.id = id ∧ if n.kind = .file then id = path else n.path = some path

/-- Files joined by an edge, in whichever direction. -/
def fileGraph (g : Graph) : SimpleGraph Text where
  Adj a b := a ≠ b ∧ ∃ e ∈ g.edges,
    (Owns g a e.source ∧ Owns g b e.target) ∨ (Owns g b e.source ∧ Owns g a e.target)
  symm := by
    constructor
    rintro a b ⟨hab, e, he, h⟩
    exact ⟨hab.symm, e, he, h.symm⟩
  loopless := ⟨fun a h => h.1 rfl⟩

theorem owns_self {c : Codebase} {path : Text} (h : path ∈ c.paths) :
    Owns (ofCodebase c) path path := by
  obtain ⟨f, hf, rfl⟩ := Codebase.mem_paths.1 h
  exact ⟨fileNode f, mem_nodes_ofCodebase.2 ⟨f, hf, .inl rfl⟩, rfl, by simp⟩

theorem owns_of_step_file {g : Graph} {file path id : Text} (h : g.step file id = .file path) :
    Owns g path id := by
  obtain ⟨n, hn, ⟨hk, rfl⟩ | ⟨hk, hpath, _⟩⟩ := step_eq_file_iff.1 h
  · exact ⟨n, List.mem_of_find?_eq_some hn, id_of_node? hn, by simp [hk]⟩
  · exact ⟨n, List.mem_of_find?_eq_some hn, id_of_node? hn, by simp [hk, hpath]⟩

section ClearIds

variable {c : Codebase} (hc : c.ClearIds)
include hc

theorem owns_iff {path id : Text} :
    Owns (ofCodebase c) path id ↔
      ∃ n, (ofCodebase c).node? id = some n ∧ n.path = some path := by
  constructor
  · rintro ⟨n, hn, rfl, ho⟩
    obtain ⟨m, hm, hpath, _⟩ := node?_of_mem_nodes hc hn
    refine ⟨m, hm, ?_⟩
    by_cases hk : n.kind = .file
    · rw [if_pos hk] at ho
      obtain ⟨f, _, rfl | ⟨d, _, rfl⟩⟩ := mem_nodes_ofCodebase.1 hn
      · rw [hpath, path_fileNode, ← ho, id_fileNode]
      · exact absurd hk (Declaration.kind_node_ne_file f.path d)
    · rw [if_neg hk] at ho
      rw [hpath, ho]
  · rintro ⟨n, hn, hpath⟩
    have hid := id_of_node? hn
    have hmem : n ∈ (ofCodebase c).nodes := List.mem_of_find?_eq_some hn
    refine ⟨n, hmem, hid, ?_⟩
    obtain ⟨f, _, rfl | ⟨d, _, rfl⟩⟩ := mem_nodes_ofCodebase.1 hmem
    · rw [if_pos (kind_fileNode f), ← hid, id_fileNode]
      exact Option.some.inj hpath
    · rw [if_neg (Declaration.kind_node_ne_file f.path d)]
      exact hpath

theorem Owns.unique {p q id : Text} (hp : Owns (ofCodebase c) p id)
    (hq : Owns (ofCodebase c) q id) : p = q := by
  obtain ⟨n, hn, hnp⟩ := (owns_iff hc).1 hp
  obtain ⟨m, hm, hmq⟩ := (owns_iff hc).1 hq
  obtain rfl : n = m := Option.some.inj (hn.symm.trans hm)
  exact Option.some.inj (hnp.symm.trans hmq)

theorem Owns.mem_paths {path id : Text} (h : Owns (ofCodebase c) path id) : path ∈ c.paths := by
  obtain ⟨n, hn, hpath⟩ := (owns_iff hc).1 h
  obtain ⟨f, hf, rfl | ⟨d, _, rfl⟩⟩ := mem_nodes_ofCodebase.1 (List.mem_of_find?_eq_some hn)
  · exact Codebase.mem_paths.2 ⟨f, hf, Option.some.inj hpath⟩
  · exact Codebase.mem_paths.2 ⟨f, hf, Option.some.inj hpath⟩

/-- Landing on another file, or on a declaration of another file, leads to that file. -/
theorem step_of_owns (hp : ∀ path ∈ c.paths, path ≠ []) {file path id : Text}
    (ho : Owns (ofCodebase c) path id) (hne : path ≠ file) :
    (ofCodebase c).step file id = .file path := by
  obtain ⟨n, hn, hpath⟩ := (owns_iff hc).1 ho
  have hmem : path ∈ c.paths := ho.mem_paths hc
  have hfile : (ofCodebase c).isFile path = true := (isFile_iff_mem_paths hc).2 hmem
  have hid := id_of_node? hn
  refine step_eq_file_iff.2 ⟨n, hn, ?_⟩
  obtain ⟨f, _, rfl | ⟨d, _, rfl⟩⟩ := mem_nodes_ofCodebase.1 (List.mem_of_find?_eq_some hn)
  · exact .inl ⟨rfl, hid ▸ Option.some.inj hpath⟩
  · exact .inr ⟨Declaration.kind_node_ne_file f.path d, hpath, hne, hp path hmem, hfile⟩

/-- Every declaration is walked through, for its file contains it. -/
theorem inside_iff_owns {file id : Text} (hfile : file ∈ c.paths) :
    Inside (ofCodebase c) file id ↔ Owns (ofCodebase c) file id := by
  constructor
  · intro h
    cases h with
    | start => exact owns_self hfile
    | step _ _ hi =>
      obtain ⟨_, n, hn, hk, hpath⟩ := step_eq_inside_iff.1 hi
      exact ⟨n, List.mem_of_find?_eq_some hn, id_of_node? hn, by simp [hk, hpath]⟩
  · rintro ⟨n, hn, rfl, ho⟩
    obtain ⟨m, hm, hmp, hmk⟩ := node?_of_mem_nodes hc hn
    obtain ⟨f, hf, rfl | ⟨d, hd, rfl⟩⟩ := mem_nodes_ofCodebase.1 hn
    · rw [if_pos (kind_fileNode f)] at ho
      exact ho ▸ .start
    · have hk := Declaration.kind_node_ne_file f.path d
      rw [if_neg hk] at ho
      obtain rfl : f.path = file := Option.some.inj ho
      have hne : d.id f.path ≠ f.path :=
        (hc.separate f hf f hf d (Declaration.mem_all_of_mem_owning hd)).symm
      have hedge : (⟨f.path, d.id f.path, .contains, none⟩ : Edge) ∈ (ofCodebase c).edges := by
        refine mem_edges_ofCodebase.2 (.inl ⟨f, hf, ?_⟩)
        exact List.mem_flatMap.2 ⟨d, hd, .head _⟩
      refine .step .start (mem_neighbors.2 ⟨hne, _, hedge, .inl ⟨rfl, rfl⟩⟩) ?_
      exact step_eq_inside_iff.2 ⟨rfl, m, hm, fun h => hk (hmk.1 h), hmp⟩

theorem mem_adjacentFiles_iff_adj (hp : ∀ path ∈ c.paths, path ≠ []) {file path : Text}
    (hf : file ∈ c.paths) :
    path ∈ (ofCodebase c).adjacentFiles file ↔ (ofCodebase c).fileGraph.Adj file path := by
  rw [mem_adjacentFiles]
  constructor
  · rintro ⟨hne, a, b, ha, hb, _, hstep⟩
    have hoa := (inside_iff_owns hc hf).1 ha
    have hob := owns_of_step_file hstep
    obtain ⟨_, e, he, ⟨rfl, rfl⟩ | ⟨rfl, rfl⟩⟩ := mem_neighbors.1 hb
    · exact ⟨hne.symm, e, he, .inl ⟨hoa, hob⟩⟩
    · exact ⟨hne.symm, e, he, .inr ⟨hob, hoa⟩⟩
  · rintro ⟨hne, e, he, h⟩
    have land : ∀ a b, Owns (ofCodebase c) file a → Owns (ofCodebase c) path b →
        (e.source = a ∧ e.target = b) ∨ (e.source = b ∧ e.target = a) →
        ∃ a b, Inside (ofCodebase c) file a ∧ b ∈ (ofCodebase c).neighbors a ∧ b ≠ file ∧
          (ofCodebase c).step file b = .file path := by
      intro a b hoa hob hab
      have hba : b ≠ a := fun heq => hne (hoa.unique hc (heq ▸ hob))
      have hbf : b ≠ file := fun heq => hne ((owns_self hf).unique hc (heq ▸ hob))
      exact ⟨a, b, (inside_iff_owns hc hf).2 hoa, mem_neighbors.2 ⟨hba, e, he, hab⟩, hbf,
        step_of_owns hc hp hob hne.symm⟩
    refine ⟨hne.symm, ?_⟩
    rcases h with ⟨hs, ht⟩ | ⟨hs, ht⟩
    · exact land _ _ hs ht (.inl ⟨rfl, rfl⟩)
    · exact land _ _ ht hs (.inr ⟨rfl, rfl⟩)

theorem mem_paths_of_adj {a b : Text} (h : (ofCodebase c).fileGraph.Adj a b) : b ∈ c.paths := by
  obtain ⟨_, e, _, ⟨_, hb⟩ | ⟨hb, _⟩⟩ := h
  · exact hb.mem_paths hc
  · exact hb.mem_paths hc

theorem exists_walk_of_hops (hp : ∀ path ∈ c.paths, path ≠ []) {n : Nat} {a b : Text}
    (ha : a ∈ c.paths) (h : Hops (ofCodebase c) n a b) :
    b ∈ c.paths ∧ ∃ w : (ofCodebase c).fileGraph.Walk a b, w.length = n := by
  induction h with
  | zero a => exact ⟨ha, .nil, rfl⟩
  | succ hab _ ih =>
    have hadj := (mem_adjacentFiles_iff_adj hc hp ha).1 hab
    obtain ⟨hb, w, hw⟩ := ih (mem_paths_of_adj hc hadj)
    exact ⟨hb, .cons hadj w, by simp [hw]⟩

theorem hops_of_walk (hp : ∀ path ∈ c.paths, path ≠ []) {a b : Text} (ha : a ∈ c.paths)
    (w : (ofCodebase c).fileGraph.Walk a b) : Hops (ofCodebase c) w.length a b := by
  induction w with
  | nil => exact .zero _
  | cons hadj w ih =>
    exact .succ ((mem_adjacentFiles_iff_adj hc hp ha).2 hadj) (ih (mem_paths_of_adj hc hadj))

theorem mem_related_ofCodebase (hp : ∀ path ∈ c.paths, path ≠ []) {seed path : Text}
    (hs : seed ∈ c.paths) (hops : Nat) :
    path ∈ (ofCodebase c).related seed hops ↔ path ∈ c.paths ∧
      1 ≤ (ofCodebase c).fileGraph.edist seed path ∧
      (ofCodebase c).fileGraph.edist seed path ≤ hops := by
  rw [mem_related, Order.one_le_iff_ne_zero]
  constructor
  · rintro ⟨hne, n, hn, h⟩
    obtain ⟨hpath, w, hw⟩ := exists_walk_of_hops hc hp hs h
    refine ⟨hpath, fun h0 => hne (SimpleGraph.edist_eq_zero_iff.1 h0).symm, ?_⟩
    calc (ofCodebase c).fileGraph.edist seed path
      _ ≤ w.length := SimpleGraph.edist_le w
      _ ≤ hops := by rw [hw]; exact_mod_cast hn
  · rintro ⟨_, h0, hle⟩
    obtain ⟨w, hw⟩ := SimpleGraph.exists_walk_of_edist_ne_top (ne_top_of_le_ne_top (by simp) hle)
    refine ⟨fun he => h0 (SimpleGraph.edist_eq_zero_iff.2 he.symm), w.length, ?_,
      hops_of_walk hc hp hs w⟩
    rw [← hw] at hle
    exact_mod_cast hle

end ClearIds

/-- The files related to a file of the codebase are those at a distance from one up to the number of
hops, and relation is mutual. -/
theorem mem_related_iff_edist {files : List SourceFile} (hp : ∀ f ∈ files, f.path ≠ [])
    (hs : (Codebase.ofFiles files).Separate) {seed : Text} (hseed : seed ∈ files.map (·.path))
    (hops : Nat) :
    let g := ofCodebase (Codebase.ofFiles files)
    (∀ path, path ∈ g.related seed hops ↔ path ∈ files.map (·.path) ∧
      1 ≤ g.fileGraph.edist seed path ∧ g.fileGraph.edist seed path ≤ hops) ∧
    ∀ path ∈ files.map (·.path),
      (path ∈ g.related seed hops ↔ seed ∈ g.related path hops) := by
  have hc := Codebase.clearIds_ofFiles hs
  have hpaths : ∀ path ∈ (Codebase.ofFiles files).paths, path ≠ [] := by
    simpa using hp
  rw [← Codebase.paths_ofFiles] at hseed ⊢
  refine ⟨fun path => mem_related_ofCodebase hc hpaths hseed hops, fun path hpath => ?_⟩
  rw [mem_related_ofCodebase hc hpaths hseed, mem_related_ofCodebase hc hpaths hpath,
    SimpleGraph.edist_comm]
  simp only [hseed, hpath, true_and]

theorem mem_related_sampleFiles :
    let files := Codebase.sampleFiles
    let g := ofCodebase (Codebase.ofFiles files)
    (∀ f ∈ files, f.path ≠ []) ∧ (Codebase.ofFiles files).Separate ∧
    ("a.py" : Text) ∈ files.map (·.path) ∧
    (∀ path, path ∈ g.related "a.py" 2 ↔ path ∈ files.map (·.path) ∧
      1 ≤ g.fileGraph.edist "a.py" path ∧ g.fileGraph.edist "a.py" path ≤ (2 : Nat)) ∧
    ∀ path ∈ files.map (·.path), (path ∈ g.related "a.py" 2 ↔ ("a.py" : Text) ∈ g.related path 2) := by
  have hp : ∀ f ∈ Codebase.sampleFiles, f.path ≠ [] := by decide
  have hs : (Codebase.ofFiles Codebase.sampleFiles).Separate := by decide +kernel
  have hseed : ("a.py" : Text) ∈ Codebase.sampleFiles.map (·.path) := by decide
  exact ⟨hp, hs, hseed, mem_related_iff_edist hp hs hseed 2⟩

end CodeAtlas.Graph
