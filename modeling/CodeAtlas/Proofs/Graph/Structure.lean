import CodeAtlas.Proofs.Codebase.Resolution
import CodeAtlas.Proofs.Graph.Ids
import Mathlib.Data.List.Forall2

set_option autoImplicit false

namespace CodeAtlas

theorem flatMap_eq_of_nodup_map {α β κ : Type} {key : α → κ} {xs : List α}
    (hn : (xs.map key).Nodup) {x : α} (hx : x ∈ xs) {g : α → List β}
    (h : ∀ y ∈ xs, key y ≠ key x → g y = []) : xs.flatMap g = g x := by
  induction xs with
  | nil => simp at hx
  | cons y rest ih =>
    obtain ⟨hy, hr⟩ := List.nodup_cons.1 hn
    rw [List.flatMap_cons]
    rcases List.mem_cons.1 hx with rfl | hx
    · have hnil : rest.flatMap g = [] := by
        rw [List.flatMap_eq_nil_iff]
        intro z hz
        exact h z (.tail _ hz) fun he => hy (he ▸ List.mem_map_of_mem hz)
      rw [hnil, List.append_nil]
    · have hne : key y ≠ key x := fun he => hy (he ▸ List.mem_map_of_mem hx)
      rw [h y (.head _) hne, List.nil_append]
      exact ih hr hx fun z hz => h z (.tail _ hz)

namespace Graph

/-- An edge stands for a dependency: it leads to the file that is meant, or else to the bare
specifier. -/
structure Carries (c : Codebase) (g : Graph) (d : Dependency) (e : Edge) : Prop where
  source : e.source = d.importer
  weight : e.weight = some 1
  isFile : g.isFile e.target = (Specifier.resolve d.importer d.target c.paths).isSome
  target : e.target = (Specifier.resolve d.importer d.target c.paths).getD d.target

def declarationNodes (g : Graph) (path name : Text) : List Node :=
  g.nodes.filter fun n => n.kind ≠ .file ∧ n.path = some path ∧ n.name = name

structure WellFormed (files : List SourceFile) (g : Graph) : Prop where
  nodup_ids : (g.nodes.map (·.id)).Nodup
  fileNodes : g.fileNodes.map (·.id) = files.map (·.path)
  declared : ∀ f ∈ (Codebase.ofFiles files).files, ∀ d ∈ Declaration.all f, ∃ first n,
    (Declaration.all f).find? (fun e => e.name = d.name) = some first ∧
    g.declarationNodes f.path d.name = [n] ∧
    n.id = Declaration.idOf f.path d.name ∧ n.kind = first.kind ∧
    (g.incoming n.id (some .contains)).map (·.source) = [f.path]
  onlyDeclared : ∀ n ∈ g.nodes, n.kind ≠ .file →
    ∃ f ∈ (Codebase.ofFiles files).files, ∃ d ∈ Declaration.all f,
      n.path = some f.path ∧ n.name = d.name
  sources : ∀ e ∈ g.edges, ∃ n ∈ g.nodes, n.id = e.source
  imports : List.Forall₂ (Carries (Codebase.ofFiles files) g) (Codebase.ofFiles files).dependencies
    (g.edges.filter fun e => e.link = .imports)

theorem fileNodes_ofCodebase (c : Codebase) : (ofCodebase c).fileNodes = c.files.map fileNode := by
  have hf : ∀ f : ParsedFile, (nodesOf f).filter (fun n => n.kind = .file) = [fileNode f] := by
    intro f
    have hd : ∀ n ∈ (Declaration.owning f).map (·.node f.path), ¬ n.kind = .file := by
      intro n hn
      obtain ⟨d, _, rfl⟩ := List.mem_map.1 hn
      exact Declaration.kind_node_ne_file f.path d
    rw [nodesOf, List.filter_cons_of_pos (by simp), List.filter_eq_nil_iff.2 (by simpa using hd)]
  simp only [fileNodes, ofCodebase, List.filter_flatMap, hf, List.map_eq_flatMap]

theorem declarationNodes_ofCodebase {c : Codebase} (hp : c.paths.Nodup) {f : ParsedFile}
    (hf : f ∈ c.files) (name : Text) :
    (ofCodebase c).declarationNodes f.path name =
      (((Declaration.all f).find? fun d => d.name = name).toList).map (·.node f.path) := by
  have other : ∀ g ∈ c.files, g.path ≠ f.path →
      (nodesOf g).filter (fun n => n.kind ≠ .file ∧ n.path = some f.path ∧ n.name = name) = [] := by
    intro g _ hne
    rw [List.filter_eq_nil_iff]
    intro n hn
    simp [path_of_mem_nodesOf hn, hne]
  rw [declarationNodes, ofCodebase, List.filter_flatMap, flatMap_eq_of_nodup_map hp hf other,
    ← Declaration.filter_owning, nodesOf, List.filter_cons_of_neg (by simp), List.filter_map]
  congr 1
  refine List.filter_congr fun d _ => decide_eq_decide.2 ?_
  simp [Declaration.kind_node_ne_file]

theorem link_of_mem_heritage {c : Codebase} {path : Text} {d : Declaration} {e : Edge}
    (h : e ∈ heritage c path d) : e.link = .inherits ∨ e.link = .implements := by
  cases d with
  | function f => simp [heritage] at h
  | type t =>
    rcases List.mem_append.1 h with h | h
    · obtain ⟨p, _, rfl⟩ := List.mem_map.1 h
      exact .inl rfl
    · obtain ⟨i, _, rfl⟩ := List.mem_map.1 h
      exact .inr rfl

theorem source_of_mem_heritage {c : Codebase} {path : Text} {d : Declaration} {e : Edge}
    (h : e ∈ heritage c path d) : e.source = d.id path := by
  cases d with
  | function f => simp [heritage] at h
  | type t =>
    rcases List.mem_append.1 h with h | h
    · obtain ⟨p, _, rfl⟩ := List.mem_map.1 h
      rfl
    · obtain ⟨i, _, rfl⟩ := List.mem_map.1 h
      rfl

theorem mem_edgesOf {c : Codebase} {f : ParsedFile} {e : Edge} :
    e ∈ edgesOf c f ↔ ∃ d ∈ Declaration.owning f,
      e = ⟨f.path, d.id f.path, .contains, none⟩ ∨ e ∈ heritage c f.path d := by
  simp [edgesOf]

theorem incoming_contains_edgesOf (c : Codebase) (f : ParsedFile) (id : Text) :
    (edgesOf c f).filter (fun e => e.target = id && (some Link.contains).all (· = e.link)) =
      ((Declaration.owning f).filter fun d => d.id f.path = id).map fun d =>
        ⟨f.path, d.id f.path, .contains, none⟩ := by
  unfold edgesOf
  induction Declaration.owning f with
  | nil => rfl
  | cons d rest ih =>
    have hh : (heritage c f.path d).filter
        (fun e => e.target = id && (some Link.contains).all (· = e.link)) = [] := by
      rw [List.filter_eq_nil_iff]
      intro e he
      rcases link_of_mem_heritage he with hl | hl <;> simp [hl]
    rw [List.flatMap_cons, List.filter_append, List.filter_cons, hh, ih]
    by_cases hd : d.id f.path = id <;> simp [hd]

theorem link_of_mem_dependencies {files : List SourceFile} {d : Dependency}
    (h : d ∈ (Codebase.ofFiles files).dependencies) : d.link = .imports := by
  obtain ⟨f, _, hd⟩ := List.mem_flatMap.1 h
  obtain ⟨i, _, rfl⟩ := List.mem_map.1 hd
  rfl

theorem importer_mem_paths {files : List SourceFile} {d : Dependency}
    (h : d ∈ (Codebase.ofFiles files).dependencies) :
    d.importer ∈ (Codebase.ofFiles files).paths := by
  obtain ⟨f, hf, hd⟩ := List.mem_flatMap.1 h
  obtain ⟨i, _, rfl⟩ := List.mem_map.1 hd
  exact List.mem_map_of_mem hf

theorem exists_find?_name {f : ParsedFile} {d : Declaration} (hd : d ∈ Declaration.all f) :
    ∃ first, (Declaration.all f).find? (fun e => e.name = d.name) = some first := by
  cases h : (Declaration.all f).find? fun e => e.name = d.name with
  | none =>
    have hno := List.find?_eq_none.1 h d hd
    simp at hno
  | some first => exact ⟨first, rfl⟩

theorem filter_id_owning {f : ParsedFile} (hcolon : ∀ d ∈ Declaration.all f, ':' ∉ d.name)
    {d : Declaration} (hd : d ∈ Declaration.all f) :
    (Declaration.owning f).filter (fun o => o.id f.path = d.id f.path) =
      ((Declaration.all f).find? fun o => o.name = d.name).toList := by
  have hsame : ∀ o ∈ Declaration.owning f, (o.id f.path = d.id f.path ↔ o.name = d.name) := by
    intro o ho
    have hoc := hcolon o (Declaration.mem_all_of_mem_owning ho)
    constructor
    · exact fun h => (Declaration.idOf_injective hoc (hcolon d hd) h).2
    · exact fun h => congrArg (Declaration.idOf f.path) h
  rw [← Declaration.filter_owning]
  exact List.filter_congr fun o ho => decide_eq_decide.2 (hsame o ho)

/-- The edges that contain a declaration come from the file that declares it. -/
theorem incoming_contains {c : Codebase} (hc : c.ClearIds) (hp : c.paths.Nodup)
    (hl : ∀ d ∈ c.dependencies, d.link = .imports) {f : ParsedFile} (hf : f ∈ c.files)
    {d : Declaration} (hd : d ∈ Declaration.all f) :
    ((ofCodebase c).incoming (d.id f.path) (some .contains)).map (·.source) = [f.path] := by
  have hdc := hc.colon_not_mem f hf d hd
  have other : ∀ g ∈ c.files, g.path ≠ f.path → (edgesOf c g).filter (fun e =>
      e.target = d.id f.path && (some Link.contains).all (· = e.link)) = [] := by
    intro g hg hne
    rw [incoming_contains_edgesOf, List.map_eq_nil_iff, List.filter_eq_nil_iff]
    intro o ho hid
    have hoc := hc.colon_not_mem g hg o (Declaration.mem_all_of_mem_owning ho)
    exact hne (Declaration.idOf_injective hoc hdc (of_decide_eq_true hid)).1
  have imported : (c.dependencies.map (dependencyEdge c.paths)).filter (fun e =>
      e.target = d.id f.path && (some Link.contains).all (· = e.link)) = [] := by
    rw [List.filter_eq_nil_iff]
    intro e he
    obtain ⟨i, hi, rfl⟩ := List.mem_map.1 he
    simp [dependencyEdge, hl i hi]
  obtain ⟨first, hfirst⟩ := exists_find?_name hd
  rw [incoming, ofCodebase, List.filter_append, imported, List.append_nil, List.filter_flatMap,
    flatMap_eq_of_nodup_map hp hf other, incoming_contains_edgesOf,
    filter_id_owning (hc.colon_not_mem f hf) hd, hfirst]
  rfl

theorem exists_source {files : List SourceFile} {e : Edge}
    (h : e ∈ (ofCodebase (Codebase.ofFiles files)).edges) :
    ∃ n ∈ (ofCodebase (Codebase.ofFiles files)).nodes, n.id = e.source := by
  have file : ∀ path ∈ (Codebase.ofFiles files).paths,
      ∃ n ∈ (ofCodebase (Codebase.ofFiles files)).nodes, n.id = path := by
    intro path hpath
    obtain ⟨f, hf, rfl⟩ := Codebase.mem_paths.1 hpath
    exact ⟨fileNode f, mem_nodes_ofCodebase.2 ⟨f, hf, .inl rfl⟩, rfl⟩
  rcases mem_edges_ofCodebase.1 h with ⟨f, hf, he⟩ | ⟨d, hd, rfl⟩
  · obtain ⟨d, hd, rfl | he⟩ := mem_edgesOf.1 he
    · exact file _ (Codebase.mem_paths.2 ⟨f, hf, rfl⟩)
    · refine ⟨d.node f.path, mem_nodes_ofCodebase.2 ⟨f, hf, .inr ⟨d, hd, rfl⟩⟩, ?_⟩
      rw [source_of_mem_heritage he]
      rfl
  · exact file _ (importer_mem_paths hd)

theorem target_dependencyEdge {known : List Text} {d : Dependency} (h : d.link = .imports) :
    (dependencyEdge known d).target =
      (Specifier.resolve d.importer d.target known).getD d.target := by
  cases hr : Specifier.resolve d.importer d.target known with
  | none => simp [dependencyEdge, h, hr]
  | some path =>
    cases path with
    | nil => simpa [dependencyEdge, h, hr] using Specifier.eq_nil_of_resolve hr
    | cons x path => simp [dependencyEdge, h, hr]

theorem not_mem_of_resolve_eq_none {importer specifier : Text} {known : List Text}
    (h : Specifier.resolve importer specifier known = none) : specifier ∉ known := by
  intro hm
  simp [Specifier.resolve, hm] at h

theorem carries_dependencyEdge {c : Codebase} (hc : c.ClearIds) {d : Dependency}
    (h : d.link = .imports) : Carries c (ofCodebase c) d (dependencyEdge c.paths d) := by
  refine ⟨rfl, rfl, ?_, target_dependencyEdge h⟩
  rw [Bool.eq_iff_iff, isFile_iff_mem_paths hc, target_dependencyEdge h]
  cases hr : Specifier.resolve d.importer d.target c.paths with
  | none => simpa using not_mem_of_resolve_eq_none hr
  | some path => simpa using Specifier.mem_of_resolve hr

theorem imports_ofCodebase {c : Codebase} (hl : ∀ d ∈ c.dependencies, d.link = .imports) :
    (ofCodebase c).edges.filter (fun e => e.link = .imports) =
      c.dependencies.map (dependencyEdge c.paths) := by
  have inner : ∀ e ∈ c.files.flatMap (edgesOf c), ¬ e.link = .imports := by
    intro e he
    obtain ⟨f, _, he⟩ := List.mem_flatMap.1 he
    obtain ⟨d, _, rfl | he⟩ := mem_edgesOf.1 he
    · simp
    · rcases link_of_mem_heritage he with h | h <;> simp [h]
  have outer : ∀ e ∈ c.dependencies.map (dependencyEdge c.paths), e.link = .imports := by
    intro e he
    obtain ⟨d, hd, rfl⟩ := List.mem_map.1 he
    exact hl d hd
  rw [ofCodebase, List.filter_append, List.filter_eq_nil_iff.2 (by simpa using inner),
    List.filter_eq_self.2 (by simpa using outer), List.nil_append]

/-- Files with different paths, none of which is the id of a declaration, give a well-formed
graph. -/
theorem wellFormed_ofFiles {files : List SourceFile} (hp : (files.map (·.path)).Nodup)
    (hs : (Codebase.ofFiles files).Separate) :
    WellFormed files (ofCodebase (Codebase.ofFiles files)) := by
  have hc := Codebase.clearIds_ofFiles hs
  have hpaths : (Codebase.ofFiles files).paths.Nodup := by simpa using hp
  have hl : ∀ d ∈ (Codebase.ofFiles files).dependencies, d.link = .imports :=
    fun d hd => link_of_mem_dependencies hd
  constructor
  · exact nodup_ids hc hpaths
  · rw [fileNodes_ofCodebase, List.map_map, ← Codebase.paths_ofFiles]
    rfl
  · intro f hf d hd
    obtain ⟨first, hfirst⟩ := exists_find?_name hd
    have hname : first.name = d.name := by simpa using List.find?_some hfirst
    refine ⟨first, first.node f.path, hfirst, ?_, ?_, rfl, ?_⟩
    · rw [declarationNodes_ofCodebase hpaths hf, hfirst]
      rfl
    · rw [Declaration.id_node, Declaration.id, hname]
    · exact incoming_contains hc hpaths hl hf (List.mem_of_find?_eq_some hfirst)
  · intro n hn hk
    obtain ⟨f, hf, rfl | ⟨d, hd, rfl⟩⟩ := mem_nodes_ofCodebase.1 hn
    · exact absurd rfl hk
    · exact ⟨f, hf, d, Declaration.mem_all_of_mem_owning hd, rfl, rfl⟩
  · exact fun e he => exists_source he
  · rw [imports_ofCodebase hl, List.forall₂_map_right_iff, List.forall₂_same]
    exact fun d hd => carries_dependencyEdge hc (hl d hd)

theorem wellFormed_sampleFiles :
    (Codebase.sampleFiles.map (·.path)).Nodup ∧ (Codebase.ofFiles Codebase.sampleFiles).Separate ∧
    WellFormed Codebase.sampleFiles (ofCodebase (Codebase.ofFiles Codebase.sampleFiles)) := by
  have hp : (Codebase.sampleFiles.map (·.path)).Nodup := by decide
  have hs : (Codebase.ofFiles Codebase.sampleFiles).Separate := by decide +kernel
  exact ⟨hp, hs, wellFormed_ofFiles hp hs⟩

end Graph

end CodeAtlas
