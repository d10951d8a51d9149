import CodeAtlas.Graph.Build
import CodeAtlas.Proofs.Source.Names
import Mathlib.Data.List.Nodup

/-!
The ids of the graph of a codebase. A declared name holds no colon, so the id of a declaration tells
its file and its name. Where no path is such an id, all nodes of an id belong to one file, and they
are either all files or all declarations.
-/

set_option autoImplicit false

namespace CodeAtlas

theorem find?_key {α κ : Type} [DecidableEq κ] {key : α → κ} {xs : List α}
    (hd : (xs.map key).Nodup) {x : α} (hx : x ∈ xs) :
    xs.find? (fun y => key y = key x) = some x := by
  cases h : xs.find? fun y => key y = key x with
  | none =>
    have hno := List.find?_eq_none.1 h x hx
    simp at hno
  | some y =>
    have hy : y ∈ xs := List.mem_of_find?_eq_some h
    have hkey : key y = key x := by simpa using List.find?_some h
    rw [List.inj_on_of_nodup_map hd hy hx hkey]

theorem Declaration.idOf_injective {p q n m : Text} (hn : ':' ∉ n) (hm : ':' ∉ m)
    (h : idOf p n = idOf q m) : p = q ∧ n = m := by
  have hr := congrArg List.reverse h
  simp only [idOf, List.reverse_append] at hr
  have cut : ∀ {t u : Text}, ':' ∉ t →
      (t.reverse ++ (("::" : Text).reverse ++ u)).takeWhile (· != ':') = t.reverse ∧
      (t.reverse ++ (("::" : Text).reverse ++ u)).dropWhile (· != ':') = ':' :: ':' :: u := by
    intro t u ht
    have hp : ∀ x ∈ t.reverse, (x != ':') = true := by
      intro x hx
      have : x ≠ ':' := fun he => ht (he ▸ List.mem_reverse.1 hx)
      simpa using this
    rw [List.takeWhile_append_of_pos hp, List.dropWhile_append_of_pos hp]
    simp
  have hnm : n.reverse = m.reverse := by rw [← (cut hn).1, hr, (cut hm).1]
  have hpq : ':' :: ':' :: p.reverse = ':' :: ':' :: q.reverse := by
    rw [← (cut hn).2, hr, (cut hm).2]
  constructor
  · simpa using hpq
  · simpa using hnm

namespace Codebase

/-- No file has the id of a declaration as its path. -/
def Separate (c : Codebase) : Prop :=
  ∀ f ∈ c.files, ∀ g ∈ c.files, ∀ d ∈ Declaration.all g, f.path ≠ d.id g.path

instance (c : Codebase) : Decidable c.Separate :=
  inferInstanceAs (Decidable (∀ f ∈ c.files, ∀ g ∈ c.files, ∀ d ∈ Declaration.all g,
    f.path ≠ d.id g.path))

def sampleFiles : List SourceFile :=
  [⟨"a.py", "", "from .b import B\nimport os\ndef f(x):\n    pass\nclass f(B):\n    pass\n"⟩,
   ⟨"b.py", "python", "class B(C):\n    pass\n"⟩,
   ⟨"pkg/c.py", "", "class C:\n    pass\n"⟩]

structure ClearIds (c : Codebase) : Prop where
  colon_not_mem : ∀ f ∈ c.files, ∀ d ∈ Declaration.all f, ':' ∉ d.name
  separate : c.Separate

theorem colon_not_mem_ofFiles (files : List SourceFile) :
    ∀ f ∈ (ofFiles files).files, ∀ d ∈ Declaration.all f, ':' ∉ d.name := by
  intro f hf d hd
  obtain ⟨s, _, rfl⟩ := List.mem_map.1 hf
  rcases List.mem_append.1 hd with hd | hd
  · obtain ⟨r, hr, rfl⟩ := List.mem_map.1 hd
    exact (Scan.isName_of_mem_functions hr).colon_not_mem
  · obtain ⟨r, hr, rfl⟩ := List.mem_map.1 hd
    exact (Scan.isName_of_mem_classes hr).colon_not_mem

theorem clearIds_ofFiles {files : List SourceFile} (h : (ofFiles files).Separate) :
    (ofFiles files).ClearIds := ⟨colon_not_mem_ofFiles files, h⟩

theorem mem_paths {c : Codebase} {path : Text} : path ∈ c.paths ↔ ∃ f ∈ c.files, f.path = path :=
  List.mem_map

end Codebase

namespace Declaration

theorem mem_all_of_mem_owning {f : ParsedFile} {d : Declaration} (h : d ∈ owning f) : d ∈ all f :=
  (mem_firstsBy_key h).1

/-- The first declaration of a name owns it, and no other does. -/
theorem filter_owning (f : ParsedFile) (name : Text) :
    (owning f).filter (fun d => d.name = name) =
      ((all f).find? fun d => d.name = name).toList :=
  filter_firstsBy (by simp) (all f)

@[simp] theorem id_node (path : Text) (d : Declaration) : (d.node path).id = d.id path := rfl

@[simp] theorem path_node (path : Text) (d : Declaration) : (d.node path).path = some path := rfl

@[simp] theorem name_node (path : Text) (d : Declaration) : (d.node path).name = d.name := rfl

theorem kind_node_ne_file (path : Text) (d : Declaration) : (d.node path).kind ≠ .file := by
  cases d <;> simp [node, kind]

end Declaration

namespace Graph

@[simp] theorem id_fileNode (f : ParsedFile) : (fileNode f).id = f.path := rfl

@[simp] theorem kind_fileNode (f : ParsedFile) : (fileNode f).kind = .file := rfl

@[simp] theorem path_fileNode (f : ParsedFile) : (fileNode f).path = some f.path := rfl

theorem mem_nodes_ofCodebase {c : Codebase} {n : Node} :
    n ∈ (ofCodebase c).nodes ↔
      ∃ f ∈ c.files, n = fileNode f ∨ ∃ d ∈ Declaration.owning f, n = d.node f.path := by
  simp [ofCodebase, nodesOf, eq_comm]

theorem mem_paths_of_isFile {c : Codebase} {id : Text} (h : (ofCodebase c).isFile id = true) :
    id ∈ c.paths := by
  unfold isFile at h
  cases hn : (ofCodebase c).node? id with
  | none => simp [hn] at h
  | some n =>
    have hk : n.kind = .file := by simpa [hn] using h
    obtain ⟨f, hf, rfl | ⟨d, _, rfl⟩⟩ := mem_nodes_ofCodebase.1 (List.mem_of_find?_eq_some hn)
    · exact Codebase.mem_paths.2 ⟨f, hf, id_of_node? hn⟩
    · exact absurd hk (Declaration.kind_node_ne_file f.path d)

section ClearIds

variable {c : Codebase} (hc : c.ClearIds)
include hc

/-- Nodes of one id belong to one file and are of one sort. -/
theorem path_eq_of_id_eq {n m : Node} (hn : n ∈ (ofCodebase c).nodes)
    (hm : m ∈ (ofCodebase c).nodes) (h : n.id = m.id) :
    n.path = m.path ∧ (n.kind = .file ↔ m.kind = .file) := by
  obtain ⟨f, hf, rfl | ⟨d, hd, rfl⟩⟩ := mem_nodes_ofCodebase.1 hn
  · obtain ⟨g, hg, rfl | ⟨e, he, rfl⟩⟩ := mem_nodes_ofCodebase.1 hm
    · have hp : f.path = g.path := h
      simp [hp]
    · exact absurd h (hc.separate f hf g hg e (Declaration.mem_all_of_mem_owning he))
  · obtain ⟨g, hg, rfl | ⟨e, he, rfl⟩⟩ := mem_nodes_ofCodebase.1 hm
    · exact absurd h.symm (hc.separate g hg f hf d (Declaration.mem_all_of_mem_owning hd))
    · have hdc := hc.colon_not_mem f hf d (Declaration.mem_all_of_mem_owning hd)
      have hec := hc.colon_not_mem g hg e (Declaration.mem_all_of_mem_owning he)
      have hp : f.path = g.path := (Declaration.idOf_injective hdc hec h).1
      have hdk := Declaration.kind_node_ne_file f.path d
      have hek := Declaration.kind_node_ne_file g.path e
      exact ⟨congrArg some hp, iff_of_false hdk hek⟩

theorem node?_of_mem_nodes {n : Node} (hn : n ∈ (ofCodebase c).nodes) :
    ∃ m, (ofCodebase c).node? n.id = some m ∧ m.path = n.path ∧
      (m.kind = .file ↔ n.kind = .file) := by
  cases h : (ofCodebase c).node? n.id with
  | none =>
    have hne := List.find?_eq_none.1 h n hn
    simp at hne
  | some m =>
    have hid := id_of_node? h
    have hm : m ∈ (ofCodebase c).nodes := List.mem_of_find?_eq_some h
    obtain ⟨hp, hk⟩ := path_eq_of_id_eq hc hm hn hid
    exact ⟨m, rfl, hp, hk⟩

theorem isFile_iff_mem_paths {id : Text} : (ofCodebase c).isFile id = true ↔ id ∈ c.paths := by
  refine ⟨mem_paths_of_isFile, fun h => ?_⟩
  obtain ⟨f, hf, rfl⟩ := Codebase.mem_paths.1 h
  obtain ⟨m, hm, _, hk⟩ := node?_of_mem_nodes hc (mem_nodes_ofCodebase.2 ⟨f, hf, .inl rfl⟩)
  simp only [id_fileNode] at hm
  simp [isFile, hm, hk]

end ClearIds

theorem nodup_ids_nodesOf {c : Codebase} (hc : c.ClearIds) {f : ParsedFile} (hf : f ∈ c.files) :
    ((nodesOf f).map (·.id)).Nodup := by
  simp only [nodesOf, List.map_cons, List.map_map, List.nodup_cons]
  constructor
  · intro h
    obtain ⟨d, hd, hid⟩ := List.mem_map.1 h
    exact hc.separate f hf f hf d (Declaration.mem_all_of_mem_owning hd) hid.symm
  · have hn := Declaration.nodup_name_owning f
    refine List.Nodup.map_on ?_ (List.Nodup.of_map _ hn)
    intro d hd e he h
    have hdc := hc.colon_not_mem f hf d (Declaration.mem_all_of_mem_owning hd)
    have hec := hc.colon_not_mem f hf e (Declaration.mem_all_of_mem_owning he)
    exact List.inj_on_of_nodup_map hn hd he (Declaration.idOf_injective hdc hec h).2

theorem nodup_ids {c : Codebase} (hc : c.ClearIds) (hp : c.paths.Nodup) :
    ((ofCodebase c).nodes.map (·.id)).Nodup := by
  have hm : (ofCodebase c).nodes.map (·.id) = c.files.flatMap fun f => (nodesOf f).map (·.id) := by
    simp [ofCodebase, List.map_flatMap]
  rw [hm, List.nodup_flatMap]
  refine ⟨fun f hf => nodup_ids_nodesOf hc hf, ?_⟩
  have hpair : c.files.Pairwise fun f g => f.path ≠ g.path := List.pairwise_map.1 hp
  refine hpair.imp_of_mem ?_
  intro f g hf hg hne id hif hig
  obtain ⟨n, hn, rfl⟩ := List.mem_map.1 hif
  obtain ⟨m, hm, hid⟩ := List.mem_map.1 hig
  have hnp := path_of_mem_nodesOf hn
  have hmp := path_of_mem_nodesOf hm
  have hpath := (path_eq_of_id_eq hc (List.mem_flatMap.2 ⟨g, hg, hm⟩)
    (List.mem_flatMap.2 ⟨f, hf, hn⟩) hid).1
  rw [hnp, hmp] at hpath
  exact hne (Option.some.inj hpath).symm

end Graph

end CodeAtlas
