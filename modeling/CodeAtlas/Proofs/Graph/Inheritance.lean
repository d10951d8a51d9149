import CodeAtlas.Proofs.Codebase.FileOrder
import CodeAtlas.Proofs.Graph.Structure

/-!
Where the edges from a class to its parent and its interfaces lead. A name that the classes of a
single file have means the class of that file, and any other name means nothing but itself. Main
statement: the edges lead where the names mean, and never to a function, unless a class is based on
a name that means a function.
-/

set_option autoImplicit false

namespace CodeAtlas

def Link.isHeritage (l : Link) : Bool := l = .inherits || l = .implements

/-- The names that a declaration is based on: the parent of a class, unless its name is empty, and
then its interfaces. -/
def Declaration.bases : Declaration → List (Link × Text)
  | .function _ => []
  | .type t =>
    (t.parent.toList.filter fun p => !p.isEmpty).map (fun p => (.inherits, p))
      ++ (t.interfaces.getD []).map fun i => (.implements, i)

namespace Declaration

theorem mem_all_function {f : ParsedFile} {r : FunctionRecord} :
    .function r ∈ all f ↔ r ∈ f.functions := by
  simp [all]

theorem mem_all_type {f : ParsedFile} {t : ClassRecord} : .type t ∈ all f ↔ t ∈ f.classes := by
  simp [all]

theorem find?_of_mem_owning {f : ParsedFile} {d : Declaration} (h : d ∈ owning f) :
    (all f).find? (fun o => o.name = d.name) = some d := by
  have hmem : d ∈ (owning f).filter fun o => o.name = d.name :=
    List.mem_filter.2 ⟨h, decide_eq_true rfl⟩
  rw [filter_owning] at hmem
  exact Option.mem_toList.1 hmem

theorem exists_owning {f : ParsedFile} {d : Declaration} (h : d ∈ all f) :
    ∃ o ∈ owning f, o.name = d.name :=
  exists_mem_firstsBy h List.not_mem_nil

/-- Functions come before classes, so a function owns the name that it shares with a class. -/
theorem exists_owning_function {f : ParsedFile} {r : FunctionRecord} (h : r ∈ f.functions) :
    ∃ q : FunctionRecord, .function q ∈ owning f ∧ q.name = r.name := by
  obtain ⟨o, ho, hname⟩ := exists_owning (mem_all_function.2 h)
  cases o with
  | function q => exact ⟨q, ho, hname⟩
  | type t =>
    have hsome : ((f.functions.map Declaration.function).find?
        fun o => o.name = (type t).name).isSome = true := by
      rw [List.find?_isSome]
      exact ⟨.function r, List.mem_map_of_mem h, decide_eq_true hname.symm⟩
    obtain ⟨q, hq⟩ := Option.isSome_iff_exists.1 hsome
    have hfind := find?_of_mem_owning ho
    rw [all, List.find?_append, hq, Option.some_or] at hfind
    cases hfind
    simpa using List.mem_of_find?_eq_some hq

end Declaration

namespace Codebase

def homes (c : Codebase) (name : Text) : List Text :=
  (c.files.filter fun f => f.classes.any fun t => t.name = name).map (·.path)

/-- A name means a function if it is that of a function in the only file with classes of the name,
or the id of a function. -/
def MeansFunction (c : Codebase) (name : Text) : Prop :=
  ∃ f ∈ c.files, ∃ r ∈ f.functions,
    (c.homes name = [f.path] ∧ r.name = name) ∨ Declaration.idOf f.path r.name = name

instance (c : Codebase) (name : Text) : Decidable (c.MeansFunction name) :=
  inferInstanceAs (Decidable (∃ f ∈ c.files, ∃ r ∈ f.functions,
    (c.homes name = [f.path] ∧ r.name = name) ∨ Declaration.idOf f.path r.name = name))

theorem mem_homes {c : Codebase} {name path : Text} :
    path ∈ c.homes name ↔ ∃ f ∈ c.files, f.path = path ∧ ∃ t ∈ f.classes, t.name = name := by
  simp only [homes, List.mem_map, List.mem_filter, List.any_eq_true, decide_eq_true_eq]
  constructor
  · rintro ⟨f, ⟨hf, ht⟩, hpath⟩
    exact ⟨f, hf, hpath, ht⟩
  · rintro ⟨f, hf, hpath, ht⟩
    exact ⟨f, ⟨hf, ht⟩, hpath⟩

end Codebase

namespace Graph

structure Leads (c : Codebase) (g : Graph) (base : Link × Text) (e : Edge) : Prop where
  link : e.link = base.1
  toClass : ∀ path, c.homes base.2 = [path] →
    ∃ n ∈ g.nodes, n.id = e.target ∧ n.kind = .type ∧ n.name = base.2 ∧ n.path = some path
  toName : (∀ path, c.homes base.2 ≠ [path]) → e.target = base.2

/-- Every class has an edge to each of its bases and no other such edge, and none of them leads to
a function. -/
structure BasedOnClasses (c : Codebase) (g : Graph) : Prop where
  classes : ∀ n ∈ g.nodes, n.kind = .type → ∃ f ∈ c.files, n.path = some f.path ∧
    ∃ d, (Declaration.all f).find? (fun o => o.name = n.name) = some d ∧
      List.Forall₂ (Leads c g) d.bases ((g.outgoing n.id).filter (·.link.isHeritage))
  noFunction : ∀ e ∈ g.edges, e.link.isHeritage = true →
    ∀ n ∈ g.nodes, n.id = e.target → n.kind ≠ .function

def baseEdge (c : Codebase) (id : Text) (base : Link × Text) : Edge :=
  ⟨id, classTarget c base.2, base.1, none⟩

theorem heritage_eq (c : Codebase) (path : Text) (d : Declaration) :
    heritage c path d = d.bases.map (baseEdge c (d.id path)) := by
  cases d with
  | function r => rfl
  | type t =>
    simp only [heritage, Declaration.bases, List.map_append, List.map_map]
    rfl

theorem isHeritage_of_mem_bases {d : Declaration} {base : Link × Text} (h : base ∈ d.bases) :
    base.1.isHeritage = true := by
  cases d with
  | function r => simp [Declaration.bases] at h
  | type t =>
    rcases List.mem_append.1 h with h | h
    · obtain ⟨p, _, rfl⟩ := List.mem_map.1 h
      rfl
    · obtain ⟨i, _, rfl⟩ := List.mem_map.1 h
      rfl

theorem mem_classIds {c : Codebase} {name id : Text} :
    id ∈ classIds c name ↔ ∃ path ∈ c.homes name, Declaration.idOf path name = id := by
  simp only [classIds, mem_distinct, List.mem_flatMap, List.mem_map, List.mem_filter,
    decide_eq_true_eq, Codebase.mem_homes]
  constructor
  · rintro ⟨f, hf, t, ht, hid⟩
    exact ⟨f.path, ⟨f, hf, rfl, t, ht⟩, hid⟩
  · rintro ⟨path, ⟨f, hf, hpath, t, ht⟩, hid⟩
    exact ⟨f, hf, t, ht, hpath ▸ hid⟩

theorem classIds_perm {c : Codebase} (hp : c.paths.Nodup) (name : Text) :
    (classIds c name).Perm ((c.homes name).map fun path => Declaration.idOf path name) := by
  have hinj : Function.Injective fun path => Declaration.idOf path name := by
    intro p q h
    simpa [Declaration.idOf] using h
  have hids : (classIds c name).Nodup := nodup_distinct _
  have hhomes : (c.homes name).Nodup := hp.sublist (List.filter_sublist.map _)
  rw [List.perm_ext_iff_of_nodup hids (hhomes.map hinj)]
  intro id
  rw [mem_classIds, List.mem_map]

theorem classTarget_of_homes {c : Codebase} (hp : c.paths.Nodup) {name path : Text}
    (h : c.homes name = [path]) : classTarget c name = Declaration.idOf path name := by
  have hperm := classIds_perm hp name
  rw [h] at hperm
  rw [classTarget, List.perm_singleton.1 hperm]

theorem classTarget_cases (c : Codebase) (name : Text) :
    (∃ id, classIds c name = [id] ∧ classTarget c name = id) ∨
      (∀ id, classIds c name ≠ [id]) ∧ classTarget c name = name := by
  unfold classTarget
  split
  · rename_i id hids
    exact .inl ⟨id, hids, rfl⟩
  · rename_i hids
    exact .inr ⟨hids, rfl⟩

theorem classTarget_of_homes_ne {c : Codebase} (hp : c.paths.Nodup) {name : Text}
    (h : ∀ path, c.homes name ≠ [path]) : classTarget c name = name := by
  rcases classTarget_cases c name with ⟨id, hone, _⟩ | ⟨_, hto⟩
  · have hlength := (classIds_perm hp name).length_eq
    rw [hone, List.length_map] at hlength
    obtain ⟨path, hpath⟩ := List.length_eq_one_iff.1 hlength.symm
    exact absurd hpath (h path)
  · exact hto

theorem exists_owning_of_mem_homes {c : Codebase} {name path : Text} (h : path ∈ c.homes name) :
    ∃ f ∈ c.files, f.path = path ∧ ∃ o ∈ Declaration.owning f, o.name = name := by
  obtain ⟨f, hf, rfl, t, ht, rfl⟩ := Codebase.mem_homes.1 h
  exact ⟨f, hf, rfl, Declaration.exists_owning (Declaration.mem_all_type.2 ht)⟩

theorem filter_heritage_edgesOf (c : Codebase) (f : ParsedFile) (id : Text) :
    (edgesOf c f).filter (fun e => e.link.isHeritage && e.source = id) =
      ((Declaration.owning f).filter fun d => d.id f.path = id).flatMap fun d =>
        d.bases.map (baseEdge c id) := by
  unfold edgesOf
  induction Declaration.owning f with
  | nil => rfl
  | cons d rest ih =>
    have hlink : ∀ e ∈ heritage c f.path d, e.link.isHeritage = true ∧ e.source = d.id f.path := by
      intro e he
      rw [heritage_eq] at he
      obtain ⟨base, hbase, rfl⟩ := List.mem_map.1 he
      exact ⟨isHeritage_of_mem_bases hbase, rfl⟩
    rw [List.flatMap_cons, List.filter_append, ih,
      List.filter_cons_of_neg (by simp [Link.isHeritage])]
    by_cases hd : d.id f.path = id
    · have hall : (heritage c f.path d).filter (fun e => e.link.isHeritage && e.source = id) =
          d.bases.map (baseEdge c id) := by
        rw [← hd, ← heritage_eq, List.filter_eq_self]
        intro e he
        simp [hlink e he]
      rw [hall, List.filter_cons_of_pos (by simpa using hd), List.flatMap_cons]
    · have hnone : (heritage c f.path d).filter (fun e => e.link.isHeritage && e.source = id) =
          [] := by
        rw [List.filter_eq_nil_iff]
        intro e he
        simp [hlink e he, hd]
      rw [hnone, List.filter_cons_of_neg (by simpa using hd), List.nil_append]

theorem leads_baseEdge {c : Codebase} (hp : c.paths.Nodup) {id : Text} {base : Link × Text}
    (h : ¬ c.MeansFunction base.2) : Leads c (ofCodebase c) base (baseEdge c id base) := by
  refine ⟨rfl, ?_, fun hno => classTarget_of_homes_ne hp hno⟩
  intro path hpath
  obtain ⟨f, hf, rfl, o, ho, hname⟩ :=
    exists_owning_of_mem_homes (hpath ▸ List.mem_singleton_self path)
  cases o with
  | function r =>
    have hr := Declaration.mem_all_function.1 (Declaration.mem_all_of_mem_owning ho)
    exact absurd ⟨f, hf, r, hr, .inl ⟨hpath, hname⟩⟩ h
  | type u =>
    refine ⟨(Declaration.type u).node f.path, mem_nodes_ofCodebase.2 ⟨f, hf, .inr ⟨_, ho, rfl⟩⟩, ?_,
      rfl, hname, rfl⟩
    have hid : u.name = base.2 := hname
    calc Declaration.idOf f.path u.name
      _ = Declaration.idOf f.path base.2 := by rw [hid]
      _ = classTarget c base.2 := (classTarget_of_homes hp hpath).symm

section Codebase

variable {c : Codebase} (hcolon : ∀ f ∈ c.files, ∀ d ∈ Declaration.all f, ':' ∉ d.name)
  (hp : c.paths.Nodup) (hl : ∀ d ∈ c.dependencies, d.link = .imports)
include hcolon hp

include hl in
/-- The bases of a class in their order, and nothing else, are what it has edges to. -/
theorem outgoing_heritage {f : ParsedFile} (hf : f ∈ c.files) {d : Declaration}
    (hd : d ∈ Declaration.owning f) :
    ((ofCodebase c).outgoing (d.id f.path)).filter (·.link.isHeritage) =
      d.bases.map (baseEdge c (d.id f.path)) := by
  have hmem := Declaration.mem_all_of_mem_owning hd
  have other : ∀ g ∈ c.files, g.path ≠ f.path → (edgesOf c g).filter (fun e =>
      e.link.isHeritage && e.source = d.id f.path) = [] := by
    intro g hg hne
    have hnone : (Declaration.owning g).filter (fun o => o.id g.path = d.id f.path) = [] := by
      rw [List.filter_eq_nil_iff]
      intro o ho hid
      have hoc := hcolon g hg o (Declaration.mem_all_of_mem_owning ho)
      exact hne (Declaration.idOf_injective hoc (hcolon f hf d hmem) (of_decide_eq_true hid)).1
    rw [filter_heritage_edgesOf, hnone, List.flatMap_nil]
  have imported : (c.dependencies.map (dependencyEdge c.paths)).filter (fun e =>
      e.link.isHeritage && e.source = d.id f.path) = [] := by
    rw [List.filter_eq_nil_iff]
    intro e he
    obtain ⟨i, hi, rfl⟩ := List.mem_map.1 he
    simp [dependencyEdge, hl i hi, Link.isHeritage]
  have houtgoing : (ofCodebase c).outgoing (d.id f.path) =
      (ofCodebase c).edges.filter fun e => e.source = d.id f.path := by
    simp [outgoing]
  rw [houtgoing, List.filter_filter, ofCodebase, List.filter_append, imported, List.append_nil,
    List.filter_flatMap, flatMap_eq_of_nodup_map hp hf other, filter_heritage_edgesOf,
    filter_id_owning (hcolon f hf) hmem, Declaration.find?_of_mem_owning hd]
  simp

theorem meansFunction_of_classTarget {name : Text} {f : ParsedFile} (hf : f ∈ c.files)
    {r : FunctionRecord} (hr : r ∈ f.functions)
    (h : classTarget c name = Declaration.idOf f.path r.name) : c.MeansFunction name := by
  have hrc := hcolon f hf (.function r) (Declaration.mem_all_function.2 hr)
  by_cases hhome : ∃ path, c.homes name = [path]
  · obtain ⟨path, hpath⟩ := hhome
    rw [classTarget_of_homes hp hpath] at h
    obtain ⟨g, hg, _, t, ht, hname⟩ := Codebase.mem_homes.1 (hpath ▸ List.mem_singleton_self path)
    have hnc := hcolon g hg (.type t) (Declaration.mem_all_type.2 ht)
    obtain ⟨rfl, hn⟩ := Declaration.idOf_injective (hname ▸ hnc) hrc h
    exact ⟨f, hf, r, hr, .inl ⟨hpath, hn.symm⟩⟩
  · rw [classTarget_of_homes_ne hp (not_exists.1 hhome)] at h
    exact ⟨f, hf, r, hr, .inr h.symm⟩

theorem classTarget_of_meansFunction {name : Text} (h : c.MeansFunction name) :
    ∃ f ∈ c.files, ∃ r ∈ f.functions, classTarget c name = Declaration.idOf f.path r.name := by
  obtain ⟨f, hf, r, hr, ⟨hhome, rfl⟩ | rfl⟩ := h
  · exact ⟨f, hf, r, hr, classTarget_of_homes hp hhome⟩
  · -- No class has a name with a colon in it.
    have hnone : ∀ path, c.homes (Declaration.idOf f.path r.name) ≠ [path] := by
      intro path hpath
      obtain ⟨g, hg, _, t, ht, hname⟩ := Codebase.mem_homes.1 (hpath ▸ List.mem_singleton_self path)
      have hnc := hcolon g hg (.type t) (Declaration.mem_all_type.2 ht)
      simp only [Declaration.name] at hnc
      exact hnc (by simp [hname, Declaration.idOf])
    exact ⟨f, hf, r, hr, classTarget_of_homes_ne hp hnone⟩

include hl in
theorem basedOnClasses_of_ne_function (h : ∀ f ∈ c.files, ∀ d ∈ Declaration.owning f,
    ∀ base ∈ d.bases, ¬ c.MeansFunction base.2) : BasedOnClasses c (ofCodebase c) := by
  constructor
  · intro n hn hkind
    obtain ⟨f, hf, rfl | ⟨d, hd, rfl⟩⟩ := mem_nodes_ofCodebase.1 hn
    · cases hkind
    · refine ⟨f, hf, rfl, d, Declaration.find?_of_mem_owning hd, ?_⟩
      rw [Declaration.id_node, outgoing_heritage hcolon hp hl hf hd, List.forall₂_map_right_iff,
        List.forall₂_same]
      intro base hbase
      exact leads_baseEdge hp (h f hf d hd base hbase)
  · intro e he hlink n hn hid hkind
    obtain ⟨g, hg, rfl | ⟨o, ho, rfl⟩⟩ := mem_nodes_ofCodebase.1 hn
    · cases hkind
    cases o with
    | type t => cases hkind
    | function r =>
      have hr := Declaration.mem_all_function.1 (Declaration.mem_all_of_mem_owning ho)
      obtain ⟨f, hf, he⟩ | ⟨i, hi, rfl⟩ := mem_edges_ofCodebase.1 he
      · obtain ⟨d, hd, rfl | he⟩ := mem_edgesOf.1 he
        · cases hlink
        · rw [heritage_eq] at he
          obtain ⟨base, hbase, rfl⟩ := List.mem_map.1 he
          exact h f hf d hd base hbase (meansFunction_of_classTarget hcolon hp hg hr hid.symm)
      · simp [dependencyEdge, hl i hi, Link.isHeritage] at hlink

theorem not_meansFunction_of_basedOnClasses (h : BasedOnClasses c (ofCodebase c)) {f : ParsedFile}
    (hf : f ∈ c.files) {d : Declaration} (hd : d ∈ Declaration.owning f) {base : Link × Text}
    (hbase : base ∈ d.bases) : ¬ c.MeansFunction base.2 := by
  intro hmeans
  obtain ⟨g, hg, r, hr, htarget⟩ := classTarget_of_meansFunction hcolon hp hmeans
  obtain ⟨q, hq, hname⟩ := Declaration.exists_owning_function hr
  have hedge : baseEdge c (d.id f.path) base ∈ (ofCodebase c).edges := by
    refine mem_edges_ofCodebase.2 (.inl ⟨f, hf, mem_edgesOf.2 ⟨d, hd, .inr ?_⟩⟩)
    rw [heritage_eq]
    exact List.mem_map_of_mem hbase
  have hnode : (Declaration.function q).node g.path ∈ (ofCodebase c).nodes :=
    mem_nodes_ofCodebase.2 ⟨g, hg, .inr ⟨_, hq, rfl⟩⟩
  refine h.noFunction _ hedge (isHeritage_of_mem_bases hbase) _ hnode ?_ rfl
  calc Declaration.idOf g.path q.name
    _ = Declaration.idOf g.path r.name := by rw [hname]
    _ = classTarget c base.2 := htarget.symm

end Codebase

/-- The edges from the classes of files with different paths lead to classes iff no class is based
on a name that means a function. -/
theorem basedOnClasses_iff {files : List SourceFile} (hp : (files.map (·.path)).Nodup) :
    BasedOnClasses (Codebase.ofFiles files) (ofCodebase (Codebase.ofFiles files)) ↔
      ∀ f ∈ (Codebase.ofFiles files).files, ∀ d ∈ Declaration.owning f, ∀ base ∈ d.bases,
        ¬ (Codebase.ofFiles files).MeansFunction base.2 := by
  have hcolon := Codebase.colon_not_mem_ofFiles files
  have hpaths : (Codebase.ofFiles files).paths.Nodup := by rwa [Codebase.paths_ofFiles]
  constructor
  · intro h f hf d hd base hbase
    exact not_meansFunction_of_basedOnClasses hcolon hpaths h hf hd hbase
  · exact basedOnClasses_of_ne_function hcolon hpaths fun d hd => link_of_mem_dependencies hd

/-- A class with three bases: one that another file has too, as a function, one that two files have,
and one that none has. -/
def familyFiles : List SourceFile :=
  [⟨"base.py", "python", "class Base:\n    pass\nclass Twin:\n    pass\n"⟩,
   ⟨"other.py", "python", "class Twin:\n    pass\ndef Base():\n    pass\n"⟩,
   ⟨"child.py", "python", "class Child(Base, Twin, Missing):\n    pass\n"⟩]

theorem basedOnClasses_familyFiles :
    (familyFiles.map (·.path)).Nodup ∧
    BasedOnClasses (Codebase.ofFiles familyFiles) (ofCodebase (Codebase.ofFiles familyFiles)) := by
  have hp : (familyFiles.map (·.path)).Nodup := by decide
  exact ⟨hp, (basedOnClasses_iff hp).2 (by decide +kernel)⟩

def namesakeFiles : List SourceFile :=
  [⟨"a.py", "python", "class A:\n    pass\ndef A():\n    pass\n"⟩,
   ⟨"b.py", "python", "class B(A):\n    pass\n"⟩]

theorem not_basedOnClasses_namesakeFiles :
    (namesakeFiles.map (·.path)).Nodup ∧
    ¬ BasedOnClasses (Codebase.ofFiles namesakeFiles)
      (ofCodebase (Codebase.ofFiles namesakeFiles)) := by
  have hedge : ⟨"b.py::B", "a.py::A", .inherits, none⟩ ∈
      (ofCodebase (Codebase.ofFiles namesakeFiles)).edges := by decide +kernel
  have hnode : ∃ n ∈ (ofCodebase (Codebase.ofFiles namesakeFiles)).nodes,
      n.id = "a.py::A" ∧ n.kind = .function := by decide +kernel
  refine ⟨by decide, fun h => ?_⟩
  obtain ⟨n, hn, hid, hkind⟩ := hnode
  exact h.noFunction _ hedge rfl n hn hid hkind

end Graph

end CodeAtlas
