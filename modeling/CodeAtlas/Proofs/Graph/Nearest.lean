import CodeAtlas.Proofs.Graph.Reach
import Mathlib.Data.ENat.Lattice
import Mathlib.Data.List.Chain

/-!
The order of related files, on any graph whose ids are not empty. A hop is a path of edges that
leaves a file through its own declarations, and the files related to a file are listed by how many
hops away they are. More hops only add files behind those listed, until all files are visited.
-/

set_option autoImplicit false

namespace CodeAtlas.Graph

variable {g : Graph} {file : Text}

def Joined (g : Graph) (a b : Text) : Prop :=
  ∃ e ∈ g.edges, (e.source = a ∧ e.target = b) ∨ (e.source = b ∧ e.target = a)

def Declares (g : Graph) (file id : Text) : Prop :=
  ∃ n, g.node? id = some n ∧ n.kind ≠ .file ∧ n.path = some file

/-- Edges lead from a file through its own declarations to another file, or to a declaration of
that file. -/
def Hop (g : Graph) (file other : Text) : Prop :=
  other ≠ file ∧ g.isFile other = true ∧ ∃ inner last, (∀ a ∈ inner, g.Declares file a) ∧
    (file :: (inner ++ [last])).IsChain g.Joined ∧ (last = other ∨ g.Declares other last)

inductive Route (g : Graph) : Nat → Text → Text → Prop where
  | zero (a : Text) : Route g 0 a a
  | succ {n : Nat} {a b d : Text} : g.Hop a b → Route g n b d → Route g (n + 1) a d

/-- The number of hops of a shortest route, infinite if there is no route. -/
noncomputable def distance (g : Graph) (a b : Text) : ℕ∞ := ⨅ n : { n // g.Route n a b }, (n : ℕ∞)

def fileIds (g : Graph) : List Text := (distinct (g.nodes.map (·.id))).filter g.isFile

theorem isFile_iff {id : Text} : g.isFile id = true ↔ ∃ n, g.node? id = some n ∧ n.kind = .file := by
  unfold isFile
  cases g.node? id with
  | none => simp
  | some n => simp

theorem mem_ids_of_node? {id : Text} {n : Node} (h : g.node? id = some n) :
    id ∈ g.nodes.map (·.id) :=
  List.mem_map.2 ⟨n, List.mem_of_find?_eq_some h, id_of_node? h⟩

theorem mem_fileIds {id : Text} : id ∈ g.fileIds ↔ g.isFile id = true := by
  simp only [fileIds, List.mem_filter, mem_distinct, and_iff_right_iff_imp]
  intro h
  obtain ⟨n, hn, _⟩ := isFile_iff.1 h
  exact mem_ids_of_node? hn

theorem length_fileIds_le (g : Graph) : g.fileIds.length ≤ g.fileNodes.length := by
  have hsub : g.fileIds ⊆ g.fileNodes.map (·.id) := by
    intro id h
    obtain ⟨n, hn, hk⟩ := isFile_iff.1 (mem_fileIds.1 h)
    refine List.mem_map.2 ⟨n, List.mem_filter.2 ⟨List.mem_of_find?_eq_some hn, ?_⟩, id_of_node? hn⟩
    exact decide_eq_true hk
  have hle := (((nodup_distinct _).filter _).subperm hsub).length_le
  rwa [List.length_map] at hle

theorem Declares.not_isFile {id : Text} (h : g.Declares file id) : ¬ g.isFile id = true := by
  obtain ⟨n, hn, hk, _⟩ := h
  intro hf
  obtain ⟨m, hm, hmk⟩ := isFile_iff.1 hf
  exact hk (Option.some.inj (hn.symm.trans hm) ▸ hmk)

theorem Declares.unique {other id : Text} (h : g.Declares file id) (h' : g.Declares other id) :
    file = other := by
  obtain ⟨n, hn, _, hp⟩ := h
  obtain ⟨m, hm, _, hmp⟩ := h'
  obtain rfl : n = m := Option.some.inj (hn.symm.trans hm)
  exact Option.some.inj (hp.symm.trans hmp)

/-! The walk goes where paths of edges lead. -/

theorem Inside.declares {a : Text} (h : Inside g file a) : a = file ∨ g.Declares file a := by
  cases h with
  | start => exact .inl rfl
  | step _ _ hi =>
    obtain ⟨_, n, hn, hk, hp⟩ := step_eq_inside_iff.1 hi
    exact .inr ⟨n, hn, hk, hp⟩

theorem isChain_concat {ids : List Text} {a b : Text} (h : ids.IsChain g.Joined)
    (ha : ids.getLast? = some a) (hab : g.Joined a b) : (ids ++ [b]).IsChain g.Joined := by
  refine h.append (.singleton b) fun x hx y hy => ?_
  rw [ha] at hx
  cases hx
  cases hy
  exact hab

theorem Inside.exists_chain {a : Text} (h : Inside g file a) :
    ∃ inner, (∀ b ∈ inner, g.Declares file b) ∧ (file :: inner).IsChain g.Joined ∧
      (file :: inner).getLast? = some a := by
  induction h with
  | start => exact ⟨[], by simp, .singleton file, rfl⟩
  | @step a b _ hb hi ih =>
    obtain ⟨inner, hd, hchain, hlast⟩ := ih
    obtain ⟨_, n, hn, hk, hp⟩ := step_eq_inside_iff.1 hi
    refine ⟨inner ++ [b], ?_, isChain_concat hchain hlast (mem_neighbors.1 hb).2,
      @List.getLast?_concat _ (file :: inner) b⟩
    intro c hc
    rcases List.mem_append.1 hc with hc | hc
    · exact hd c hc
    · exact List.mem_singleton.1 hc ▸ ⟨n, hn, hk, hp⟩

/-- A path that leaves its start through declarations of a file walks inside that file up to its
last edge. -/
theorem exists_inside_of_chain {inner : List Text} {a last : Text} (ha : Inside g file a)
    (hd : ∀ b ∈ inner, g.Declares file b)
    (h : (a :: (inner ++ [last])).IsChain g.Joined) : ∃ b, Inside g file b ∧ g.Joined b last := by
  induction inner generalizing a with
  | nil => exact ⟨a, ha, (List.isChain_cons_cons.1 h).1⟩
  | cons b rest ih =>
    obtain ⟨hab, hrest⟩ := List.isChain_cons_cons.1 h
    refine ih ?_ (fun c hc => hd c (.tail _ hc)) hrest
    by_cases hne : b = a
    · exact hne ▸ ha
    · exact ha.step (mem_neighbors.2 ⟨hne, hab⟩) (step_eq_inside_iff.2 ⟨rfl, hd b (.head _)⟩)

theorem exists_joined_iff {other : Text} :
    (∃ inner last, (∀ a ∈ inner, g.Declares file a) ∧
        (file :: (inner ++ [last])).IsChain g.Joined ∧ (last = other ∨ g.Declares other last)) ↔
      ∃ a last, Inside g file a ∧ g.Joined a last ∧ (last = other ∨ g.Declares other last) := by
  constructor
  · rintro ⟨inner, last, hd, hchain, hlast⟩
    obtain ⟨a, ha, hj⟩ := exists_inside_of_chain .start hd hchain
    exact ⟨a, last, ha, hj, hlast⟩
  · rintro ⟨a, last, ha, hj, hlast⟩
    obtain ⟨inner, hd, hchain, hend⟩ := ha.exists_chain
    exact ⟨inner, last, hd, isChain_concat hchain hend hj, hlast⟩

theorem step_eq_file_of_isFile (hid : ∀ n ∈ g.nodes, n.id ≠ []) {other last : Text}
    (hne : other ≠ file) (ho : g.isFile other = true) (h : last = other ∨ g.Declares other last) :
    g.step file last = .file other := by
  rw [step_eq_file_iff]
  obtain ⟨m, hm, hmk⟩ := isFile_iff.1 ho
  rcases h with rfl | ⟨n, hn, hk, hp⟩
  · exact ⟨m, hm, .inl ⟨hmk, rfl⟩⟩
  · have hnil : other ≠ [] := id_of_node? hm ▸ hid m (List.mem_of_find?_eq_some hm)
    exact ⟨n, hn, .inr ⟨hk, hp, hne, hnil, ho⟩⟩

theorem declares_of_step_eq_file {other last : Text} (h : g.step file last = .file other) :
    g.isFile other = true ∧ (last = other ∨ g.Declares other last) := by
  obtain ⟨n, hn, ⟨hk, rfl⟩ | ⟨hk, hp, _, _, ho⟩⟩ := step_eq_file_iff.1 h
  · exact ⟨isFile_iff.2 ⟨n, hn, hk⟩, .inl rfl⟩
  · exact ⟨ho, .inr ⟨n, hn, hk, hp⟩⟩

theorem mem_adjacentFiles_iff_hop (hid : ∀ n ∈ g.nodes, n.id ≠ []) (hf : g.isFile file = true)
    {other : Text} : other ∈ g.adjacentFiles file ↔ g.Hop file other := by
  rw [mem_adjacentFiles, Hop, exists_joined_iff]
  constructor
  · rintro ⟨hne, a, b, ha, hb, _, hstep⟩
    obtain ⟨ho, hland⟩ := declares_of_step_eq_file hstep
    exact ⟨hne, ho, a, b, ha, (mem_neighbors.1 hb).2, hland⟩
  · rintro ⟨hne, ho, a, b, ha, hj, hland⟩
    have hbf : b ≠ file := by
      rintro rfl
      rcases hland with rfl | hd
      · exact hne rfl
      · exact hd.not_isFile hf
    -- The last edge leaves the file, so its ends differ.
    have hba : b ≠ a := by
      rintro rfl
      rcases ha.declares with he | hd
      · exact hbf he
      · rcases hland with rfl | hd'
        · exact hd.not_isFile ho
        · exact hne (hd'.unique hd)
    exact ⟨hne, a, b, ha, mem_neighbors.2 ⟨hba, hj⟩, hbf, step_eq_file_of_isFile hid hne ho hland⟩

theorem hops_iff_route (hid : ∀ n ∈ g.nodes, n.id ≠ []) {n : Nat} {a b : Text}
    (ha : g.isFile a = true) : Hops g n a b ↔ Route g n a b := by
  constructor
  · intro h
    induction h with
    | zero a => exact .zero a
    | succ hab _ ih =>
      have hhop := (mem_adjacentFiles_iff_hop hid ha).1 hab
      exact .succ hhop (ih hhop.2.1)
  · intro h
    induction h with
    | zero a => exact .zero a
    | succ hhop _ ih => exact .succ ((mem_adjacentFiles_iff_hop hid ha).2 hhop) (ih hhop.2.1)

theorem distance_le_iff {a b : Text} {n : Nat} :
    g.distance a b ≤ n ↔ ∃ k ≤ n, g.Route k a b := by
  constructor
  · intro h
    by_cases hne : Nonempty { n // g.Route n a b }
    · obtain ⟨⟨k, hk⟩, hmin⟩ := ENat.exists_eq_iInf fun n : { n // g.Route n a b } => (n : ℕ∞)
      refine ⟨k, ?_, hk⟩
      rw [distance, ← hmin] at h
      exact_mod_cast h
    · rw [not_nonempty_iff] at hne
      simp [distance, iInf_of_empty] at h
  · rintro ⟨k, hk, hroute⟩
    calc g.distance a b
      _ ≤ k := iInf_le (fun n : { n // g.Route n a b } => (n : ℕ∞)) ⟨k, hroute⟩
      _ ≤ n := by exact_mod_cast hk

theorem one_le_distance_iff {a b : Text} : 1 ≤ g.distance a b ↔ b ≠ a := by
  rw [Order.one_le_iff_pos, pos_iff_ne_zero, not_iff_not, ← nonpos_iff_eq_zero]
  have h := @distance_le_iff g a b 0
  rw [Nat.cast_zero] at h
  rw [h]
  constructor
  · rintro ⟨k, hk, hroute⟩
    obtain rfl : k = 0 := by omega
    cases hroute
    rfl
  · rintro rfl
    exact ⟨0, le_rfl, .zero b⟩

theorem mem_related_iff_distance (hid : ∀ n ∈ g.nodes, n.id ≠ []) (hf : g.isFile file = true)
    {hops : Nat} {path : Text} :
    path ∈ g.related file hops ↔ 1 ≤ g.distance file path ∧ g.distance file path ≤ hops := by
  simp only [mem_related, one_le_distance_iff, distance_le_iff, hops_iff_route hid hf]

/-! The levels are listed one behind the other. -/

theorem levels_nil (g : Graph) (hops : Nat) (visited : List Text) : g.levels hops visited [] = [] := by
  cases hops <;> rfl

theorem levels_prefix_succ (g : Graph) (hops : Nat) (visited level : List Text) :
    g.levels hops visited level <+: g.levels (hops + 1) visited level := by
  induction hops generalizing visited level with
  | zero => exact List.nil_prefix
  | succ hops ih =>
    cases level with
    | nil => exact List.prefix_rfl
    | cons first rest => exact (List.prefix_append_right_inj _).2 (ih _ _)

/-- What one more hop adds is exactly that far away. -/
theorem exists_related_succ (hid : ∀ n ∈ g.nodes, n.id ≠ []) (hf : g.isFile file = true)
    (hops : Nat) :
    ∃ further, g.related file (hops + 1) = g.related file hops ++ further ∧
      ∀ path ∈ further, g.distance file path = (hops + 1 : Nat) := by
  obtain ⟨further, hsplit⟩ := levels_prefix_succ g hops [file] [file]
  refine ⟨further, hsplit.symm, fun path hpath => ?_⟩
  have hn : (g.related file hops ++ further).Nodup := by
    rw [related, hsplit]
    exact nodup_related g file (hops + 1)
  have hmem : path ∈ g.related file (hops + 1) := by
    rw [related, ← hsplit]
    exact List.mem_append_right _ hpath
  have hnear : path ∉ g.related file hops := fun h => (List.nodup_append'.1 hn).2.2 h hpath
  obtain ⟨hpos, hle⟩ := (mem_related_iff_distance hid hf).1 hmem
  rw [mem_related_iff_distance hid hf, not_and, not_le] at hnear
  refine le_antisymm hle ?_
  rw [Nat.cast_add, Nat.cast_one]
  exact Order.add_one_le_of_lt (hnear hpos)

theorem pairwise_related (hid : ∀ n ∈ g.nodes, n.id ≠ []) (hf : g.isFile file = true)
    (hops : Nat) :
    (g.related file hops).Pairwise fun a b => g.distance file a ≤ g.distance file b := by
  induction hops with
  | zero => exact .nil
  | succ hops ih =>
    obtain ⟨further, hsplit, hfar⟩ := exists_related_succ hid hf hops
    rw [hsplit]
    refine List.pairwise_append.2 ⟨ih, List.pairwise_of_forall_mem_list ?_, ?_⟩
    · intro a ha b hb
      rw [hfar a ha, hfar b hb]
    · intro a ha b hb
      calc g.distance file a
        _ ≤ hops := ((mem_related_iff_distance hid hf).1 ha).2
        _ ≤ (hops + 1 : Nat) := by exact_mod_cast Nat.le_succ hops
        _ = g.distance file b := (hfar b hb).symm

def unvisited (g : Graph) (visited : List Text) : Nat := (g.fileIds.filter (· ∉ visited)).length

theorem isFile_of_mem_adjacentFiles {path : Text} (h : path ∈ g.adjacentFiles file) :
    g.isFile path = true := by
  obtain ⟨_, _, _, _, _, _, hstep⟩ := mem_adjacentFiles.1 h
  exact (declares_of_step_eq_file hstep).1

theorem unvisited_append_nextLevel (g : Graph) (visited level : List Text) :
    g.unvisited (visited ++ g.nextLevel visited level) + (g.nextLevel visited level).length ≤
      g.unvisited visited := by
  have hnodup : (g.fileIds.filter (· ∉ visited ++ g.nextLevel visited level) ++
      g.nextLevel visited level).Nodup := by
    refine List.nodup_append'.2 ⟨((nodup_distinct _).filter _).filter _,
      (nodup_distinct _).filter _, fun a ha hl => ?_⟩
    have hn := (List.mem_filter.1 ha).2
    simp [hl] at hn
  have hsub : g.fileIds.filter (· ∉ visited ++ g.nextLevel visited level) ++
      g.nextLevel visited level ⊆ g.fileIds.filter (· ∉ visited) := by
    intro a ha
    rcases List.mem_append.1 ha with ha | ha
    · obtain ⟨hf, hn⟩ := List.mem_filter.1 ha
      refine List.mem_filter.2 ⟨hf, ?_⟩
      simp only [List.mem_append, not_or, decide_eq_true_eq] at hn
      exact decide_eq_true hn.1
    · obtain ⟨⟨b, _, hadj⟩, hn⟩ := mem_nextLevel.1 ha
      exact List.mem_filter.2 ⟨mem_fileIds.2 (isFile_of_mem_adjacentFiles hadj), decide_eq_true hn⟩
  have hle := (hnodup.subperm hsub).length_le
  rwa [List.length_append] at hle

/-- With hops for all files that are not visited, one hop more changes nothing. -/
theorem levels_succ_of_unvisited_le {hops : Nat} {visited level : List Text}
    (h : g.unvisited visited ≤ hops) :
    g.levels (hops + 1) visited level = g.levels hops visited level := by
  induction hops generalizing visited level with
  | zero =>
    have hnext := g.unvisited_append_nextLevel visited level
    cases level with
    | nil => rfl
    | cons first rest => exact List.append_eq_nil_iff.2 ⟨List.length_eq_zero_iff.1 (by omega), rfl⟩
  | succ hops ih =>
    have hnext := g.unvisited_append_nextLevel visited level
    cases level with
    | nil => rfl
    | cons first rest =>
      have hrest : g.levels (hops + 1) (visited ++ g.nextLevel visited (first :: rest))
          (g.nextLevel visited (first :: rest)) =
          g.levels hops (visited ++ g.nextLevel visited (first :: rest))
            (g.nextLevel visited (first :: rest)) := by
        -- A level that is not empty leaves fewer files for the levels behind it.
        by_cases hnil : g.nextLevel visited (first :: rest) = []
        · rw [hnil, levels_nil, levels_nil]
        · have hpos := List.length_pos_iff.2 hnil
          exact ih (by omega)
      exact congrArg (g.nextLevel visited (first :: rest) ++ ·) hrest

theorem related_of_length_le (hf : g.isFile file = true) {hops : Nat}
    (h : g.fileIds.length ≤ hops + 1) : g.related file (hops + 1) = g.related file hops := by
  have hlt : g.unvisited [file] < g.fileIds.length := by
    refine List.length_filter_lt_length_iff_exists.2 ⟨file, mem_fileIds.2 hf, by simp⟩
  exact levels_succ_of_unvisited_le (by omega)

/-- Lists of files, one for each number of hops, that show the files near a seed: each once, the
nearest first, and more hops add files behind the others until there are as many hops as files. -/
structure NearestFirst (g : Graph) (seed : Text) (listed : Nat → List Text) : Prop where
  near : ∀ hops path, path ∈ listed hops ↔ 1 ≤ g.distance seed path ∧ g.distance seed path ≤ hops
  once : ∀ hops, (listed hops).Nodup
  sorted : ∀ hops, (listed hops).Pairwise fun a b => g.distance seed a ≤ g.distance seed b
  grows : ∀ hops, listed hops <+: listed (hops + 1)
  settles : ∀ hops, g.fileIds.length ≤ hops → listed hops = listed g.fileIds.length
  /-- The number of nodes of files may be larger, when ids come twice, but is never smaller. -/
  few : g.fileIds.length ≤ g.fileNodes.length

theorem nearestFirst_related (hid : ∀ n ∈ g.nodes, n.id ≠ []) {seed : Text}
    (hs : g.isFile seed = true) : g.NearestFirst seed (g.related seed) := by
  constructor
  case near => exact fun hops path => mem_related_iff_distance hid hs
  case once => exact g.nodup_related seed
  case sorted => exact pairwise_related hid hs
  case grows => exact fun hops => levels_prefix_succ g hops [seed] [seed]
  case settles =>
    intro hops h
    induction hops, h using Nat.le_induction with
    | base => rfl
    | succ hops hle ih => rw [related_of_length_le hs (Nat.le_succ_of_le hle), ih]
  case few => exact g.length_fileIds_le

/-- A cycle of files with a declaration shared between two ids, an id that comes twice, and edges
that lead nowhere. -/
def tangle : Graph where
  nodes := [⟨"a", .file, "a", some "a", .other []⟩, ⟨"f", .function, "f", some "a", .other []⟩,
    ⟨"b", .file, "b", none, .other []⟩, ⟨"g", .function, "g", some "b", .other []⟩,
    ⟨"b", .function, "b", some "a", .other []⟩, ⟨"c", .file, "c", some "c", .other []⟩,
    ⟨"d", .file, "d", some "d", .other []⟩]
  edges := [⟨"f", "a", .contains, none⟩, ⟨"g", "f", .imports, none⟩, ⟨"b", "c", .imports, none⟩,
    ⟨"c", "d", .imports, none⟩, ⟨"d", "b", .imports, none⟩, ⟨"a", "a", .imports, none⟩,
    ⟨"a", "nowhere", .imports, none⟩]

theorem nearestFirst_related_tangle :
    (∀ n ∈ tangle.nodes, n.id ≠ []) ∧ tangle.isFile "a" = true ∧
      tangle.NearestFirst "a" (tangle.related "a") ∧
      tangle.related "a" 1 = ["b"] ∧ tangle.related "a" 2 = ["b", "c", "d"] := by
  have hid : ∀ n ∈ tangle.nodes, n.id ≠ [] := by decide
  have hs : tangle.isFile "a" = true := by decide
  exact ⟨hid, hs, nearestFirst_related hid hs, by decide, by decide⟩

end CodeAtlas.Graph
