import CodeAtlas.Proofs.Graph.Imported

/-!
The search for imported files as a loop with a stack, on any graph. The loop comes to an end from
whatever state, and from an entry it ends with the list of a recursive depth-first search: every
file before those it imports, in the order of the import edges, and each at its first visit only.
-/

set_option autoImplicit false

namespace CodeAtlas.Graph

variable {g : Graph} {listed stack : List Text}

/-! The recursive search. -/

theorem ahead_append_singleton (g : Graph) (listed : List Text) (id : Text) :
    g.ahead (listed ++ [id]) = g.ahead (id :: listed) := by
  refine List.countP_congr fun e _ => ?_
  simp [or_comm]

theorem ahead_append_le (g : Graph) (listed found : List Text) :
    g.ahead (listed ++ found) ≤ g.ahead listed := by
  refine List.countP_mono_left fun e _ he => ?_
  simp only [List.mem_append, not_or, decide_eq_true_eq] at he ⊢
  exact he.1

theorem length_importedFiles_add_ahead_le {id : Text} (h : id ∉ listed) :
    (g.importedFiles id).length + g.ahead (listed ++ [id]) ≤ g.ahead listed := by
  have hahead := @ahead_cons g listed id h
  have himported := length_importedFiles_le g id
  rw [ahead_append_singleton]
  omega

mutual

/-- The ids that a search lists when it comes to an id: none if the id is listed already, or else
the id itself and then what it finds behind the files that the id imports. -/
def descend (g : Graph) (listed : List Text) (id : Text) : List Text :=
  if id ∈ listed then [] else id :: descendAll g (listed ++ [id]) (g.importedFiles id)
termination_by 2 * g.ahead listed + 1
decreasing_by
  have hle := @length_importedFiles_add_ahead_le g listed id ‹_›
  omega

def descendAll (g : Graph) (listed : List Text) : List Text → List Text
  | [] => []
  | id :: rest =>
    descend g listed id ++ descendAll g (listed ++ descend g listed id) rest
termination_by ids => 2 * (ids.length + g.ahead listed)
decreasing_by
  · simp only [List.length_cons]
    omega
  · exact Nat.mul_lt_mul_of_pos_left
      (Nat.add_lt_add_of_lt_of_le (Nat.lt_succ_self _) (g.ahead_append_le listed _)) Nat.two_pos

end

@[simp] theorem descendAll_nil (g : Graph) (listed : List Text) : g.descendAll listed [] = [] := by
  rw [descendAll]

theorem descendAll_cons (g : Graph) (listed : List Text) (id : Text) (rest : List Text) :
    g.descendAll listed (id :: rest) =
      g.descend listed id ++ g.descendAll (listed ++ g.descend listed id) rest := by
  rw [descendAll]

theorem descend_of_mem {id : Text} (h : id ∈ listed) : g.descend listed id = [] := by
  rw [descend, if_pos h]

theorem descend_of_not_mem {id : Text} (h : id ∉ listed) :
    g.descend listed id = id :: g.descendAll (listed ++ [id]) (g.importedFiles id) := by
  rw [descend, if_neg h]

theorem descendAll_append (g : Graph) (listed ids rest : List Text) :
    g.descendAll listed (ids ++ rest) =
      g.descendAll listed ids ++ g.descendAll (listed ++ g.descendAll listed ids) rest := by
  induction ids generalizing listed with
  | nil => simp
  | cons id ids ih =>
    rw [List.cons_append, descendAll_cons, descendAll_cons, ih]
    simp only [List.append_assoc]

/-! The loop. -/

structure Search where
  listed : List Text
  stack : List Text

/-- One turn of the loop takes an id from the stack. An id that is listed already is passed over. -/
inductive Turn (g : Graph) : Search → Search → Prop where
  | pass {listed stack : List Text} {id : Text} : id ∈ listed →
      Turn g ⟨listed, id :: stack⟩ ⟨listed, stack⟩
  | visit {listed stack : List Text} {id : Text} : id ∉ listed →
      Turn g ⟨listed, id :: stack⟩ ⟨listed ++ [id], g.importedFiles id ++ stack⟩

def Search.outcome (g : Graph) (s : Search) : List Text := s.listed ++ g.descendAll s.listed s.stack

/-- The ids on the stack and the edges that may still put ids there. -/
def Search.work (g : Graph) (s : Search) : Nat := s.stack.length + g.ahead s.listed

theorem Turn.work_lt {s t : Search} (h : g.Turn s t) : t.work g < s.work g := by
  cases h with
  | pass _ =>
    simp only [Search.work, List.length_cons]
    omega
  | @visit listed stack id hid =>
    have hle := @length_importedFiles_add_ahead_le g listed id hid
    simp only [Search.work, List.length_cons, List.length_append]
    omega

/-- A turn changes nothing of what will be listed in the end. -/
theorem Turn.outcome_eq {s t : Search} (h : g.Turn s t) : s.outcome g = t.outcome g := by
  cases h with
  | pass hid => rw [Search.outcome, descendAll_cons, descend_of_mem hid]; simp [Search.outcome]
  | visit hid =>
    rw [Search.outcome, Search.outcome, descendAll_cons, descend_of_not_mem hid, descendAll_append]
    simp

theorem wellFounded_turn (g : Graph) : WellFounded fun t s => g.Turn s t :=
  Subrelation.wf (fun h => h.work_lt) (measure (Search.work g)).wf

theorem exists_turn (g : Graph) (listed : List Text) (id : Text) (stack : List Text) :
    ∃ t, g.Turn ⟨listed, id :: stack⟩ t := by
  by_cases h : id ∈ listed
  · exact ⟨_, .pass h⟩
  · exact ⟨_, .visit h⟩

/-- The loop goes on until the stack is empty, and has then listed what the recursion lists. -/
theorem run_outcome (g : Graph) (s : Search) :
    Relation.ReflTransGen g.Turn s ⟨s.outcome g, []⟩ := by
  induction s using (wellFounded_turn g).induction with
  | _ s ih =>
    obtain ⟨listed, stack⟩ := s
    cases stack with
    | nil => simpa [Search.outcome] using Relation.ReflTransGen.refl
    | cons id stack =>
      obtain ⟨t, ht⟩ := g.exists_turn listed id stack
      rw [ht.outcome_eq]
      exact .head ht (ih t ht)

/-- With enough fuel the visits list what the recursion lists. -/
theorem visit_eq_descendAll {fuel : Nat} {visited : List Text}
    (hv : ∀ id, id ∈ visited ↔ id ∈ listed) (h : stack.length + g.ahead listed ≤ fuel) :
    g.visit fuel visited stack = g.descendAll listed stack := by
  induction fuel generalizing visited listed stack with
  | zero =>
    obtain rfl : stack = [] := List.length_eq_zero_iff.1 (by omega)
    simp [visit]
  | succ fuel ih =>
    cases stack with
    | nil => simp [visit]
    | cons id stack =>
      rw [List.length_cons] at h
      rw [visit, descendAll_cons]
      by_cases hid : id ∈ listed
      · rw [if_pos ((hv id).2 hid), descend_of_mem hid, List.append_nil, List.nil_append]
        exact ih hv (by omega)
      · have hle := @length_importedFiles_add_ahead_le g listed id hid
        have hv' : ∀ a, a ∈ id :: visited ↔ a ∈ listed ++ [id] := by
          intro a
          rw [List.mem_cons, List.mem_append, List.mem_singleton, hv a, or_comm]
        rw [if_neg fun hm => hid ((hv id).1 hm), descend_of_not_mem hid,
          ih hv' (by rw [List.length_append]; omega), descendAll_append]
        simp

theorem preorder_eq_descend (g : Graph) (entry : Text) : g.preorder entry = g.descend [] entry := by
  have hfuel : [entry].length + g.ahead [] ≤ g.edges.length + 1 := by
    have hle := List.countP_le_length (p := fun e : Edge => e.source ∉ []) (l := g.edges)
    rw [List.length_singleton, ahead]
    omega
  rw [preorder, visit_eq_descendAll (fun _ => Iff.rfl) hfuel, descendAll_cons, descendAll_nil,
    List.append_nil]

/-- A list of the files that an entry imports, as a search lists them. -/
structure ListedDepthFirst (g : Graph) (entry : Text) (listed : List Text) : Prop where
  /-- There is no endless run of the loop, from whatever state. -/
  terminates : WellFounded fun t s => g.Turn s t
  runs : Relation.ReflTransGen g.Turn ⟨[], [entry]⟩ ⟨listed, []⟩
  /-- and no run ends in another way. -/
  ends : ∀ s, Relation.ReflTransGen g.Turn ⟨[], [entry]⟩ s → (∀ t, ¬ g.Turn s t) → s = ⟨listed, []⟩
  recursive : listed = g.descend [] entry
  first : listed.head? = some entry
  once : listed.Nodup
  closed : ∀ e ∈ g.edges, e.source ∈ listed → e.link = .imports → g.isFile e.target = true →
    e.target ∈ listed
  reached : ∀ id, id ∈ listed ↔ Relation.ReflTransGen (fun a b =>
    ∃ e ∈ g.edges, e.source = a ∧ e.link = .imports ∧ e.target = b ∧ g.isFile b = true) entry id

theorem outcome_eq_of_run {s t : Search} (h : Relation.ReflTransGen g.Turn s t) :
    s.outcome g = t.outcome g := by
  induction h with
  | refl => rfl
  | tail _ hturn ih => exact ih.trans hturn.outcome_eq

theorem eq_of_run {s t : Search} (h : Relation.ReflTransGen g.Turn s t)
    (hend : ∀ u, ¬ g.Turn t u) : t = ⟨s.outcome g, []⟩ := by
  rw [outcome_eq_of_run h]
  obtain ⟨listed, stack⟩ := t
  cases stack with
  | nil => simp [Search.outcome]
  | cons id stack =>
    obtain ⟨u, hu⟩ := g.exists_turn listed id stack
    exact absurd hu (hend u)

theorem listedDepthFirst_preorder (g : Graph) (entry : Text) :
    g.ListedDepthFirst entry (g.preorder entry) := by
  have houtcome : Search.outcome g ⟨[], [entry]⟩ = g.preorder entry := by
    rw [preorder_eq_descend, Search.outcome, descendAll_cons, descendAll_nil]
    simp
  have himports : g.Imports = fun a b =>
      ∃ e ∈ g.edges, e.source = a ∧ e.link = .imports ∧ e.target = b ∧ g.isFile b = true := by
    funext a b
    simp only [Imports, mem_importedFiles, eq_iff_iff]
    constructor
    · rintro ⟨⟨e, he, hs, hl, ht⟩, hb⟩
      exact ⟨e, he, hs, hl, ht, hb⟩
    · rintro ⟨e, he, hs, hl, ht, hb⟩
      exact ⟨⟨e, he, hs, hl, ht⟩, hb⟩
  constructor
  case terminates => exact g.wellFounded_turn
  case runs => exact houtcome ▸ g.run_outcome ⟨[], [entry]⟩
  case ends =>
    intro s hrun hend
    rw [eq_of_run hrun hend, houtcome]
  case recursive => exact g.preorder_eq_descend entry
  case first => exact g.head?_preorder entry
  case once => exact g.nodup_preorder entry
  case closed =>
    intro e he hs hl hb
    rw [mem_preorder] at hs ⊢
    exact hs.tail (mem_importedFiles.2 ⟨⟨e, he, rfl, hl, rfl⟩, hb⟩)
  case reached =>
    intro id
    rw [mem_preorder, himports]

end CodeAtlas.Graph
