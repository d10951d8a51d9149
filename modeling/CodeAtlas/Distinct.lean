
set_option autoImplicit false

namespace CodeAtlas

/-- The members of a list whose key no earlier member has. -/
def firstsBy {α κ : Type} [DecidableEq κ] (key : α → κ) : List κ → List α → List α
  | _, [] => []
  | seen, x :: rest =>
    if key x ∈ seen then firstsBy key seen rest else x :: firstsBy key (key x :: seen) rest

def distinct {α : Type} [DecidableEq α] (xs : List α) : List α := firstsBy id [] xs

theorem mem_firstsBy_key {α κ : Type} [DecidableEq κ] {key : α → κ} {seen : List κ} {xs : List α}
    {x : α} (h : x ∈ firstsBy key seen xs) : x ∈ xs ∧ key x ∉ seen := by
  induction xs generalizing seen with
  | nil => simp [firstsBy] at h
  | cons y rest ih =>
    simp only [firstsBy] at h
    split at h
    · exact ⟨.tail _ (ih h).1, (ih h).2⟩
    · rcases List.mem_cons.1 h with rfl | h
      · exact ⟨.head _, by assumption⟩
      · have := ih h
        exact ⟨.tail _ this.1, fun hx => this.2 (.tail _ hx)⟩

theorem nodup_map_firstsBy {α κ : Type} [DecidableEq κ] (key : α → κ) (seen : List κ)
    (xs : List α) : ((firstsBy key seen xs).map key).Nodup := by
  induction xs generalizing seen with
  | nil => simp [firstsBy]
  | cons y rest ih =>
    simp only [firstsBy]
    split
    · exact ih seen
    · rw [List.map_cons, List.nodup_cons]
      refine ⟨fun hm => ?_, ih _⟩
      obtain ⟨z, hz, hk⟩ := List.mem_map.1 hm
      exact (mem_firstsBy_key hz).2 (hk ▸ .head _)

theorem exists_mem_firstsBy {α κ : Type} [DecidableEq κ] {key : α → κ} {seen : List κ}
    {xs : List α} {x : α} (hx : x ∈ xs) (hs : key x ∉ seen) :
    ∃ y ∈ firstsBy key seen xs, key y = key x := by
  induction xs generalizing seen with
  | nil => simp at hx
  | cons y rest ih =>
    simp only [firstsBy]
    by_cases hy : key y = key x
    · rw [if_neg (hy ▸ hs)]
      exact ⟨y, .head _, hy⟩
    · have hx' : x ∈ rest := by
        rcases List.mem_cons.1 hx with rfl | h
        · exact absurd rfl hy
        · exact h
      split
      · exact ih hx' hs
      · have hs' : key x ∉ key y :: seen := by
          intro hm
          rcases List.mem_cons.1 hm with h | h
          · exact hy h.symm
          · exact hs h
        obtain ⟨z, hz, hk⟩ := ih hx' hs'
        exact ⟨z, .tail _ hz, hk⟩

theorem filter_firstsBy_of_mem {α κ : Type} [DecidableEq κ] {key : α → κ} {seen : List κ} {k : κ}
    (hk : k ∈ seen) (xs : List α) : (firstsBy key seen xs).filter (fun x => key x = k) = [] := by
  rw [List.filter_eq_nil_iff]
  intro x hx hxk
  have he : key x = k := of_decide_eq_true hxk
  exact (mem_firstsBy_key hx).2 (he ▸ hk)

/-- Of the members with a key the first is kept, and no other. -/
theorem filter_firstsBy {α κ : Type} [DecidableEq κ] {key : α → κ} {seen : List κ} {k : κ}
    (hk : k ∉ seen) (xs : List α) :
    (firstsBy key seen xs).filter (fun x => key x = k) =
      (xs.find? fun x => key x = k).toList := by
  induction xs generalizing seen with
  | nil => simp [firstsBy]
  | cons y rest ih =>
    by_cases hy : key y = k
    · have hr : (firstsBy key (k :: seen) rest).filter (fun x => key x = k) = [] :=
        filter_firstsBy_of_mem (.head _) rest
      simp [firstsBy, hy, hk, hr]
    · by_cases hs : key y ∈ seen
      · simp [firstsBy, hs, hy, ih hk]
      · have hk' : k ∉ key y :: seen := by
          intro hm
          rcases List.mem_cons.1 hm with h | h
          · exact hy h.symm
          · exact hk h
        simp [firstsBy, hs, hy, ih hk']

theorem nodup_distinct {α : Type} [DecidableEq α] (xs : List α) : (distinct xs).Nodup := by
  have := nodup_map_firstsBy (id : α → α) [] xs
  simpa [distinct] using this

@[simp] theorem mem_distinct {α : Type} [DecidableEq α] {xs : List α} {x : α} :
    x ∈ distinct xs ↔ x ∈ xs := by
  constructor
  · intro h; exact (mem_firstsBy_key h).1
  · intro h
    obtain ⟨y, hy, hk⟩ := @exists_mem_firstsBy _ _ _ id [] xs x h List.not_mem_nil
    exact (show y = x from hk) ▸ hy

end CodeAtlas
