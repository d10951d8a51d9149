import CodeAtlas.Proofs.Order
import CodeAtlas.Source.Script

set_option autoImplicit false

namespace CodeAtlas

variable {α β : Type}

def Ordered (xs : List (Nat × α)) : Prop := xs.Pairwise fun x y => x.1 ≤ y.1

def foundAt (place : Nat) (xs : List (Nat × α)) : List (Nat × α) :=
  xs.filter fun x => x.1 = place

theorem foundAt_cons_self (x : Nat × α) (xs : List (Nat × α)) :
    foundAt x.1 (x :: xs) = x :: foundAt x.1 xs := by simp [foundAt]

theorem foundAt_cons_of_ne {place : Nat} {x : Nat × α} (h : x.1 ≠ place) (xs : List (Nat × α)) :
    foundAt place (x :: xs) = foundAt place xs := by simp [foundAt, h]

theorem foundAt_append (place : Nat) (xs ys : List (Nat × α)) :
    foundAt place (xs ++ ys) = foundAt place xs ++ foundAt place ys := List.filter_append ..

theorem foundAt_eq_nil {place : Nat} {xs : List (Nat × α)} (h : ∀ x ∈ xs, x.1 ≠ place) :
    foundAt place xs = [] := List.filter_eq_nil_iff.2 fun x hx => by simpa using h x hx

theorem foundAt_ne_nil {xs : List (Nat × α)} {x : Nat × α} (h : x ∈ xs) :
    foundAt x.1 xs ≠ [] :=
  List.ne_nil_of_mem (a := x) (List.mem_filter.2 ⟨h, by simp⟩)

theorem Ordered.head_le {x y : Nat × α} {xs ys : List (Nat × α)} (hy : Ordered (y :: ys))
    (h : ∀ place, foundAt place (x :: xs) = foundAt place (y :: ys)) : y.1 ≤ x.1 := by
  have hne : foundAt x.1 (y :: ys) ≠ [] := h x.1 ▸ foundAt_ne_nil (.head _)
  obtain ⟨z, hz⟩ := List.exists_mem_of_ne_nil _ hne
  obtain ⟨hmem, hplace⟩ := List.mem_filter.1 hz
  have hzx : z.1 = x.1 := by simpa using hplace
  rcases List.mem_cons.1 hmem with rfl | hmem
  · omega
  · exact hzx ▸ (List.pairwise_cons.1 hy).1 z hmem

/-- An ordered list is determined by what it has at each place. -/
theorem Ordered.eq_of_foundAt {xs ys : List (Nat × α)} (hx : Ordered xs) (hy : Ordered ys)
    (h : ∀ place, foundAt place xs = foundAt place ys) : xs = ys := by
  induction xs generalizing ys with
  | nil =>
    cases ys with
    | nil => rfl
    | cons y ys => exact absurd (h y.1).symm (foundAt_ne_nil (.head _))
  | cons x xs ih =>
    cases ys with
    | nil => exact absurd (h x.1) (foundAt_ne_nil (.head _))
    | cons y ys =>
      have hle := hx.head_le fun place => (h place).symm
      have hplace : x.1 = y.1 := by
        have hge := hy.head_le h
        omega
      have hself := h x.1
      rw [foundAt_cons_self, hplace, foundAt_cons_self] at hself
      obtain ⟨hxy, hrest⟩ := List.cons.inj hself
      subst hxy
      congr 1
      refine ih (List.pairwise_cons.1 hx).2 (List.pairwise_cons.1 hy).2 fun place => ?_
      by_cases hp : x.1 = place
      · exact hp ▸ hrest
      · simpa only [foundAt_cons_of_ne hp] using h place

theorem foundAt_mergeSort (place : Nat) (xs : List (Nat × α)) :
    foundAt place (xs.mergeSort fun x y => x.1 ≤ y.1) = foundAt place xs := by
  refine filter_mergeSort (by simp; omega) (by simp; omega) (fun x y hx hy => ?_) xs
  simp only [decide_eq_true_eq] at hx hy ⊢
  omega

theorem ordered_mergeSort (xs : List (Nat × α)) :
    Ordered (xs.mergeSort fun x y => x.1 ≤ y.1) := by
  have hm : (xs.mergeSort fun x y => x.1 ≤ y.1).Pairwise
      fun x y => decide (x.1 ≤ y.1) = true :=
    List.pairwise_mergeSort (by simp; omega) (by simp; omega) xs
  exact hm.imp of_decide_eq_true

namespace Script

/-- Any ordered list with the same at each place is the order of what was found. -/
theorem inOrder_eq {found sorted : List (Nat × α)} (hs : Ordered sorted)
    (h : ∀ place, foundAt place sorted = foundAt place found) :
    inOrder found = sorted.map Prod.snd := by
  have hsorted := (ordered_mergeSort found).eq_of_foundAt hs fun place =>
    (foundAt_mergeSort place found).trans (h place).symm
  rw [inOrder, hsorted]

/-- What two searches find before a place comes before what they find from there on. -/
theorem inOrder_append {place : Nat} {xs ys zs ws : List (Nat × α)}
    (hbefore : ∀ x ∈ xs ++ ys, x.1 < place) (hbehind : ∀ x ∈ zs ++ ws, place ≤ x.1) :
    inOrder ((xs ++ zs) ++ (ys ++ ws)) = inOrder (xs ++ ys) ++ inOrder (zs ++ ws) := by
  have hordered : Ordered ((xs ++ ys).mergeSort (fun x y => x.1 ≤ y.1) ++
      (zs ++ ws).mergeSort fun x y => x.1 ≤ y.1) := by
    refine List.pairwise_append.2 ⟨ordered_mergeSort _, ordered_mergeSort _, fun x hx y hy => ?_⟩
    have hlt := hbefore x (List.mem_mergeSort.1 hx)
    have hle := hbehind y (List.mem_mergeSort.1 hy)
    omega
  refine (inOrder_eq hordered fun p => ?_).trans List.map_append
  simp only [foundAt_append, foundAt_mergeSort]
  by_cases hp : p < place
  · have hnone : ∀ x ∈ zs ++ ws, x.1 ≠ p := fun x hx => by
      have := hbehind x hx
      omega
    simp [foundAt_eq_nil fun x hx => hnone x (List.mem_append_left _ hx),
      foundAt_eq_nil fun x hx => hnone x (List.mem_append_right _ hx)]
  · have hnone : ∀ x ∈ xs ++ ys, x.1 ≠ p := fun x hx => by
      have := hbefore x hx
      omega
    simp [foundAt_eq_nil fun x hx => hnone x (List.mem_append_left _ hx),
      foundAt_eq_nil fun x hx => hnone x (List.mem_append_right _ hx)]

theorem inOrder_map_add (n : Nat) (xs : List (Nat × α)) :
    inOrder (xs.map fun x => (x.1 + n, x.2)) = inOrder xs := by
  have hsort : (xs.map fun x => (x.1 + n, x.2)).mergeSort (fun x y => x.1 ≤ y.1) =
      (xs.mergeSort fun x y => x.1 ≤ y.1).map fun x => (x.1 + n, x.2) :=
    (List.map_mergeSort (by simp)).symm
  rw [inOrder, hsort, List.map_map]
  rfl

def placedAt (find : β → List α) (p : Nat × β) : List (Nat × α) := (find p.2).map (Prod.mk p.1)

theorem foundAt_placedAt (place : Nat) (find : β → List α) (p : Nat × β) :
    foundAt place (placedAt find p) = if p.1 = place then placedAt find p else [] := by
  split
  · rename_i h
    exact List.filter_eq_self.2 fun x hx => by
      obtain ⟨_, _, rfl⟩ := List.mem_map.1 hx
      simpa using h
  · rename_i h
    exact List.filter_eq_nil_iff.2 fun x hx => by
      obtain ⟨_, _, rfl⟩ := List.mem_map.1 hx
      simpa using h

theorem foundAt_flatMap_of_lt {place : Nat} {ps : List (Nat × β)} (h : ∀ p ∈ ps, place < p.1)
    (find : β → List α) : foundAt place (ps.flatMap (placedAt find)) = [] := by
  refine List.filter_eq_nil_iff.2 fun x hx => ?_
  obtain ⟨p, hp, hx⟩ := List.mem_flatMap.1 hx
  obtain ⟨_, _, rfl⟩ := List.mem_map.1 hx
  have hlt := h p hp
  simp only [decide_eq_true_eq]
  omega

theorem ordered_flatMap {ps : List (Nat × β)} (h : ps.Pairwise fun p q => p.1 < q.1)
    (find : β → List α) : Ordered (ps.flatMap (placedAt find)) := by
  refine List.pairwise_flatMap.2 ⟨fun p _ => ?_, h.imp fun hlt x hx y hy => ?_⟩
  · refine List.pairwise_map.2 (List.pairwise_of_forall fun _ _ => Nat.le_refl _)
  · obtain ⟨_, _, rfl⟩ := List.mem_map.1 hx
    obtain ⟨_, _, rfl⟩ := List.mem_map.1 hy
    exact Nat.le_of_lt hlt

/-- Of what several searches find at the same places, the order has what each of them finds, place
by place. -/
theorem inOrder_flatMap {ps : List (Nat × β)} (h : ps.Pairwise fun p q => p.1 < q.1)
    (finds : List (β → List α)) :
    inOrder (finds.flatMap fun find => ps.flatMap (placedAt find)) =
      ps.flatMap fun p => finds.flatMap fun find => find p.2 := by
  let all : β → List α := fun b => finds.flatMap fun find => find b
  have hfound : ∀ place, foundAt place (ps.flatMap (placedAt all)) =
      foundAt place (finds.flatMap fun find => ps.flatMap (placedAt find)) := by
    intro place
    rw [foundAt, foundAt, List.filter_flatMap (l := finds)]
    change foundAt place _ = finds.flatMap fun find => foundAt place _
    induction ps with
    | nil => simp [foundAt]
    | cons p ps ih =>
      have hlt := (List.pairwise_cons.1 h).1
      simp only [List.flatMap_cons, foundAt_append, foundAt_placedAt]
      by_cases hp : p.1 = place
      · have hnone : ∀ find : β → List α, foundAt place (ps.flatMap (placedAt find)) = [] :=
          foundAt_flatMap_of_lt fun q hq => hp ▸ hlt q hq
        simp [hp, hnone, placedAt, all, List.map_flatMap]
      · simpa [hp] using ih (List.pairwise_cons.1 h).2
  rw [inOrder_eq (ordered_flatMap h all) hfound, List.map_flatMap]
  simp [placedAt, all, Function.comp_def]

end Script

end CodeAtlas
