import CodeAtlas.Distinct
import Mathlib.Data.List.Basic

set_option autoImplicit false

namespace CodeAtlas

variable {α : Type}

/-- The members of a list, each once, in the order in which they first come up. -/
structure FirstSeen [BEq α] (xs seen : List α) : Prop where
  mem : ∀ x, x ∈ seen ↔ x ∈ xs
  once : seen.Nodup
  order : seen.Pairwise fun x y => xs.idxOf x < xs.idxOf y

theorem pairwise_idxOf_firstsBy [DecidableEq α] [BEq α] [LawfulBEq α] (seen xs : List α) :
    (firstsBy id seen xs).Pairwise fun x y => xs.idxOf x < xs.idxOf y := by
  induction xs generalizing seen with
  | nil => exact .nil
  | cons first rest ih =>
    -- Those kept from the rest differ from the first, so each stands one place further on.
    have behind : ∀ {known x}, first ∈ known → x ∈ firstsBy id known rest →
        (first :: rest).idxOf x = rest.idxOf x + 1 := by
      intro known x hknown hx
      have hne : first ≠ x := fun he => (mem_firstsBy_key hx).2 (he ▸ hknown)
      rw [List.idxOf_cons, beq_false_of_ne hne, cond_false]
    rw [firstsBy]
    split
    · rename_i hfirst
      refine (ih seen).imp_of_mem fun hx hy hlt => ?_
      rw [behind hfirst hx, behind hfirst hy]
      omega
    · refine List.pairwise_cons.2 ⟨fun y hy => ?_, (ih _).imp_of_mem fun hx hy hlt => ?_⟩
      · rw [behind (.head _) hy, List.idxOf_cons_self]
        omega
      · rw [behind (.head _) hx, behind (.head _) hy]
        omega

theorem firstSeen_distinct [DecidableEq α] [BEq α] [LawfulBEq α] (xs : List α) :
    FirstSeen xs (distinct xs) :=
  ⟨fun _ => mem_distinct, nodup_distinct xs, pairwise_idxOf_firstsBy [] xs⟩

/-- Sorting leaves members where they are that come before one another either way. -/
theorem filter_mergeSort {le : α → α → Bool}
    (htrans : ∀ a b c, le a b = true → le b c = true → le a c = true)
    (htotal : ∀ a b, (le a b || le b a) = true) {p : α → Bool}
    (hp : ∀ a b, p a = true → p b = true → le a b = true) (xs : List α) :
    (xs.mergeSort le).filter p = xs.filter p := by
  have hpair : (xs.filter p).Pairwise fun a b => le a b = true :=
    List.pairwise_filter.2 (List.pairwise_of_forall hp)
  have hsub : (xs.filter p).Sublist (xs.mergeSort le) :=
    List.sublist_mergeSort htrans htotal hpair List.filter_sublist
  have hkept : (xs.filter p).Sublist ((xs.mergeSort le).filter p) := by
    simpa only [List.filter_filter, Bool.and_self] using hsub.filter p
  have hperm := (List.mergeSort_perm xs le).filter p
  exact (hkept.eq_of_length hperm.length_eq.symm).symm

/-- Sorted by falling keys, members with equal keys are related as before. -/
theorem pairwise_mergeSort_falling {key : α → Nat} {r : α → α → Prop} {xs : List α}
    (h : xs.Pairwise r) :
    (xs.mergeSort fun a b => key b ≤ key a).Pairwise fun a b =>
      key b < key a ∨ key a = key b ∧ r a b := by
  have htrans : ∀ a b c : α, decide (key b ≤ key a) = true → decide (key c ≤ key b) = true →
      decide (key c ≤ key a) = true := by simp; omega
  have htotal : ∀ a b : α, (decide (key b ≤ key a) || decide (key a ≤ key b)) = true := by
    simp; omega
  have hsorted := List.pairwise_mergeSort htrans htotal xs
  refine List.pairwise_iff_forall_sublist.2 fun {a b} hab => ?_
  have hle : key b ≤ key a := of_decide_eq_true (List.pairwise_iff_forall_sublist.1 hsorted hab)
  rcases Nat.lt_or_eq_of_le hle with hlt | heq
  · exact .inl hlt
  · have hpair : [a, b].Sublist (xs.filter fun x => key x = key a) := by
      rw [← filter_mergeSort htrans htotal (p := fun x => key x = key a) (by simp; omega)]
      simpa [heq] using hab.filter fun x => key x = key a
    exact .inr ⟨heq.symm, List.pairwise_iff_forall_sublist.1 h (hpair.trans List.filter_sublist)⟩

theorem behind_take {r : α → α → Prop} {xs : List α} (h : xs.Pairwise r) {limit : Nat}
    (hlimit : 0 < limit) {x : α} (hx : x ∈ xs) (hout : x ∉ xs.take limit) :
    (xs.take limit).length = limit ∧ ∃ last ∈ (xs.take limit).getLast?, r last x := by
  rw [← List.take_append_drop limit xs] at hx h
  have hdrop : x ∈ xs.drop limit := (List.mem_append.1 hx).resolve_left hout
  have hlength : (xs.take limit).length = limit := by
    have hpos := List.length_pos_of_mem hdrop
    rw [List.length_drop] at hpos
    rw [List.length_take]
    omega
  have hne : xs.take limit ≠ [] := List.ne_nil_of_length_pos (by omega)
  refine ⟨hlength, _, List.getLast?_eq_getLast_of_ne_nil hne, ?_⟩
  exact (List.pairwise_append.1 h).2.2 _ (List.getLast_mem hne) x hdrop

end CodeAtlas
