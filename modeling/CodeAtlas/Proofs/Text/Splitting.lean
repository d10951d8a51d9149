import CodeAtlas.Proofs.Text.Balance

/-!
What splitting a text at a separator outside its brackets gives. Main statements: the parts make up
the text, no part can be split again and balanced parts are found again in what they make up, and
the first part ends where the search finds the separator.
-/

set_option autoImplicit false

namespace CodeAtlas.Nesting

section Parts

variable {sep : Char} {depth : Nat} {last : Option Char}

/-- Outside brackets it makes no difference what came before: an angle bracket closes nothing
there, whether it ends an arrow or not. -/
theorem deepen_zero (last last' : Option Char) (c : Char) : deepen 0 last c = deepen 0 last' c := by
  rw [deepen_eq, deepen_eq]
  split
  · rfl
  · split <;> split <;> rfl

theorem splitFrom_zero (sep : Char) (last last' : Option Char) (part t : Text) :
    splitFrom sep 0 last part t = splitFrom sep 0 last' part t := by
  cases t with
  | nil => rfl
  | cons c t => rw [splitFrom, splitFrom, deepen_zero last last']

/-- If splitting comes from the beginning of a part to here without a cut, the parts from here on
cannot be split again. -/
theorem split_of_mem_splitFrom {part t p : Text}
    (h : ∀ rest, split sep (part.reverse ++ rest) = splitFrom sep depth last part rest)
    (hp : p ∈ splitFrom sep depth last part t) : split sep p = [p] := by
  induction t generalizing depth last part with
  | nil =>
    rw [splitFrom, List.mem_singleton] at hp
    simpa [hp, splitFrom] using h []
  | cons c t ih =>
    rw [splitFrom] at hp
    split at hp
    · rename_i hcut
      rcases List.mem_cons.1 hp with rfl | hp
      · simpa [splitFrom] using h []
      · refine ih (fun rest => ?_) hp
        rw [hcut.2]
        exact splitFrom_zero sep none (some c) [] rest
    · rename_i hcut
      refine ih (fun rest => ?_) hp
      have hnext := h (c :: rest)
      rw [splitFrom, if_neg hcut] at hnext
      simpa using hnext

/-- Splitting loses nothing and splits completely, and it undoes the joining of balanced parts with
no separator outside brackets. -/
theorem split_complete (sep : Char) :
    (∀ t, Text.joinWith [sep] (split sep t) = t) ∧
      (∀ t, ∀ p ∈ split sep t, split sep p = [p]) ∧
      (isBracket sep = false → ∀ ts, ts ≠ [] → (∀ t ∈ ts, Balanced t ∧ ¬ Outside sep t) →
        split sep (Text.joinWith [sep] ts) = ts) := by
  refine ⟨fun t => joinWith_splitFrom sep 0 none [] t, fun t p hp => ?_, fun hsep ts hne h => ?_⟩
  · exact split_of_mem_splitFrom (fun rest => rfl) hp
  · refine split_joinWith hsep hne fun t ht => ?_
    obtain ⟨hbalanced, hout⟩ := h t ht
    exact ⟨hbalanced.closed, fun hmem => hout ((hbalanced.outside_iff hsep).2 hmem)⟩

theorem split_complete_arrow :
    split ',' (Text.joinWith [','] ["f: (a, b) => c", " m: Map<K, V>"]) =
        (["f: (a, b) => c", " m: Map<K, V>"] : List Text) ∧
      split ')' "(a))b" = (["(a", "", "b"] : List Text) ∧
      Text.joinWith [')'] (split ')' "(a))b") = "(a))b" ∧
      split ')' "(a" = (["(a"] : List Text) := by
  have hparts : ∀ t ∈ (["f: (a, b) => c", " m: Map<K, V>"] : List Text),
      Balanced t ∧ ¬ Outside ',' t := by
    have hplain : ∀ t : Text, Closed t → ',' ∉ outer t → Balanced t ∧ ¬ Outside ',' t :=
      fun t hclosed hcomma => ⟨hclosed.balanced, fun hout =>
        hcomma ((hclosed.balanced.outside_iff rfl).1 hout)⟩
    exact List.forall_mem_cons.2 ⟨hplain _ rfl (by decide),
      List.forall_mem_singleton.2 (hplain _ rfl (by decide))⟩
  have hsplit : split ')' "(a))b" = (["(a", "", "b"] : List Text) := by decide
  exact ⟨(split_complete ',').2.2 rfl _ (by simp) hparts, hsplit, (split_complete ')').1 _,
    (split_complete ')').2.1 "(a))b" "(a" (by rw [hsplit]; exact .head _)⟩

end Parts

section Search

variable {c : Char} {depth : Nat} {last : Option Char}

theorem findFrom_cons (hc : isBracket c = false) (hsign : c ≠ '=') (depth : Nat)
    (last : Option Char) (index : Nat) (d : Char) (t : Text) :
    findFrom c depth last index (d :: t) =
      if d = c ∧ deepen depth last d = 0 then some index
      else findFrom c (deepen depth last d) (some d) (index + 1) t := by
  have hcond : ((!(isOpener d || (isCloser d && !endsArrow last d)) && d == c && depth == 0
      && !(c == '=' && continuesSign t)) = true) ↔ (d = c ∧ deepen depth last d = 0) := by
    by_cases hd : d = c
    · subst hd
      rw [deepen_of_not_isBracket hc]
      rw [isBracket, Bool.or_eq_false_iff] at hc
      simp [hc.1, hc.2, hsign]
    · simp [hd]
  rw [findFrom]
  simp only [hcond]

theorem splitFrom_of_findFrom_eq_none (hc : isBracket c = false) (hsign : c ≠ '=') {index : Nat}
    {t : Text} (h : findFrom c depth last index t = none) (part : Text) :
    splitFrom c depth last part t = [part.reverse ++ t] := by
  induction t generalizing depth last index part with
  | nil => simp [splitFrom]
  | cons d t ih =>
    rw [findFrom_cons hc hsign] at h
    split at h
    · cases h
    · rename_i hcut
      rw [splitFrom, if_neg hcut, ih h]
      simp

theorem exists_splitFrom_of_findFrom (hc : isBracket c = false) (hsign : c ≠ '=') {index i : Nat}
    {t : Text} (h : findFrom c depth last index t = some i) (part : Text) :
    ∃ first ps, splitFrom c depth last part t = (part.reverse ++ first) :: ps ∧ ps ≠ [] ∧
      i = index + first.length := by
  induction t generalizing depth last index part with
  | nil => cases h
  | cons d t ih =>
    rw [findFrom_cons hc hsign] at h
    split at h
    · rename_i hcut
      refine ⟨[], splitFrom c (deepen depth last d) (some d) [] t, ?_, splitFrom_ne_nil _ _ _ _ _,
        (Option.some.inj h).symm⟩
      rw [splitFrom, if_pos hcut, List.append_nil]
    · rename_i hcut
      obtain ⟨first, ps, hsplit, hne, hi⟩ := ih h (d :: part)
      refine ⟨d :: first, ps, ?_, hne, ?_⟩
      · rw [splitFrom, if_neg hcut, hsplit]
        simp
      · rw [List.length_cons]
        omega

/-- The search for a character agrees with splitting at it: nothing is found in a text that is not
split, and otherwise what is found is the end of the first part. -/
theorem find?_eq_split (hc : isBracket c = false) (hsign : c ≠ '=') (t : Text) :
    (find? c t = none ↔ split c t = [t]) ∧
      (∀ i, find? c t = some i → ∃ first rest, split c t = first :: rest ∧ i = first.length) := by
  have hfound : ∀ i, find? c t = some i →
      ∃ first ps, split c t = first :: ps ∧ ps ≠ [] ∧ i = 0 + first.length := fun i h => by
    simpa [split] using exists_splitFrom_of_findFrom hc hsign h []
  refine ⟨⟨fun h => splitFrom_of_findFrom_eq_none hc hsign h [], fun h => ?_⟩, fun i hi => ?_⟩
  · cases hi : find? c t with
    | none => rfl
    | some i =>
      obtain ⟨first, ps, hsplit, hne, -⟩ := hfound i hi
      rw [h] at hsplit
      exact absurd (List.cons.inj hsplit).2.symm hne
  · obtain ⟨first, ps, hsplit, -, hlength⟩ := hfound i hi
    exact ⟨first, ps, hsplit, by omega⟩

/-- The colon of a type literal is passed over by both. -/
theorem find?_eq_split_typeLiteral :
    (∃ first rest, split ':' "a, {b: c}: d" = first :: rest ∧ 9 = first.length) ∧
      split ':' "{b: c}" = (["{b: c}"] : List Text) :=
  have hsign : ':' ≠ '=' := by decide
  ⟨(find?_eq_split rfl hsign "a, {b: c}: d").2 9 (by decide),
    (find?_eq_split rfl hsign "{b: c}").1.1 (by decide)⟩

end Search

end CodeAtlas.Nesting
