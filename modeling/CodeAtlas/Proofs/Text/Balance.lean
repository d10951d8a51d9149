import CodeAtlas.Proofs.Text.Brackets

set_option autoImplicit false

namespace CodeAtlas.Nesting

/-- A text with a closing bracket for each opening one, of whatever kind. An arrow is one sign, whose
second character is no bracket. -/
inductive Balanced : Text → Prop where
  | nil : Balanced []
  | char {c : Char} {t : Text} : isBracket c = false → Balanced t → Balanced (c :: t)
  | arrow {t : Text} : Balanced t → Balanced ('=' :: '>' :: t)
  | enclosed {o c : Char} {s t : Text} : isOpener o = true → isCloser c = true →
      (c = '>' → s.getLast? ≠ some '=') → Balanced s → Balanced t → Balanced (o :: (s ++ c :: t))

/-- Whether a character stands in a text behind a balanced beginning. -/
def Outside (c : Char) (t : Text) : Prop := ∃ s u, Balanced s ∧ t = s ++ c :: u

theorem lastOf_append (last : Option Char) (s t : Text) :
    lastOf last (s ++ t) = lastOf (lastOf last s) t := by
  induction s generalizing last with
  | nil => rfl
  | cons c s ih => exact ih (some c)

theorem lastOf_eq (last : Option Char) (t : Text) : lastOf last t = t.getLast?.or last := by
  induction t generalizing last with
  | nil => rfl
  | cons c t ih =>
    rw [lastOf, ih, List.getLast?_cons]
    cases t.getLast? <;> rfl

theorem ne_of_isOpener {o : Char} (ho : isOpener o = true) : o ≠ '=' ∧ o ≠ '>' := by
  constructor <;> rintro rfl <;> cases ho

theorem closes_lastOf {o c : Char} {s : Text} (ho : isOpener o = true) :
    closes (lastOf (some o) s) c = true ↔
      isCloser c = true ∧ (c = '>' → s.getLast? ≠ some '=') := by
  have hlast : lastOf (some o) s = some '=' ↔ s.getLast? = some '=' := by
    rw [lastOf_eq]
    cases s.getLast? with
    | none => simp [(ne_of_isOpener ho).1]
    | some d => simp
  by_cases hc : c = '>' <;> simp [closes, endsArrow, hlast, hc]

/-- Where the depth ends lower than it began there is a bracket that closes what was open. -/
theorem exists_close {depth e : Nat} {last : Option Char} {t : Text}
    (h : depthFrom (depth + 1) last t = some e) (he : e ≤ depth) :
    ∃ s c u, t = s ++ c :: u ∧ depthFrom 0 last s = some 0 ∧ closes (lastOf last s) c = true ∧
      depthFrom depth (some c) u = some e := by
  induction hn : t.length using Nat.strongRecOn generalizing t depth last with
  | ind n ih =>
    cases t with
    | nil =>
      have heq : depth + 1 = e := Option.some.inj h
      omega
    | cons c t =>
      have hlt : t.length < n := by rw [← hn]; exact Nat.lt_succ_self _
      cases ho : isOpener c with
      | true =>
        -- the bracket opened here is closed first, and what is looked for comes behind
        rw [depthFrom, if_neg (by simp), deepen_eq, if_pos ho] at h
        obtain ⟨s, d, u, rfl, hs, hd, hu⟩ := ih _ hlt h (by omega) rfl
        have hlt' : u.length < n := by simp at hlt; omega
        obtain ⟨s', c', u', rfl, hs', hc', hu'⟩ := ih _ hlt' hu he rfl
        refine ⟨c :: (s ++ d :: s'), c', u', by simp, ?_, ?_, hu'⟩
        · rw [depthFrom_enclosed ho hs hd, hs']
        · rwa [lastOf, lastOf_append, lastOf]
      | false =>
        cases hc : closes last c with
        | true =>
          rw [depthFrom, if_neg (by simp), deepen_eq] at h
          exact ⟨[], c, t, rfl, rfl, hc, by simpa [ho, hc] using h⟩
        | false =>
          rw [depthFrom_plain ho hc] at h
          obtain ⟨s, d, u, rfl, hs, hd, hu⟩ := ih _ hlt h he rfl
          exact ⟨c :: s, d, u, rfl, by rw [depthFrom_plain ho hc, hs], hd, hu⟩

theorem Balanced.closed {t : Text} (h : Balanced t) : Closed t := by
  induction h with
  | nil => exact closed_nil
  | char hc _ ih => exact ih.cons hc
  | arrow _ ih =>
    rw [Closed, depthFrom_plain rfl rfl, depthFrom_plain rfl rfl]
    exact ih.depthFrom_eq 0 _
  | @enclosed o c s t ho hc harrow _ _ ihs iht =>
    rw [Closed, depthFrom_enclosed ho (ihs.depthFrom_eq 0 _) ((closes_lastOf ho).2 ⟨hc, harrow⟩)]
    exact iht.depthFrom_eq 0 _

theorem closed_of_depthFrom {last : Option Char} {t : Text} (h : depthFrom 0 last t = some 0)
    (hlast : last ≠ some '=') : Closed t := by
  cases t with
  | nil => exact closed_nil
  | cons c t =>
    have hcloses : closes none c = closes last c := by
      simp [closes, endsArrow, hlast]
    rw [Closed, depthFrom, deepen_eq, hcloses]
    rwa [depthFrom, deepen_eq] at h

theorem Closed.balanced {t : Text} (h : Closed t) : Balanced t := by
  induction hn : t.length using Nat.strongRecOn generalizing t with
  | ind n ih =>
    cases t with
    | nil => exact .nil
    | cons c t =>
      have hlt : t.length < n := by rw [← hn]; exact Nat.lt_succ_self _
      cases ho : isOpener c with
      | true =>
        rw [Closed, depthFrom, if_neg (by simp [closes_eq_false_of_isOpener ho]), deepen_eq,
          if_pos ho] at h
        obtain ⟨s, d, u, rfl, hs, hd, hu⟩ := exists_close h (Nat.le_refl 0)
        obtain ⟨hcloser, harrow⟩ := (closes_lastOf ho).1 hd
        have hd' : d ≠ '=' := by rintro rfl; cases hcloser
        have hs' : Closed s := closed_of_depthFrom hs (by simpa using (ne_of_isOpener ho).1)
        have hu' : Closed u := closed_of_depthFrom hu (by simpa using hd')
        simp only [List.length_append, List.length_cons] at hlt
        exact .enclosed ho hcloser harrow (ih _ (by omega) hs' rfl) (ih _ (by omega) hu' rfl)
      | false =>
        have hc : closes none c = false := by
          cases hc : closes none c with
          | false => rfl
          | true => rw [Closed, depthFrom, if_pos ⟨rfl, hc⟩] at h; cases h
        have hbracket : isBracket c = false := by
          simpa [isBracket, ho, closes, endsArrow] using hc
        rw [Closed, depthFrom_plain ho hc] at h
        by_cases hsign : c = '='
        · subst hsign
          cases t with
          | nil => exact .char hbracket .nil
          | cons d t =>
            by_cases harrow : d = '>'
            · subst harrow
              rw [depthFrom_plain rfl rfl] at h
              exact .arrow (ih _ (by simp at hlt; omega) (closed_of_depthFrom h (by simp)) rfl)
            · have hhead : (d :: t).head? ≠ some '>' := by simpa using harrow
              exact .char hbracket (ih _ hlt ((depthFrom_of_head_ne hhead none).symm.trans h) rfl)
        · exact .char hbracket (ih _ hlt (closed_of_depthFrom h (by simpa using hsign)) rfl)

theorem exists_of_mem_exposedFrom {x : Char} {depth e : Nat} {last : Option Char} {t : Text}
    (hd : depthFrom depth last t = some e) (hx : x ∈ exposedFrom depth last t) :
    ∃ s u, t = s ++ x :: u ∧ depthFrom depth last s = some 0 := by
  induction t generalizing depth last with
  | nil => cases hx
  | cons c t ih =>
    rw [depthFrom] at hd
    split at hd
    · cases hd
    · rename_i hopen
      have hlater : x ∈ exposedFrom (deepen depth last c) (some c) t →
          ∃ s u, c :: t = s ++ x :: u ∧ depthFrom depth last s = some 0 := by
        intro hx
        obtain ⟨s, u, rfl, hs⟩ := ih hd hx
        exact ⟨c :: s, u, rfl, by rw [depthFrom, if_neg hopen, hs]⟩
      rw [exposedFrom] at hx
      split at hx
      · rename_i hzero
        rcases List.mem_cons.1 hx with rfl | hx
        · exact ⟨[], t, rfl, by rw [hzero.1]; rfl⟩
        · exact hlater hx
      · exact hlater hx

/-- Outside the brackets of a balanced text stands what is at depth zero. -/
theorem Balanced.outside_iff {t : Text} (h : Balanced t) {c : Char} (hc : isBracket c = false) :
    Outside c t ↔ c ∈ outer t := by
  constructor
  · rintro ⟨s, u, hs, rfl⟩
    rw [outer, exposedFrom_append hs.closed, exposedFrom, deepen_of_not_isBracket hc]
    simp
  · intro hmem
    obtain ⟨s, u, ht, hs⟩ := exists_of_mem_exposedFrom h.closed hmem
    exact ⟨s, u, Closed.balanced hs, ht⟩

end CodeAtlas.Nesting
