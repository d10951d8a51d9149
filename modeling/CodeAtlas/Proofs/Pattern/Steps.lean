import CodeAtlas.Proofs.Pattern.Parts
import CodeAtlas.Proofs.Text.Words

set_option autoImplicit false

namespace CodeAtlas

namespace Pattern

variable {β : Type} {before : List Char} {c : Cursor} {m : Marks} {v : β}
variable {k : Cursor → Marks → Option β}

theorem run_append (a b : Pattern) (c : Cursor) (m : Marks) (k : Cursor → Marks → Option β) :
    (a ++ b).run c m k = a.run c m fun c' m' => b.run c' m' k := rfl

theorem run_mark (part : Part) (a : Pattern) (c : Cursor) (m : Marks)
    (k : Cursor → Marks → Option β) :
    (mark part a).run c m k = a.run c m fun c' m' => k c' ((part, c, c') :: m') := rfl

theorem run_either (a b : Pattern) (c : Cursor) (m : Marks) (k : Cursor → Marks → Option β) :
    (either a b).run c m k = (a.run c m k <|> b.run c m k) := rfl

theorem run_one_cons {p : Text.Class} {x : Char} (hx : p x = true) (rest : Text) :
    (one p).run ⟨before, x :: rest⟩ m k = k ⟨x :: before, rest⟩ m := by
  simp [run, hx]

theorem skip?_append (t rest : Text) :
    skip? t ⟨before, t ++ rest⟩ = Option.some ⟨t.reverse ++ before, rest⟩ := by
  induction t generalizing before with
  | nil => rfl
  | cons x t ih => simp [skip?, ih]

theorem run_text_append (t rest : Text) :
    (text t).run ⟨before, t ++ rest⟩ m k = k ⟨t.reverse ++ before, rest⟩ m := by
  simp [run, skip?_append]

theorem run_some_cons {p : Text.Class} {x : Char} {rest : Text} (hx : p x = true)
    (hr : Text.Halts p rest) :
    (Pattern.some p).run ⟨before, x :: rest⟩ m k = k ⟨x :: before, rest⟩ m := by
  rw [Pattern.some, run_append, run_one_cons hx]
  cases rest with
  | nil => simp [run, Cursor.farthestFirst, Cursor.reach]
  | cons y rest => simp [run, Cursor.farthestFirst, Cursor.reach, Text.halts_cons.1 hr]

theorem run_unless_eq_none {a : Pattern} {w : Cursor × Marks}
    (h : a.run c m (fun c' m' => Option.some (c', m')) = Option.some w) :
    (Pattern.unless a).run c m k = none := by
  simp only [run, h]

/-- A lazy repetition goes as far as the first place from which the rest succeeds. -/
theorem run_few {p : Text.Class} {s rest : Text} (hs : ∀ x ∈ s, p x = true)
    (hnear : ∀ u x w, s = u ++ x :: w → k ⟨u.reverse ++ before, x :: (w ++ rest)⟩ m = none)
    (hk : k ⟨s.reverse ++ before, rest⟩ m = Option.some v) :
    (few p).run ⟨before, s ++ rest⟩ m k = Option.some v := by
  simp only [run]
  induction s generalizing before with
  | nil =>
    cases rest with
    | nil => simpa [Cursor.nearestFirst_nil] using hk
    | cons x rest =>
      have hk' : k ⟨before, x :: rest⟩ m = Option.some v := by simpa using hk
      rw [List.nil_append, Cursor.nearestFirst_cons, List.findSome?_cons, hk']
  | cons x s ih =>
    have h₀ := hnear [] x s rfl
    simp only [List.reverse_nil, List.nil_append] at h₀
    rw [List.cons_append, Cursor.nearestFirst_cons, if_pos (hs x (.head _)), List.findSome?_cons,
      h₀]
    refine ih (fun y hy => hs y (.tail _ hy)) (fun u y w hu => ?_) (by simpa using hk)
    simpa using hnear (x :: u) y w (by simp [hu])

theorem run_lineStart_eq_none (h : c.atLineStart = false) : lineStart.run c m k = none := by
  simp [run, h]

theorem run_text_eq_none {x : Char} {t : Text} (ht : t.head? = Option.some x)
    (h : c.rest.head? ≠ Option.some x) : (text t).run c m k = none := by
  obtain ⟨t, rfl⟩ : ∃ t', t = x :: t' := by
    cases t with
    | nil => cases ht
    | cons y t => exact ⟨t, by rw [Option.some.inj ht]⟩
  obtain ⟨before, _ | ⟨y, rest⟩⟩ := c
  · rfl
  · have hxy : x ≠ y := fun hxy => h (hxy ▸ rfl)
    simp [run, skip?, hxy]

theorem run_char_eq_none {x : Char} (h : c.rest.head? ≠ Option.some x) :
    (char x).run c m k = none := run_text_eq_none rfl h

theorem run_lineStart_eq_some (h : lineStart.run c m k = Option.some v) :
    c.atLineStart = true ∧ k c m = Option.some v := by
  simpa [run] using h

theorem run_wordEdge_eq_some (h : wordEdge.run c m k = Option.some v) :
    c.atWordEdge = true ∧ k c m = Option.some v := by
  simpa [run] using h

theorem run_one_eq_some {p : Text.Class} (h : (one p).run c m k = Option.some v) :
    ∃ x rest, c.rest = x :: rest ∧ p x = true ∧ k ⟨x :: c.before, rest⟩ m = Option.some v := by
  obtain ⟨before, _ | ⟨x, rest⟩⟩ := c
  · simp [run] at h
  · have hx : p x = true ∧ k ⟨x :: before, rest⟩ m = Option.some v := by simpa [run] using h
    exact ⟨x, rest, rfl, hx⟩

theorem run_text_eq_some {t : Text} (h : (text t).run c m k = Option.some v) :
    ∃ rest, c.rest = t ++ rest ∧ k ⟨t.reverse ++ c.before, rest⟩ m = Option.some v := by
  simp only [run, Option.bind_eq_some_iff] at h
  obtain ⟨⟨b, rest⟩, hd, hk⟩ := h
  obtain ⟨hb, hr⟩ := passes_of_skip? hd
  exact ⟨rest, hr, by simpa [← hb] using hk⟩

/-- A run with a result passed a text inside the class that confines the pattern. -/
theorem run_eq_some_of_within {a : Pattern} {p : Text.Class} (ha : a.Within p)
    (h : a.run c m k = Option.some v) :
    ∃ s rest m', c.rest = s ++ rest ∧ (∀ x ∈ s, p x = true) ∧
      k ⟨s.reverse ++ c.before, rest⟩ m' = Option.some v := by
  rw [run_eq_findSome?] at h
  obtain ⟨⟨⟨b, rest⟩, m'⟩, hw, hk⟩ := List.exists_of_findSome?_eq_some h
  obtain ⟨s, ⟨hb, hr⟩, hs⟩ := through_of_mem_ways ha hw
  exact ⟨s, rest, m', hr, hs, by simpa [← hb] using hk⟩

theorem run_many_eq_some {p : Text.Class} (h : (many p).run c m k = Option.some v) :
    ∃ s rest, c.rest = s ++ rest ∧ (∀ x ∈ s, p x = true) ∧
      k ⟨s.reverse ++ c.before, rest⟩ m = Option.some v := by
  simp only [run] at h
  obtain ⟨⟨b, rest⟩, hw, hk⟩ := List.exists_of_findSome?_eq_some h
  obtain ⟨s, ⟨hb, hr⟩, hs⟩ := Cursor.through_of_mem_farthestFirst hw
  exact ⟨s, rest, hr, hs, by simpa [← hb] using hk⟩

theorem run_some_eq_some {p : Text.Class} (h : (Pattern.some p).run c m k = Option.some v) :
    ∃ s rest, s ≠ [] ∧ c.rest = s ++ rest ∧ (∀ x ∈ s, p x = true) ∧
      k ⟨s.reverse ++ c.before, rest⟩ m = Option.some v := by
  rw [Pattern.some, run_append] at h
  obtain ⟨x, r, hx, hp, h⟩ := run_one_eq_some h
  obtain ⟨s, rest, hr, hs, hk⟩ := run_many_eq_some h
  refine ⟨x :: s, rest, by simp, by simp [hx, ← hr], ?_, by simpa using hk⟩
  intro y hy
  rcases List.mem_cons.1 hy with rfl | hy
  · exact hp
  · exact hs y hy

theorem run_either_eq_some {a b : Pattern} (h : (either a b).run c m k = Option.some v) :
    a.run c m k = Option.some v ∨ b.run c m k = Option.some v := by
  rw [run_either] at h
  cases ha : a.run c m k with
  | none => rw [ha] at h; exact .inr h
  | some w => rw [ha] at h; exact .inl h

theorem run_optional_eq_some {a : Pattern} (h : (optional a).run c m k = Option.some v) :
    a.run c m k = Option.some v ∨ k c m = Option.some v := by
  rcases run_either_eq_some h with h | h
  · exact .inl h
  · exact .inr (by simpa [run, skip?] using h)

theorem run_optional_eq_none {a : Pattern} (ha : a.run c m k = none) (hk : k c m = none) :
    (optional a).run c m k = none := by
  refine Option.eq_none_iff_forall_ne_some.2 fun v hv => ?_
  rcases run_optional_eq_some hv with h | h
  · exact absurd (ha.symm.trans h) (by simp)
  · exact absurd (hk.symm.trans h) (by simp)

end Pattern

end CodeAtlas
