import CodeAtlas.Proofs.Text.Words

set_option autoImplicit false

namespace CodeAtlas

namespace Text

def OneLine (t : Text) : Prop := '\n' ∉ t

instance (t : Text) : Decidable t.OneLine := inferInstanceAs (Decidable ('\n' ∉ t))

section OneLine

variable {s t : Text}

theorem oneLine_nil : OneLine [] := List.not_mem_nil

theorem OneLine.sublist (h : t.OneLine) (hs : s.Sublist t) : s.OneLine :=
  fun hn => h (hs.mem hn)

theorem oneLine_append : (s ++ t).OneLine ↔ s.OneLine ∧ t.OneLine := by
  rw [OneLine, List.mem_append, not_or]
  rfl

theorem oneLine_cons {c : Char} : OneLine (c :: t) ↔ '\n' ≠ c ∧ t.OneLine := by
  rw [OneLine, List.mem_cons, not_or]
  rfl

theorem oneLine_concat {ts : List Text} : (concat ts).OneLine ↔ ∀ t ∈ ts, t.OneLine := by
  simp only [OneLine, concat, List.mem_flatten, not_exists, not_and]

theorem oneLine_of_class {p : Text.Class} (hp : p '\n' = false) (h : ∀ x ∈ t, p x = true) :
    t.OneLine := by
  intro hn
  have htrue := h '\n' hn
  rw [hp] at htrue
  cases htrue

theorem oneLine_joinWith {sep : Text} {ts : List Text} (hsep : sep.OneLine)
    (h : ∀ t ∈ ts, t.OneLine) : (joinWith sep ts).OneLine := fun hn =>
  forall_mem_joinWith (P := fun c => c ≠ '\n') (fun _ hc he => hsep (he ▸ hc))
    (fun t ht _ hc he => h t ht (he ▸ hc)) '\n' hn rfl

theorem oneLine_collapse (t : Text) : (collapse t).OneLine := by
  refine oneLine_joinWith (by decide) fun w hw => ?_
  exact oneLine_of_class (p := fun c => !isBlank c) (by decide)
    fun x hx => by rw [(mem_words hw).2 x hx]; rfl

theorem sublist_dropRight (p : Char → Bool) (t : Text) : (dropRight p t).Sublist t := by
  have h := (List.dropWhile_sublist (l := t.reverse) p).reverse
  rwa [List.reverse_reverse] at h

theorem sublist_trim (p : Char → Bool) (t : Text) : (trim p t).Sublist t :=
  (sublist_dropRight p _).trans (List.dropWhile_sublist p)

theorem sublist_strip (t : Text) : (strip t).Sublist t := sublist_trim isBlank t

theorem eq_append_of_cutAt? {sep a b : Text} (h : cutAt? sep t = some (a, b)) :
    t = a ++ (sep ++ b) := by
  induction t generalizing a with
  | nil =>
    rw [cutAt?] at h
    split at h
    · rename_i hsep
      cases h
      rw [List.isEmpty_iff.1 hsep]
      rfl
    · cases h
  | cons c t ih =>
    rw [cutAt?] at h
    split at h
    · rename_i hsep
      cases h
      exact (List.prefix_iff_eq_append.1 (List.isPrefixOf_iff_prefix.1 hsep)).symm
    · obtain ⟨⟨a', b'⟩, hrest, heq⟩ := Option.map_eq_some_iff.1 h
      cases heq
      rw [List.cons_append, ← ih hrest]

end OneLine

/-- The first occurrence of a character is the one that is meant, or stands before it. -/
theorem append_cons_cases {c : Char} {x y w z : Text} (hx : c ∉ x)
    (h : x ++ c :: y = w ++ c :: z) : (w = x ∧ y = z) ∨ ∃ v, w = x ++ c :: v ∧ y = v ++ c :: z := by
  rcases List.append_eq_append_iff.1 h with ⟨v, hw, hv⟩ | ⟨v, hxv, hv⟩
  · cases v with
    | nil => exact .inl ⟨by rw [hw, List.append_nil], (List.cons.inj hv).2⟩
    | cons e v =>
      obtain ⟨rfl, hy⟩ := List.cons.inj hv
      exact .inr ⟨v, hw, hy⟩
  · cases v with
    | nil => exact .inl ⟨by rw [hxv, List.append_nil], (List.cons.inj hv).2.symm⟩
    | cons e v =>
      obtain ⟨rfl, -⟩ := List.cons.inj hv
      exact absurd (by rw [hxv]; simp) hx

theorem line_inj {s s' t t' : Text} (hs : s.OneLine) (hs' : s'.OneLine)
    (h : s ++ '\n' :: t = s' ++ '\n' :: t') : s = s' ∧ t = t' := by
  rcases append_cons_cases hs h with ⟨hsame, ht⟩ | ⟨v, rfl, -⟩
  · exact ⟨hsame.symm, ht⟩
  · exact absurd (List.mem_append_right _ (.head _)) hs'

end Text

end CodeAtlas
