import CodeAtlas.Text.Blank
import CodeAtlas.Text.Cursor

set_option autoImplicit false

namespace CodeAtlas.Text

def Halts (p : Text.Class) (t : Text) : Prop := ∀ x ∈ t.head?, p x = false

def Solid (t : Text) : Prop := ∀ x ∈ t, isBlank x = false

def Trimmed (t : Text) : Prop := Halts isBlank t ∧ Halts isBlank t.reverse

def Collapsed (t : Text) : Prop := collapse t = t

@[simp] theorem halts_nil (p : Text.Class) : Halts p [] := by simp [Halts]

@[simp] theorem halts_cons {p : Text.Class} {x : Char} {t : Text} :
    Halts p (x :: t) ↔ p x = false := by simp [Halts]

theorem halts_append {p : Text.Class} {s : Text} (hs : s ≠ []) (t : Text) :
    Halts p (s ++ t) ↔ Halts p s := by
  cases s with
  | nil => exact absurd rfl hs
  | cons x s => simp

theorem halts_of_forall {p : Text.Class} {t : Text} (h : ∀ x ∈ t, p x = false) : Halts p t :=
  fun x hx => h x (List.mem_of_mem_head? hx)

theorem Halts.head?_ne {c : Char} {t : Text} (h : Halts (· == c) t) : t.head? ≠ some c := by
  intro hc
  simpa using h c hc

theorem takeWhile_append_of_halts {p : Text.Class} {s t : Text} (hs : ∀ c ∈ s, p c = true)
    (ht : Halts p t) : (s ++ t).takeWhile p = s := by
  have hstop : t.takeWhile p = [] := by
    cases t with
    | nil => rfl
    | cons x t => simp [halts_cons.1 ht]
  rw [List.takeWhile_append_of_pos hs, hstop, List.append_nil]

/-- A text is cut in one way into characters of a class and a rest that does not begin with one. -/
theorem append_inj_of_halts {p : Text.Class} {s s' t t' : Text} (hs : ∀ c ∈ s, p c = true)
    (hs' : ∀ c ∈ s', p c = true) (ht : Halts p t) (ht' : Halts p t') (h : s ++ t = s' ++ t') :
    s = s' ∧ t = t' := by
  have hhead : s = s' := by
    rw [← takeWhile_append_of_halts hs ht, h, takeWhile_append_of_halts hs' ht']
  exact ⟨hhead, List.append_cancel_left (hhead ▸ h)⟩

@[simp] theorem solid_append {s t : Text} : Solid (s ++ t) ↔ Solid s ∧ Solid t := by
  simp [Solid, or_imp, forall_and]

theorem forall_mem_joinWith {P : Char → Prop} {sep : Text} {ts : List Text}
    (hsep : ∀ c ∈ sep, P c) (h : ∀ t ∈ ts, ∀ c ∈ t, P c) : ∀ c ∈ joinWith sep ts, P c := by
  induction ts with
  | nil => simp
  | cons t ts ih =>
    have ih := ih fun u hu => h u (.tail _ hu)
    cases ts with
    | nil => exact h t (.head _)
    | cons t' ts =>
      intro c hc
      simp only [joinWith_cons_cons, List.mem_append] at hc
      rcases hc with (hc | hc) | hc
      · exact h t (.head _) c hc
      · exact hsep c hc
      · exact ih c hc

theorem Solid.trimmed {t : Text} (h : Solid t) : Trimmed t :=
  ⟨halts_of_forall h, halts_of_forall fun x hx => h x (List.mem_reverse.1 hx)⟩

theorem Solid.append {s t : Text} (hs : Solid s) (ht : Solid t) : Solid (s ++ t) :=
  solid_append.2 ⟨hs, ht⟩

theorem splitWords_append {x : Char} (hx : isBlank x = true) (s t : Text) :
    splitWords (s ++ x :: t) = ((splitWords s).1, (splitWords s).2 ++ words t) := by
  induction s with
  | nil => simp [splitWords, words, hx]
  | cons c s ih =>
    simp only [List.cons_append, splitWords, ih]
    split
    · split <;> rfl
    · rfl

theorem words_append {x : Char} (hx : isBlank x = true) (s t : Text) :
    words (s ++ x :: t) = words s ++ words t := by
  simp only [words, splitWords_append hx]
  split <;> rfl

theorem words_of_solid {t : Text} (h : Solid t) (hne : t ≠ []) : words t = [t] := by
  have hw : splitWords t = (t, []) := by
    clear hne
    induction t with
    | nil => rfl
    | cons c t ih => simp [splitWords, ih fun x hx => h x (.tail _ hx), h c (.head _)]
  simp [words, hw, hne]

theorem mem_words {t w : Text} (h : w ∈ words t) : w ≠ [] ∧ Solid w := by
  have hsplit : Solid (splitWords t).1 ∧ ∀ w ∈ (splitWords t).2, w ≠ [] ∧ Solid w := by
    clear h
    induction t with
    | nil => simp [splitWords, Solid]
    | cons c t ih =>
      obtain ⟨hw, hmore⟩ := ih
      simp only [splitWords]
      split
      · refine ⟨by simp [Solid], ?_⟩
        split
        · exact hmore
        · rename_i hne
          exact List.forall_mem_cons.2 ⟨⟨by simpa using hne, hw⟩, hmore⟩
      · rename_i hc
        exact ⟨List.forall_mem_cons.2 ⟨by simpa using hc, hw⟩, hmore⟩
  unfold words at h
  simp only at h
  split at h
  · exact hsplit.2 w h
  · rename_i hne
    rcases List.mem_cons.1 h with rfl | h
    · exact ⟨by simpa using hne, hsplit.1⟩
    · exact hsplit.2 w h

theorem joinWith_append {sep : Text} {ss ts : List Text} (hs : ss ≠ []) (ht : ts ≠ []) :
    joinWith sep (ss ++ ts) = joinWith sep ss ++ sep ++ joinWith sep ts := by
  induction ss with
  | nil => exact absurd rfl hs
  | cons s ss ih =>
    cases ss with
    | nil =>
      obtain ⟨t, ts, rfl⟩ := List.exists_cons_of_ne_nil ht
      rfl
    | cons s' ss =>
      have h := ih (by simp)
      simp only [List.cons_append, joinWith_cons_cons, List.append_assoc] at h ⊢
      rw [h]

theorem joinWith_append_cons (sep u t : Text) (ts : List Text) :
    joinWith sep ((u ++ t) :: ts) = u ++ joinWith sep (t :: ts) := by
  cases ts with
  | nil => rfl
  | cons t' ts => simp only [joinWith_cons_cons, List.append_assoc]

theorem joinWith_concat_append (sep t u : Text) (ts : List Text) :
    joinWith sep (ts ++ [t ++ u]) = joinWith sep (ts ++ [t]) ++ u := by
  induction ts with
  | nil => rfl
  | cons s ts ih =>
    cases ts with
    | nil => simp
    | cons s' ts =>
      simp only [List.cons_append, joinWith_cons_cons, List.append_assoc] at ih ⊢
      rw [ih]

theorem joinWith_append_right (sep u t : Text) (ts : List Text) :
    joinWith (sep ++ u) (t :: ts) = joinWith sep (t :: ts.map (u ++ ·)) := by
  induction ts generalizing t with
  | nil => rfl
  | cons t' ts ih =>
    rw [joinWith_cons_cons, ih, List.map_cons, joinWith_cons_cons, joinWith_append_cons]
    simp only [List.append_assoc]

theorem words_ne_nil_of_collapsed {t : Text} (h : Collapsed t) (hne : t ≠ []) : words t ≠ [] := by
  intro hw
  rw [Collapsed, collapse, hw] at h
  exact hne h.symm

theorem Collapsed.append {s t : Text} (hs : Collapsed s) (ht : Collapsed t) (hsn : s ≠ [])
    (htn : t ≠ []) : Collapsed (s ++ ' ' :: t) := by
  rw [Collapsed, collapse, words_append (by decide), joinWith_append
    (words_ne_nil_of_collapsed hs hsn) (words_ne_nil_of_collapsed ht htn)]
  change collapse s ++ [' '] ++ collapse t = _
  rw [hs, ht]
  simp

theorem Solid.collapsed {t : Text} (h : Solid t) : Collapsed t := by
  by_cases hne : t = []
  · subst hne; rfl
  · rw [Collapsed, collapse, words_of_solid h hne]
    rfl

/-- A text whose white space is single spaces, each before something else. -/
def Single : Text → Prop
  | [] => True
  | c :: t => (isBlank c = true → c = ' ' ∧ t ≠ [] ∧ Halts isBlank t) ∧ Single t

theorem Solid.single_append {s t : Text} (hs : Solid s) (ht : Single t) : Single (s ++ t) := by
  induction s with
  | nil => exact ht
  | cons c s ih =>
    refine ⟨fun hc => ?_, ih fun x hx => hs x (.tail _ hx)⟩
    rw [hs c (.head _)] at hc
    cases hc

theorem joinWith_splitWords {t : Text} (h : Single t) :
    joinWith [' '] ((splitWords t).1 :: (splitWords t).2) = t := by
  induction t with
  | nil => rfl
  | cons c t ih =>
    have ih := ih h.2
    cases hc : isBlank c with
    | false =>
      simp only [splitWords, hc]
      exact (joinWith_append_cons [' '] [c] _ _).trans (congrArg (c :: ·) ih)
    | true =>
      obtain ⟨rfl, hne, hhalts⟩ := h.1 hc
      obtain ⟨d, u, rfl⟩ := List.exists_cons_of_ne_nil hne
      have hword : (splitWords (d :: u)).1 ≠ [] := by simp [splitWords, halts_cons.1 hhalts]
      have hsplit : splitWords (' ' :: d :: u) =
          ([], (splitWords (d :: u)).1 :: (splitWords (d :: u)).2) := by
        rw [splitWords]
        simp [hc, hword]
      rw [hsplit]
      exact congrArg (' ' :: ·) ih

theorem Single.collapsed {t : Text} (h : Single t) (hb : Halts isBlank t) : Collapsed t := by
  cases t with
  | nil => rfl
  | cons c t =>
    have hword : (splitWords (c :: t)).1 ≠ [] := by simp [splitWords, halts_cons.1 hb]
    have hjoin := joinWith_splitWords h
    rw [Collapsed, collapse, words]
    simpa [hword] using hjoin

theorem splitWords_append_of_solid {s : Text} (hs : Solid s) (t : Text) :
    splitWords (s ++ t) = (s ++ (splitWords t).1, (splitWords t).2) := by
  induction s with
  | nil => rfl
  | cons c s ih => simp [splitWords, ih fun x hx => hs x (.tail _ hx), hs c (.head _)]

theorem collapse_append_of_solid {s : Text} (hs : Solid s) (hne : s ≠ []) (t : Text) :
    ∃ u, collapse (s ++ t) = s ++ u := by
  refine ⟨joinWith [' '] ((splitWords t).1 :: (splitWords t).2), ?_⟩
  simp [collapse, words, splitWords_append_of_solid hs, hne, joinWith_append_cons]

theorem mem_collapse {t : Text} {c : Char} (hc : c ∈ collapse t) : c = ' ' ∨ c ∈ t := by
  have hsplit : ∀ w ∈ (splitWords t).1 :: (splitWords t).2, ∀ c ∈ w, c ∈ t := by
    clear hc
    induction t with
    | nil => simp [splitWords]
    | cons x t ih =>
      intro w hw c hcw
      simp only [splitWords] at hw
      split at hw
      · rcases List.mem_cons.1 hw with rfl | hw
        · cases hcw
        · split at hw
          · exact .tail _ (ih w (.tail _ hw) c hcw)
          · exact .tail _ (ih w hw c hcw)
      · rcases List.mem_cons.1 hw with rfl | hw
        · rcases List.mem_cons.1 hcw with rfl | hcw
          · exact .head _
          · exact .tail _ (ih _ (.head _) c hcw)
        · exact .tail _ (ih w (.tail _ hw) c hcw)
  have hwords : ∀ w ∈ words t, ∀ c ∈ w, c ∈ t := by
    intro w hw
    simp only [words] at hw
    split at hw
    · exact hsplit w (.tail _ hw)
    · exact hsplit w hw
  exact forall_mem_joinWith (P := fun c => c = ' ' ∨ c ∈ t) (by simp)
    (fun w hw c hc => .inr (hwords w hw c hc)) c hc

theorem collapse_cons_of_isBlank {x : Char} (hx : isBlank x = true) (t : Text) :
    collapse (x :: t) = collapse t := by
  simpa [collapse] using congrArg (joinWith [' ']) (words_append hx [] t)

theorem collapse_concat_of_isBlank {x : Char} (hx : isBlank x = true) (t : Text) :
    collapse (t ++ [x]) = collapse t := by
  simpa [collapse] using congrArg (joinWith [' ']) (words_append hx t [])

theorem joinWith_ne_nil {sep t : Text} (ht : t ≠ []) (ts : List Text) :
    joinWith sep (t :: ts) ≠ [] := by
  cases ts with
  | nil => exact ht
  | cons t' ts => simp [joinWith_cons_cons, ht]

theorem exists_joinWith_eq_append (sep t : Text) (ts : List Text) :
    ∃ s, ∃ u ∈ t :: ts, joinWith sep (t :: ts) = s ++ u := by
  induction ts generalizing t with
  | nil => exact ⟨[], t, .head _, rfl⟩
  | cons u us ih =>
    obtain ⟨s, v, hv, hs⟩ := ih u
    refine ⟨t ++ sep ++ s, v, .tail _ hv, ?_⟩
    rw [joinWith_cons_cons, hs, List.append_assoc]
    simp only [List.append_assoc]

theorem halts_joinWith {p : Text.Class} {sep t : Text} (ht : t ≠ []) (h : Halts p t)
    (ts : List Text) : Halts p (joinWith sep (t :: ts)) := by
  cases ts with
  | nil => exact h
  | cons t' ts =>
    rw [joinWith_cons_cons, List.append_assoc, halts_append ht]
    exact h

theorem halts_ends_joinWith {p : Text.Class} {sep : Text} {ws : List Text}
    (h : ∀ w ∈ ws, w ≠ [] ∧ ∀ c ∈ w, p c = false) :
    Halts p (joinWith sep ws) ∧ Halts p (joinWith sep ws).reverse := by
  induction ws with
  | nil => simp
  | cons w ws ih =>
    obtain ⟨hne, hw⟩ := h w (.head _)
    cases ws with
    | nil => exact ⟨halts_of_forall hw, halts_of_forall fun c hc => hw c (List.mem_reverse.1 hc)⟩
    | cons w' ws =>
      have ih := ih fun u hu => h u (.tail _ hu)
      have hjoin : joinWith sep (w' :: ws) ≠ [] := joinWith_ne_nil (h w' (.tail _ (.head _))).1 ws
      refine ⟨halts_joinWith hne (halts_of_forall hw) _, ?_⟩
      rw [joinWith_cons_cons, List.reverse_append, halts_append (by simpa using hjoin)]
      exact ih.2

theorem trimmed_joinWith {sep : Text} {ws : List Text} (h : ∀ w ∈ ws, w ≠ [] ∧ Solid w) :
    Trimmed (joinWith sep ws) := halts_ends_joinWith h

theorem trimmed_collapse (t : Text) : Trimmed (collapse t) :=
  trimmed_joinWith fun _ => mem_words

theorem Collapsed.trimmed {t : Text} (h : Collapsed t) : Trimmed t := by
  have ht := trimmed_collapse t
  rwa [show collapse t = t from h] at ht

theorem dropWhile_of_halts {p : Text.Class} {t : Text} (h : Halts p t) : t.dropWhile p = t := by
  cases t with
  | nil => rfl
  | cons x t => simp [halts_cons.1 h]

theorem trim_eq_self {p : Text.Class} {t : Text} (h : ∀ x ∈ t, p x = false) : trim p t = t := by
  rw [trim, dropWhile_of_halts (halts_of_forall h), dropRight,
    dropWhile_of_halts (halts_of_forall fun x hx => h x (List.mem_reverse.1 hx)),
    List.reverse_reverse]

theorem dropRight_append {p : Text.Class} {t r : Text} (hr : ∀ x ∈ r, p x = true)
    (ht : Halts p t.reverse) : dropRight p (t ++ r) = t := by
  rw [dropRight, List.reverse_append,
    List.dropWhile_append_of_pos fun x hx => hr x (List.mem_reverse.1 hx), dropWhile_of_halts ht,
    List.reverse_reverse]

theorem trim_enclosed {p : Text.Class} {l t r : Text} (hl : ∀ x ∈ l, p x = true)
    (hr : ∀ x ∈ r, p x = true) (ht : Halts p t ∧ Halts p t.reverse) :
    trim p (l ++ (t ++ r)) = t := by
  rw [trim, List.dropWhile_append_of_pos hl]
  by_cases hne : t = []
  · subst hne
    have hnil : (r ++ []).dropWhile p = [].dropWhile p := List.dropWhile_append_of_pos hr
    rw [List.append_nil] at hnil
    rw [List.nil_append, hnil]
    rfl
  · rw [dropWhile_of_halts ((halts_append hne r).2 ht.1), dropRight_append hr ht.2]

theorem Trimmed.strip_eq {t : Text} (h : Trimmed t) : strip t = t := by
  rw [strip, trim, dropWhile_of_halts h.1, dropRight, dropWhile_of_halts h.2, List.reverse_reverse]

theorem Trimmed.strip_cons {t : Text} (h : Trimmed t) : strip (' ' :: t) = t :=
  (by simp [strip, trim, isBlank] : strip (' ' :: t) = strip t).trans h.strip_eq

theorem Trimmed.strip_append {t : Text} (h : Trimmed t) : strip (t ++ [' ']) = t := by
  by_cases hne : t = []
  · subst hne; rfl
  · have hd : (t ++ [' ']).dropWhile isBlank = t ++ [' '] :=
      dropWhile_of_halts ((halts_append hne _).2 h.1)
    have hr : (' ' :: t.reverse).dropWhile isBlank = t.reverse := by
      rw [List.dropWhile_cons_of_pos (by decide), dropWhile_of_halts h.2]
    rw [strip, trim, hd, dropRight, List.reverse_append, List.reverse_singleton,
      List.singleton_append, hr, List.reverse_reverse]

section CutAt

variable {x : Char} {sep s : Text}

theorem cutAt?_append (hs : x ∉ s) (t : Text) :
    cutAt? (x :: sep) (s ++ (x :: sep) ++ t) = some (s, t) := by
  induction s with
  | nil => simp [cutAt?]
  | cons c s ih =>
    have hx : ¬ x = c := fun hx => hs (hx ▸ .head _)
    have ih := ih fun hm => hs (.tail _ hm)
    simp only [List.append_assoc, List.cons_append] at ih
    simp [cutAt?, hx, ih]

theorem cutAt?_eq_none (hs : x ∉ s) : cutAt? (x :: sep) s = none := by
  induction s with
  | nil => rfl
  | cons c s ih =>
    have hx : ¬ x = c := fun hx => hs (hx ▸ .head _)
    have ih := ih fun hm => hs (.tail _ hm)
    simpa [cutAt?, hx] using ih

end CutAt

end CodeAtlas.Text
