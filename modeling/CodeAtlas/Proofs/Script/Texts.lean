import CodeAtlas.Proofs.Script.Source

set_option autoImplicit false

namespace CodeAtlas.Script

theorem ne_of_isIdentPart {c d : Char} (hc : isIdentPart c = true) (hd : isIdentPart d = false) :
    c ≠ d := by
  rintro rfl
  rw [hc] at hd
  cases hd

theorem isBlank_of_isIdentPart {c : Char} (hc : isIdentPart c = true) : Text.isBlank c = false :=
  (Parameter.isPlain_iff.1 (Parameter.isPlain_of_isIdentPart hc)).1

theorem isIdentPart_of_isBlank {c : Char} (hc : Text.isBlank c = true) : isIdentPart c = false :=
  Bool.eq_false_iff.2 fun hpart => by simp [isBlank_of_isIdentPart hpart] at hc

theorem isBracket_of_isIdentPart {c : Char} (hc : isIdentPart c = true) :
    Nesting.isBracket c = false :=
  (Parameter.isPlain_iff.1 (Parameter.isPlain_of_isIdentPart hc)).2.1

namespace Ident

variable (n : Ident)

theorem isIdentPart {c : Char} (hc : c ∈ n.text) : isIdentPart c = true := by
  rcases List.mem_cons.1 hc with rfl | hc
  · exact isIdentPart_of_isIdentStart n.start
  · exact n.part c hc

theorem ne_nil : n.text ≠ [] := List.cons_ne_nil _ _

theorem solid : n.text.Solid := fun _ hc => isBlank_of_isIdentPart (n.isIdentPart hc)

theorem not_mem {d : Char} (hd : Script.isIdentPart d = false) : d ∉ n.text :=
  fun hc => ne_of_isIdentPart (n.isIdentPart hc) hd rfl

theorem phrase : Phrase n.text :=
  phrase_of_solid n.ne_nil n.solid (fun _ hc => isBracket_of_isIdentPart (n.isIdentPart hc))
    (n.not_mem (by decide))

theorem halts {p : Text.Class} (hp : ∀ c, isIdentStart c = true → p c = false) (rest : Text) :
    Text.Halts p (n.text ++ rest) := Text.halts_cons.2 (hp _ n.start)

theorem halts_isBlank (rest : Text) : Text.Halts Text.isBlank (n.text ++ rest) :=
  n.halts (fun _ hc => isBlank_of_isIdentPart (isIdentPart_of_isIdentStart hc)) rest

theorem head?_ne {d : Char} (hd : isIdentStart d = false) (rest : Text) :
    (n.text ++ rest).head? ≠ some d := by
  intro h
  rw [← Option.some.inj h, n.start] at hd
  cases hd

end Ident

-- Behind identifiers.

def Begins (starts : List Char) (t : Text) : Prop := ∃ d ∈ t.head?, d ∈ starts

/-- White space behind a character of a class is a single space, and what follows begins in one of
the given ways. -/
def Clear (p : Text.Class) (starts : List Char) : Text → Prop
  | c :: b :: t =>
    (p c = true → Text.isBlank b = true → b = ' ' ∧ Begins starts t) ∧ Clear p starts (b :: t)
  | _ => True

def Follows (starts : List Char) (t : Text) : Prop :=
  Text.Halts Text.isBlank t ∨ ∃ u, t = ' ' :: u ∧ Begins starts u

section Clear

variable {p : Text.Class} {starts : List Char} {s t : Text} {c : Char}

theorem begins_cons (hc : c ∈ starts) : Begins starts (c :: t) := ⟨c, rfl, hc⟩

theorem Begins.cons (h : Begins starts t) : Begins (c :: starts) t := by
  obtain ⟨d, hd, hs⟩ := h
  exact ⟨d, hd, .tail _ hs⟩

theorem Begins.halts (h : Begins starts t) (hp : ∀ d ∈ starts, p d = false) : Text.Halts p t := by
  obtain ⟨d, hd, hs⟩ := h
  intro x hx
  rw [Option.some.inj (hx.symm.trans hd)]
  exact hp d hs

theorem Begins.head?_ne (h : Begins starts t) (hc : c ∉ starts) : t.head? ≠ some c := by
  obtain ⟨d, hd, hs⟩ := h
  intro hx
  rw [Option.some.inj (hx.symm.trans hd)] at hc
  exact hc hs

theorem Follows.clear_cons (hf : Follows starts t) (ht : Clear p starts t) (c : Char) :
    Clear p starts (c :: t) := by
  cases t with
  | nil => trivial
  | cons b t =>
    refine ⟨fun _ hb => ?_, ht⟩
    rcases hf with hf | ⟨u, hu, hbegins⟩
    · rw [Text.halts_cons.1 hf] at hb
      cases hb
    · cases hu
      exact ⟨rfl, hbegins⟩

theorem clear_cons_of_sign (hc : p c = false) (ht : Clear p starts t) :
    Clear p starts (c :: t) := by
  cases t with
  | nil => trivial
  | cons b t =>
    refine ⟨fun h => ?_, ht⟩
    rw [hc] at h
    cases h

theorem Clear.append_solid (hs : s.Solid) (hf : Follows starts t) (ht : Clear p starts t) :
    Clear p starts (s ++ t) := by
  induction s with
  | nil => exact ht
  | cons c s ih =>
    have hs' : Text.Solid s := fun x hx => hs x (.tail _ hx)
    have hnext : Follows starts (s ++ t) := by
      cases s with
      | nil => exact hf
      | cons x s => exact .inl (Text.halts_cons.2 (hs' x (.head _)))
    exact hnext.clear_cons (ih hs') c

theorem Clear.of_append (h : Clear p starts (s ++ t)) : Clear p starts t := by
  induction s with
  | nil => exact h
  | cons c s ih =>
    cases hst : s ++ t with
    | nil =>
      rw [(List.append_eq_nil_iff.1 hst).2]
      trivial
    | cons b u =>
      rw [List.cons_append, hst] at h
      exact ih (hst ▸ h.2)

theorem clear_joinWith (hp : ∀ c, isIdentPart c = false → p c = false) {ts : List Text}
    (hts : ∀ u ∈ ts, ∀ {t}, Follows starts t → Clear p starts t → Clear p starts (u ++ t))
    (hf : Follows starts t) (ht : Clear p starts t) :
    Clear p starts (Text.joinWith ", " ts ++ t) := by
  induction ts with
  | nil => exact ht
  | cons u us ih =>
    have ih := ih fun v hv => hts v (.tail _ hv)
    have hu := hts u (.head _) (t := t) hf ht
    cases us with
    | nil => exact hu
    | cons v us =>
      have hsep : Clear p starts (',' :: ' ' :: (Text.joinWith ", " (v :: us) ++ t)) :=
        clear_cons_of_sign (hp _ (by decide)) (clear_cons_of_sign (hp _ (by decide)) ih)
      have hjoin := hts u (.head _) (.inl (Text.halts_cons.2 (by decide))) hsep
      rw [Text.joinWith_cons_cons, List.append_assoc, List.append_assoc]
      exact hjoin

end Clear

namespace Nested

variable (n : Nested)

theorem mem_text {c : Char} (hc : c ∈ n.text) :
    isIdentPart c = true ∨ c ∈ [',', ' ', '<', '>', '[', ']'] := by
  induction n with
  | done => cases hc
  | name n rest ih =>
    rcases List.mem_append.1 hc with hc | hc
    · exact .inl (n.isIdentPart hc)
    · exact ih hc
  | comma spaced rest ih =>
    rcases List.mem_cons.1 hc with rfl | hc
    · exact .inr (by decide)
    · rcases List.mem_append.1 hc with hc | hc
      · cases spaced
        · cases hc
        · rw [List.mem_singleton.1 hc]
          exact .inr (by decide)
      · exact ih hc
  | group shape inner rest ihi ihr =>
    rcases List.mem_cons.1 hc with rfl | hc
    · cases shape <;> exact .inr (by decide)
    · rcases List.mem_append.1 hc with hc | hc
      · exact ihi hc
      · rcases List.mem_cons.1 hc with rfl | hc
        · cases shape <;> exact .inr (by decide)
        · exact ihr hc

theorem not_mem {d : Char} (hd : isIdentPart d = false) (hd' : d ∉ [',', ' ', '<', '>', '[', ']']) :
    d ∉ n.text := by
  intro hc
  rcases n.mem_text hc with h | h
  · exact ne_of_isIdentPart h hd rfl
  · exact hd' h

theorem isBlank_opener (shape : Shape) : Text.isBlank shape.opener = false := by
  cases shape <;> decide

theorem isBlank_closer (shape : Shape) : Text.isBlank shape.closer = false := by
  cases shape <;> decide

theorem closes_closer (shape : Shape) :
    Nesting.closes (Nesting.lastOf (some shape.opener) n.text) shape.closer = true := by
  have hlast : Nesting.lastOf (some shape.opener) n.text ≠ some '=' :=
    Nesting.lastOf_ne (by cases shape <;> decide) (n.not_mem (by decide) (by decide))
  cases shape <;> simp [Nesting.closes, Nesting.isCloser, Nesting.endsArrow, Shape.closer, hlast]

theorem closed : Nesting.Closed n.text := by
  induction n with
  | done => exact Nesting.closed_nil
  | name n rest ih => exact n.phrase.closed.append ih
  | comma spaced rest ih =>
    cases spaced
    · exact ih.cons (by decide)
    · exact (ih.cons (c := ' ') (by decide)).cons (by decide)
  | group shape inner rest ihi ihr =>
    have hinner := ihi.enclose (by cases shape <;> rfl) (inner.closes_closer shape)
    simpa [text] using hinner.1.append ihr

theorem outer_ofGroups (groups : List (Shape × Nested)) :
    Nesting.outer (ofGroups groups).text = [] := by
  induction groups with
  | nil => rfl
  | cons g groups ih =>
    obtain ⟨shape, inner⟩ := g
    obtain ⟨hclosed, houter⟩ :=
      inner.closed.enclose (by cases shape <;> rfl) (inner.closes_closer shape)
    have htext : (ofGroups ((shape, inner) :: groups)).text =
        shape.opener :: (inner.text ++ [shape.closer]) ++ (ofGroups groups).text := by
      simp [ofGroups, text]
    rw [htext, hclosed.outer_append (closed _), houter, ih]
    rfl

theorem halts_isBlank {rest : Text} (h : Text.Halts Text.isBlank rest) :
    Text.Halts Text.isBlank (n.text ++ rest) := by
  cases n with
  | done => exact h
  | name n r =>
    rw [text, List.append_assoc]
    exact n.halts_isBlank _
  | comma spaced r => exact Text.halts_cons.2 (by decide)
  | group shape inner r => exact Text.halts_cons.2 (isBlank_opener shape)

theorem single_cons {c : Char} {t : Text} (hc : Text.isBlank c = false) (ht : Text.Single t) :
    Text.Single (c :: t) := by
  refine ⟨fun h => ?_, ht⟩
  rw [hc] at h
  cases h

theorem single {rest : Text} (hne : rest ≠ []) (hb : Text.Halts Text.isBlank rest)
    (h : Text.Single rest) : Text.Single (n.text ++ rest) := by
  induction n generalizing rest with
  | done => exact h
  | name n r ih =>
    rw [text, List.append_assoc]
    exact n.solid.single_append (ih hne hb h)
  | comma spaced r ih =>
    have hr := ih hne hb h
    cases spaced
    · exact single_cons (by decide) hr
    · refine single_cons (by decide) ⟨fun _ => ⟨rfl, ?_, r.halts_isBlank hb⟩, hr⟩
      simp [hne]
  | group shape inner r ihi ihr =>
    rw [text, List.cons_append, List.append_assoc, List.cons_append]
    refine single_cons (isBlank_opener shape) (ihi (by simp) (Text.halts_cons.2 (isBlank_closer shape)) ?_)
    exact single_cons (isBlank_closer shape) (ihr hne hb h)

theorem follows {starts : List Char} {rest : Text} (h : Follows starts rest) :
    Follows starts (n.text ++ rest) := by
  cases n with
  | done => exact h
  | name n r =>
    rw [text, List.append_assoc]
    exact .inl (n.halts_isBlank _)
  | comma spaced r => exact .inl (Text.halts_cons.2 (by decide))
  | group shape inner r => exact .inl (Text.halts_cons.2 (isBlank_opener shape))

section Clear

variable {p : Text.Class} {starts : List Char} {rest : Text}

theorem clear (hp : ∀ c, isIdentPart c = false → p c = false) (hf : Follows starts rest)
    (h : Clear p starts rest) : Clear p starts (n.text ++ rest) := by
  induction n generalizing rest with
  | done => exact h
  | name n r ih =>
    rw [text, List.append_assoc]
    exact .append_solid n.solid (r.follows hf) (ih hf h)
  | comma spaced r ih =>
    have hr := ih hf h
    cases spaced
    · exact clear_cons_of_sign (hp _ (by decide)) hr
    · exact clear_cons_of_sign (hp _ (by decide)) (clear_cons_of_sign (hp _ (by decide)) hr)
  | group shape inner r ihi ihr =>
    rw [text, List.cons_append, List.append_assoc, List.cons_append]
    have hclose : Clear p starts (shape.closer :: (r.text ++ rest)) :=
      clear_cons_of_sign (hp _ (by cases shape <;> decide)) (ihr hf h)
    exact clear_cons_of_sign (hp _ (by cases shape <;> decide))
      (ihi (.inl (Text.halts_cons.2 (isBlank_closer shape))) hclose)

end Clear

end Nested

namespace TypeExpr

variable (t : TypeExpr)

theorem text_eq : t.text = t.name.text ++ (Nested.ofGroups t.groups).text := rfl

theorem mem_text {c : Char} (hc : c ∈ t.text) :
    isIdentPart c = true ∨ c ∈ [',', ' ', '<', '>', '[', ']'] := Nested.mem_text _ hc

theorem not_mem {d : Char} (hd : isIdentPart d = false) (hd' : d ∉ [',', ' ', '<', '>', '[', ']']) :
    d ∉ t.text := Nested.not_mem _ hd hd'

theorem outer_text : Nesting.outer t.text = t.name.text := by
  have hname : ∀ c ∈ t.name.text, Nesting.isBracket c = false := fun _ hc =>
    isBracket_of_isIdentPart (t.name.isIdentPart hc)
  rw [text_eq, t.name.phrase.closed.outer_append (Nested.closed _), Nested.outer_ofGroups,
    (Nesting.closed_of_forall hname).2, List.append_nil]

theorem single : Text.Single t.text := by
  have hgroups : ∀ groups, Text.Single (Nested.ofGroups groups).text := by
    intro groups
    induction groups with
    | nil => trivial
    | cons g groups ih =>
      obtain ⟨shape, inner⟩ := g
      exact Nested.single_cons (Nested.isBlank_opener shape)
        (inner.single (by simp) (Text.halts_cons.2 (Nested.isBlank_closer shape))
          (Nested.single_cons (Nested.isBlank_closer shape) ih))
  exact t.name.solid.single_append (hgroups t.groups)

theorem ne_nil : t.text ≠ [] := by simp [text_eq, t.name.ne_nil]

theorem halts_isBlank (rest : Text) : Text.Halts Text.isBlank (t.text ++ rest) := by
  rw [text_eq, List.append_assoc]
  exact t.name.halts_isBlank _

theorem phrase : Phrase t.text where
  ne_nil := t.ne_nil
  collapsed := t.single.collapsed (by simpa using t.halts_isBlank [])
  closed := Nested.closed _
  comma_not_mem := t.outer_text.symm ▸ t.name.not_mem (by decide)

theorem clear {p : Text.Class} {starts : List Char} {rest : Text}
    (hp : ∀ c, isIdentPart c = false → p c = false) (hf : Follows starts rest)
    (h : Clear p starts rest) : Clear p starts (t.text ++ rest) := Nested.clear _ hp hf h

theorem typeName_text : typeName t.text = t.name.text := by
  have hname : ∀ d ∈ t.name.text, d ≠ '<' ∧ d ≠ '[' := fun d hd =>
    ⟨ne_of_isIdentPart (t.name.isIdentPart hd) (by decide),
      ne_of_isIdentPart (t.name.isIdentPart hd) (by decide)⟩
  rw [text_eq]
  cases t.groups with
  | nil =>
    rw [Nested.ofGroups, Nested.text, List.append_nil]
    exact typeName_eq_self hname
  | cons g groups =>
    obtain ⟨shape, inner⟩ := g
    exact typeName_append hname t.name.solid (by cases shape <;> simp [Shape.opener])

theorem getLast?_joinWith (ts : List TypeExpr) :
    ∃ s d, Text.joinWith ", " ((t :: ts).map text) = s ++ [d] ∧ Text.isBlank d = false := by
  obtain ⟨s, u, hu, hs⟩ := Text.exists_joinWith_eq_append ", " t.text (ts.map text)
  obtain ⟨v, _, rfl⟩ := List.mem_map.1 (List.map_cons ▸ hu : u ∈ (t :: ts).map text)
  obtain ⟨d, w, hw⟩ := List.exists_cons_of_ne_nil (mt List.reverse_eq_nil_iff.1 v.ne_nil)
  have htrim := v.phrase.collapsed.trimmed.2
  rw [hw, Text.halts_cons] at htrim
  refine ⟨s ++ w.reverse, d, ?_, htrim⟩
  rw [List.map_cons, hs, ← List.reverse_reverse v.text, hw, List.reverse_cons, List.append_assoc]

theorem not_mem_joinWith {d : Char} (hd : isIdentPart d = false)
    (hd' : d ∉ [',', ' ', '<', '>', '[', ']']) (ts : List TypeExpr) :
    d ∉ Text.joinWith ", " (ts.map text) := by
  have hsep : ∀ c ∈ (", " : Text), c ∈ [',', ' ', '<', '>', '[', ']'] := by decide
  have hne : ∀ c ∈ Text.joinWith ", " (ts.map text), c ≠ d :=
    Text.forall_mem_joinWith (fun c hc h => hd' (h ▸ hsep c hc))
      (List.forall_mem_map.2 fun t _ c hc h => t.not_mem hd hd' (h ▸ hc))
  exact fun hm => hne d hm rfl

theorem typeNames (ts : List TypeExpr) :
    (splitNames (Text.joinWith ", " (ts.map text))).map typeName = ts.map fun t => t.name.text := by
  have hphrase : ∀ u ∈ ts.map text, Phrase u := List.forall_mem_map.2 fun t _ => t.phrase
  rw [splitNames_joinWith fun u hu => (hphrase u hu).listable, map_collapse_eq hphrase, List.map_map]
  exact List.map_congr_left fun t _ => t.typeName_text

end TypeExpr

theorem Atom.mem_text (v : Atom) {c : Char} (hc : c ∈ v.text) :
    isIdentPart c = true ∨ c ∈ ['.', '+', '-'] := by
  simpa using v.plain c hc

theorem Atom.phrase (v : Atom) : Phrase v.text := by
  refine phrase_of_solid v.ne_nil (fun c hc => ?_) (fun c hc => ?_) fun hc => ?_
  · rcases v.plain c hc with h | rfl | rfl | rfl
    · exact isBlank_of_isIdentPart h
    all_goals decide
  · rcases v.plain c hc with h | rfl | rfl | rfl
    · exact isBracket_of_isIdentPart h
    all_goals decide
  · rcases v.plain _ hc with h | h | h | h <;> revert h <;> decide

theorem Atom.solid (v : Atom) : v.text.Solid := by
  intro c hc
  rcases v.plain c hc with h | rfl | rfl | rfl
  · exact isBlank_of_isIdentPart h
  all_goals decide

namespace Param

variable (p : Param)

theorem proper : p.form.Proper where
  lead := by simp [form]
  name_ne_nil := p.name.ne_nil
  name_plain := fun _ hc => Parameter.isPlain_of_isIdentPart (p.name.isIdentPart hc)
  name_head := fun h => p.name.not_mem (by decide) (List.mem_of_mem_head? h)
  type := by
    intro t ht
    obtain ⟨u, _, rfl⟩ := Option.map_eq_some_iff.1 ht
    exact ⟨u.phrase, Nesting.misses_of_not_mem (by decide)
      (u.outer_text.symm ▸ u.name.not_mem (by decide))⟩
  value := by
    intro v hv
    obtain ⟨u, _, rfl⟩ := Option.map_eq_some_iff.1 hv
    exact u.phrase

theorem parameter_form : p.form.parameter false = p.declared := by
  simp [Parameter.Form.parameter, form, declared]

theorem parse_joinWith (ps : List Param) :
    Parameter.parse false (Text.joinWith ", " (ps.map text)) = ps.map declared := by
  have hforms : ∀ f ∈ ps.map form, f.Proper := List.forall_mem_map.2 fun p _ => p.proper
  have hdeclared : Parameter.Form.parameter false ∘ form = declared := funext parameter_form
  have hparse := Parameter.parse_joinWith false hforms
  rwa [List.map_map, List.map_map, hdeclared] at hparse

def annotation (p : Param) : Text :=
  match p.type with
  | some t => ':' :: ' ' :: t.text
  | none => []

def default (p : Param) : Text :=
  match p.value with
  | some v => ' ' :: '=' :: ' ' :: v.text
  | none => []

theorem text_eq : p.text =
    p.name.text ++ ((if p.question then ['?'] else []) ++ (p.annotation ++ p.default)) := by
  have hhead : p.form.head = p.name.text ++ (if p.question then ['?'] else []) := rfl
  have htyped : p.form.typed = p.form.head ++ p.annotation := by
    cases ht : p.type <;> simp [Parameter.Form.typed, annotation, form, ht]
  have htext : p.text = p.form.typed ++ p.default := by
    cases hv : p.value <;> simp [text, Parameter.Form.text, default, form, hv]
  rw [htext, htyped, hhead]
  simp only [List.append_assoc]

theorem mem_annotation {c : Char} (hc : c ∈ p.annotation) :
    isIdentPart c = true ∨ c ∈ [',', ' ', '<', '>', '[', ']', ':'] := by
  have hsigns : ∀ d ∈ [',', ' ', '<', '>', '[', ']'], d ∈ [',', ' ', '<', '>', '[', ']', ':'] := by
    decide
  unfold annotation at hc
  split at hc
  · rename_i t _
    simp only [List.mem_cons] at hc
    rcases hc with rfl | rfl | hc
    · decide
    · decide
    · exact (t.mem_text hc).imp_right (hsigns c)
  · cases hc

theorem mem_default {c : Char} (hc : c ∈ p.default) :
    isIdentPart c = true ∨ c ∈ [' ', '=', '.', '+', '-'] := by
  have hsigns : ∀ d ∈ ['.', '+', '-'], d ∈ [' ', '=', '.', '+', '-'] := by decide
  unfold default at hc
  split at hc
  · rename_i v _
    simp only [List.mem_cons] at hc
    rcases hc with rfl | rfl | rfl | hc
    · decide
    · decide
    · decide
    · exact (v.mem_text hc).imp_right (hsigns c)
  · cases hc

theorem mem_text {c : Char} (hc : c ∈ p.text) : isIdentPart c = true ∨
    c ∈ [',', ' ', '<', '>', '[', ']', '?', ':', '=', '.', '+', '-'] := by
  have hsigns : ∀ t ∈ [['?'], [',', ' ', '<', '>', '[', ']', ':'], [' ', '=', '.', '+', '-']], ∀ d ∈ t,
      d ∈ [',', ' ', '<', '>', '[', ']', '?', ':', '=', '.', '+', '-'] := by decide
  have hquestion : ∀ q : Bool, ∀ d ∈ (if q then ['?'] else []), d ∈ ['?'] := by decide
  simp only [text_eq, List.mem_append] at hc
  rcases hc with hc | hc | hc | hc
  · exact .inl (p.name.isIdentPart hc)
  · exact .inr (hsigns _ (by decide) c (hquestion _ c hc))
  · exact (p.mem_annotation hc).imp_right (hsigns _ (by decide) c)
  · exact (p.mem_default hc).imp_right (hsigns _ (by decide) c)

theorem clear {q : Text.Class} {starts : List Char} {rest : Text}
    (hq : ∀ c, isIdentPart c = false → q c = false) (hs : '=' ∈ starts)
    (hf : Follows starts rest) (h : Clear q starts rest) : Clear q starts (p.text ++ rest) := by
  have hdefault : Clear q starts (p.default ++ rest) ∧ Follows starts (p.default ++ rest) := by
    unfold default
    split
    · rename_i v _
      refine ⟨?_, .inr ⟨'=' :: ' ' :: (v.text ++ rest), rfl, begins_cons hs⟩⟩
      have hv : Clear q starts (v.text ++ rest) := .append_solid v.solid hf h
      exact clear_cons_of_sign (hq _ (by decide))
        (clear_cons_of_sign (hq _ (by decide)) (clear_cons_of_sign (hq _ (by decide)) hv))
    · exact ⟨h, hf⟩
  have hannotation : Clear q starts (p.annotation ++ (p.default ++ rest)) ∧
      Follows starts (p.annotation ++ (p.default ++ rest)) := by
    unfold annotation
    split
    · rename_i t _
      have ht : Clear q starts (t.text ++ (p.default ++ rest)) := t.clear hq hdefault.2 hdefault.1
      exact ⟨clear_cons_of_sign (hq _ (by decide)) (clear_cons_of_sign (hq _ (by decide)) ht),
        .inl (Text.halts_cons.2 (by decide))⟩
    · exact hdefault
  rw [text_eq, List.append_assoc, List.append_assoc, List.append_assoc]
  refine .append_solid p.name.solid ?_ ?_
  · cases p.question
    · exact hannotation.2
    · exact .inl (Text.halts_cons.2 (by decide))
  · cases p.question
    · exact hannotation.1
    · exact clear_cons_of_sign (hq _ (by decide)) hannotation.1

end Param

namespace FunctionHead

variable (f : FunctionHead)

theorem mem_parameterText {c : Char} (hc : c ∈ f.parameterText) : isIdentPart c = true ∨
    c ∈ [',', ' ', '<', '>', '[', ']', '?', ':', '=', '.', '+', '-'] := by
  have hsep : ∀ d ∈ (", " : Text), d ∈ [',', ' ', '<', '>', '[', ']', '?', ':', '=', '.', '+', '-'] := by
    decide
  exact Text.forall_mem_joinWith (fun d hd => .inr (hsep d hd))
    (List.forall_mem_map.2 fun p _ d hd => p.mem_text hd) c hc

theorem not_mem_parameterText {d : Char} (hd : isIdentPart d = false)
    (hd' : d ∉ [',', ' ', '<', '>', '[', ']', '?', ':', '=', '.', '+', '-']) :
    d ∉ f.parameterText := by
  intro hc
  rcases f.mem_parameterText hc with h | h
  · exact ne_of_isIdentPart h hd rfl
  · exact hd' h

theorem not_mem_signature {d : Char} (hd : isIdentPart d = false)
    (hd' : d ∉ [',', ' ', '<', '>', '[', ']', '?', ':', '=', '.', '+', '-'])
    (hsign : d ∉ ['(', ')', '{']) : d ∉ f.signature := by
  have htype : ∀ e ∈ [',', ' ', '<', '>', '[', ']'],
      e ∈ [',', ' ', '<', '>', '[', ']', '?', ':', '=', '.', '+', '-'] := by decide
  have hspace : d ≠ ' ' := fun h => hd' (by simp [h])
  have hresult : d ∉ f.resultText := by
    unfold resultText
    split
    · rename_i t _
      have hcolon : d ≠ ':' := fun h => hd' (by simp [h])
      simp [hcolon, hspace, t.not_mem hd fun h => hd' (htype d h)]
    · simp
  simp only [List.mem_cons, List.not_mem_nil, or_false, not_or] at hsign
  simp [signature, f.name.not_mem hd, hsign, f.not_mem_parameterText hd hd', hresult, hspace]

theorem clear_signature {q : Text.Class} (hq : ∀ c, isIdentPart c = false → q c = false) :
    Clear q ['=', '{'] f.signature := by
  have hend : Clear q ['=', '{'] [' ', '{'] := clear_cons_of_sign (hq _ (by decide)) trivial
  have hresult : Clear q ['=', '{'] (f.resultText ++ [' ', '{']) := by
    unfold resultText
    split
    · rename_i t _
      have ht : Clear q ['=', '{'] (t.text ++ [' ', '{']) :=
        t.clear hq (.inr ⟨['{'], rfl, begins_cons (by decide)⟩) hend
      exact clear_cons_of_sign (hq _ (by decide)) (clear_cons_of_sign (hq _ (by decide)) ht)
    · exact hend
  have hclose : Clear q ['=', '{'] (')' :: (f.resultText ++ [' ', '{'])) :=
    clear_cons_of_sign (hq _ (by decide)) hresult
  have hparams : Clear q ['=', '{'] (f.parameterText ++ ')' :: (f.resultText ++ [' ', '{'])) :=
    clear_joinWith hq (List.forall_mem_map.2 fun p _ _ => p.clear hq (by decide))
      (.inl (Text.halts_cons.2 (by decide))) hclose
  have hopen := clear_cons_of_sign (hq '(' (by decide)) hparams
  have hname := Clear.append_solid f.name.solid (.inl (Text.halts_cons.2 (by decide))) hopen
  simpa [signature] using hname

end FunctionHead

theorem Arguments.halts {p : Text.Class} (hspace : p ' ' = false) (hopen : p '<' = false)
    (a : Option Arguments) (rest : Text) : Text.Halts p (Arguments.text a ++ [' '] ++ rest) := by
  cases a with
  | none => exact Text.halts_cons.2 hspace
  | some a => exact Text.halts_cons.2 hopen

theorem Arguments.clear {p : Text.Class} {starts : List Char} {u : Text}
    (hp : ∀ c, isIdentPart c = false → p c = false) (a : Option Arguments) (hu : Begins starts u)
    (h : Clear p starts u) : Clear p starts (Arguments.text a ++ ' ' :: u) ∧
      Follows starts (Arguments.text a ++ ' ' :: u) := by
  have hspace : Clear p starts (' ' :: u) := clear_cons_of_sign (hp _ (by decide)) h
  cases a with
  | none => exact ⟨hspace, .inr ⟨u, rfl, hu⟩⟩
  | some a =>
    have hclose : Clear p starts ('>' :: ' ' :: u) :=
      clear_cons_of_sign (hp _ (by decide)) hspace
    have hinner := a.inner.clear hp (.inl (Text.halts_cons.2 (by decide))) hclose
    have htext : Arguments.text (some a) ++ ' ' :: u = '<' :: (a.inner.text ++ '>' :: ' ' :: u) := by
      simp [Arguments.text]
    rw [htext]
    exact ⟨clear_cons_of_sign (hp _ (by decide)) hinner, .inl (Text.halts_cons.2 (by decide))⟩

theorem Arguments.not_mem {d : Char} (hd : isIdentPart d = false)
    (hd' : d ∉ [',', ' ', '<', '>', '[', ']']) (a : Option Arguments) : d ∉ Arguments.text a := by
  have hopen : d ≠ '<' := fun h => hd' (by simp [h])
  have hclose : d ≠ '>' := fun h => hd' (by simp [h])
  cases a with
  | none => simp [Arguments.text]
  | some a => simp [Arguments.text, hopen, hclose, a.inner.not_mem hd hd']

theorem Dotted.not_mem {d : Char} (hd : isIdentPart d = false) (hdot : d ≠ '.') (n : Dotted) :
    d ∉ n.text := by
  simp [Dotted.text, Text.concat, n.head.not_mem hd, hdot, Ident.not_mem _ hd]

theorem Dotted.solid (d : Dotted) : d.text.Solid := by
  have htail : ∀ ns : List Ident, (Text.concat (ns.map fun n => '.' :: n.text)).Solid := by
    intro ns
    induction ns with
    | nil => simp [Text.Solid]
    | cons n ns ih =>
      have hdot : ∀ c ∈ ['.'], Text.isBlank c = false := by decide
      exact (Text.Solid.append hdot n.solid).append ih
  exact d.head.solid.append (htail d.tail)

namespace ClassHead

variable (c : ClassHead)

def parentPart : Text :=
  match c.parent with
  | some (d, a) => Text.concat ["extends", [' '], d.text, Arguments.text a, [' ']]
  | none => []

def interfacePart : Text :=
  match c.interfaces with
  | [] => []
  | t :: ts =>
    Text.concat ["implements", [' '], Text.joinWith ", " ((t :: ts).map TypeExpr.text), [' ']]

theorem signature_eq : c.signature = c.name.text ++ (Arguments.text c.arguments ++ [' ']
    ++ (c.parentPart ++ (c.interfacePart ++ ['{']))) := by
  unfold signature parentText interfaceText parentPart interfacePart
  cases c.parent <;> cases c.interfaces <;> simp

theorem not_mem_signature {d : Char} (hd : isIdentPart d = false)
    (hd' : d ∉ [',', ' ', '<', '>', '[', ']']) (hdot : d ≠ '.') (hopen : d ≠ '{') :
    d ∉ c.signature := by
  have hspace : d ≠ ' ' := fun h => hd' (by simp [h])
  have hword : ∀ w : Text, (∀ e ∈ w, isIdentPart e = true) → d ∉ w := fun w hw hm =>
    ne_of_isIdentPart (hw d hm) hd rfl
  have hparent : d ∉ c.parentPart := by
    unfold parentPart
    split
    · rename_i n a _
      have hextends := hword "extends" (by decide)
      simp only [Text.concat_cons, Text.concat_nil, List.append_nil, List.mem_append,
        List.mem_singleton, not_or]
      exact ⟨hextends, hspace, n.not_mem hd hdot, Arguments.not_mem hd hd' a, hspace⟩
    · simp
  have hinterfaces : d ∉ c.interfacePart := by
    unfold interfacePart
    split
    · simp
    · have himplements := hword "implements" (by decide)
      simp only [Text.concat_cons, Text.concat_nil, List.append_nil, List.mem_append,
        List.mem_singleton, not_or]
      exact ⟨himplements, hspace, TypeExpr.not_mem_joinWith hd hd' _, hspace⟩
  rw [c.signature_eq]
  simp [c.name.not_mem hd, Arguments.not_mem hd hd', hspace, hparent, hinterfaces, hopen]

theorem begins_interfacePart (rest : Text) :
    Begins ['i', '{'] (c.interfacePart ++ ['{'] ++ rest) := by
  unfold interfacePart
  split
  · exact ⟨'{', rfl, by decide⟩
  · exact ⟨'i', rfl, by decide⟩

theorem begins_parentPart (rest : Text) :
    Begins ['e', 'i', '{'] (c.parentPart ++ (c.interfacePart ++ ['{']) ++ rest) := by
  unfold parentPart
  split
  · exact ⟨'e', rfl, by decide⟩
  · exact (c.begins_interfacePart rest).cons

section Clear

variable {p : Text.Class} (hp : ∀ c, isIdentPart c = false → p c = false) (hs : p 's' = false)
include hp hs

/-- A word that ends with `s` may stand before anything. -/
theorem clear_word {starts : List Char} {w u : Text} (hw : ∀ c ∈ w, Text.isBlank c = false)
    (h : Clear p starts u) :
    Clear p starts (w ++ ['s'] ++ ' ' :: u) := by
  rw [List.append_assoc]
  exact .append_solid hw (.inl (Text.halts_cons.2 (by decide)))
    (clear_cons_of_sign hs (clear_cons_of_sign (hp _ (by decide)) h))

theorem clear_interfacePart : Clear p ['e', 'i', '{'] (c.interfacePart ++ ['{']) := by
  unfold interfacePart
  split
  · trivial
  · rename_i t ts _
    have hend : Clear p ['e', 'i', '{'] [' ', '{'] := clear_cons_of_sign (hp _ (by decide)) trivial
    have hlist : Clear p ['e', 'i', '{']
        (Text.joinWith ", " ((t :: ts).map TypeExpr.text) ++ [' ', '{']) :=
      clear_joinWith hp (List.forall_mem_map.2 fun t _ _ => t.clear hp)
        (.inr ⟨['{'], rfl, begins_cons (by decide)⟩) hend
    simpa using clear_word hp hs (w := "implement") (by decide) hlist

theorem clear_parentPart : Clear p ['e', 'i', '{'] (c.parentPart ++ (c.interfacePart ++ ['{'])) := by
  have hinterfaces := c.clear_interfacePart hp hs
  unfold parentPart
  split
  · rename_i n a _
    have hbegins : Begins ['e', 'i', '{'] (c.interfacePart ++ ['{']) := by
      simpa using (c.begins_interfacePart []).cons
    obtain ⟨harguments, hfollows⟩ := Arguments.clear hp a hbegins hinterfaces
    have hparent := clear_word hp hs (w := "extend") (by decide)
      (.append_solid n.solid hfollows harguments)
    simpa using hparent
  · exact hinterfaces

/-- Only the words before a parent and before interfaces have a space behind them that no word of
this kind follows, and they end with `s`. -/
theorem clear_signature : Clear p ['e', 'i', '{'] c.signature := by
  have hbegins : Begins ['e', 'i', '{'] (c.parentPart ++ (c.interfacePart ++ ['{'])) := by
    simpa using c.begins_parentPart []
  obtain ⟨harguments, hfollows⟩ := Arguments.clear hp c.arguments hbegins (c.clear_parentPart hp hs)
  rw [c.signature_eq, List.append_assoc]
  exact .append_solid c.name.solid hfollows harguments

end Clear

def parentMark : List (Part × Text) :=
  match c.parent with
  | some (d, _) => [(.parent, d.text)]
  | none => []

def interfaceMark : List (Part × Text) :=
  match c.interfaces with
  | [] => []
  | t :: ts => [(.interfaces, Text.joinWith ", " ((t :: ts).map TypeExpr.text))]

end ClassHead

end CodeAtlas.Script
