import CodeAtlas.Text.Pattern

set_option autoImplicit false

namespace CodeAtlas

namespace Cursor

def Passes (c : Cursor) (t : List Char) (d : Cursor) : Prop :=
  d.before = t.reverse ++ c.before ∧ c.rest = t ++ d.rest

theorem Passes.refl (c : Cursor) : c.Passes [] c := ⟨rfl, rfl⟩

theorem Passes.trans {c d e : Cursor} {t u : List Char} (h : c.Passes t d) (k : d.Passes u e) :
    c.Passes (t ++ u) e := by
  obtain ⟨hb, hr⟩ := h
  obtain ⟨kb, kr⟩ := k
  constructor
  · rw [kb, hb]; simp
  · rw [hr, kr]; simp

theorem Passes.one (before rest : List Char) (x : Char) :
    Passes ⟨before, x :: rest⟩ [x] ⟨x :: before, rest⟩ := ⟨rfl, rfl⟩

theorem Passes.between {c d : Cursor} {t : List Char} (h : c.Passes t d) : c.between d = t := by
  obtain ⟨hb, _⟩ := h
  have hl : d.before.length - c.before.length = t.reverse.length := by
    rw [hb, List.length_append]; omega
  rw [Cursor.between, hl, hb, List.take_left, List.reverse_reverse]

def Through (p : Text.Class) (c d : Cursor) : Prop :=
  ∃ t, c.Passes t d ∧ ∀ x ∈ t, p x = true

theorem Through.refl (p : Text.Class) (c : Cursor) : Through p c c := ⟨[], .refl c, by simp⟩

theorem Through.trans {p : Text.Class} {c d e : Cursor} (h : Through p c d) (k : Through p d e) :
    Through p c e := by
  obtain ⟨t, ht, hpt⟩ := h
  obtain ⟨u, hu, hpu⟩ := k
  refine ⟨t ++ u, ht.trans hu, fun x hx => ?_⟩
  rcases List.mem_append.1 hx with hx | hx
  · exact hpt x hx
  · exact hpu x hx

theorem Through.mono {p q : Text.Class} (hpq : ∀ x, p x = true → q x = true) {c d : Cursor}
    (h : Through p c d) : Through q c d := by
  obtain ⟨t, ht, hp⟩ := h
  exact ⟨t, ht, fun x hx => hpq x (hp x hx)⟩

theorem Through.one {p : Text.Class} {x : Char} (hx : p x = true) (before rest : List Char) :
    Through p ⟨before, x :: rest⟩ ⟨x :: before, rest⟩ :=
  ⟨[x], .one before rest x, by simpa using hx⟩

theorem Through.mem_between {p : Text.Class} {c d : Cursor} (h : Through p c d) {x : Char}
    (hx : x ∈ c.between d) : p x = true := by
  obtain ⟨t, ht, hp⟩ := h
  rw [ht.between] at hx
  exact hp x hx

theorem through_of_mem_reach {p : Text.Class} {nearer : List Cursor} {before rest : List Char}
    {d : Cursor} (h : d ∈ reach p nearer before rest) : d ∈ nearer ∨ Through p ⟨before, rest⟩ d := by
  induction rest generalizing nearer before with
  | nil =>
    rcases List.mem_cons.1 h with rfl | h
    · exact .inr (.refl p _)
    · exact .inl h
  | cons x rest ih =>
    rw [reach] at h
    split at h
    · rename_i hx
      rcases ih h with hn | ht
      · rcases List.mem_cons.1 hn with rfl | hn
        · exact .inr (.refl p _)
        · exact .inl hn
      · exact .inr ((Through.one hx before rest).trans ht)
    · rcases List.mem_cons.1 h with rfl | h
      · exact .inr (.refl p _)
      · exact .inl h

theorem through_of_mem_farthestFirst {p : Text.Class} {c d : Cursor}
    (h : d ∈ c.farthestFirst p) : Through p c d := by
  rcases through_of_mem_reach h with h | h
  · simp at h
  · exact h

theorem through_of_mem_nearestFirst {p : Text.Class} {c d : Cursor}
    (h : d ∈ c.nearestFirst p) : Through p c d :=
  through_of_mem_farthestFirst (List.mem_reverse.1 h)

end Cursor

namespace Text

theorem noneOf_of_not_mem {excluded t : Text} (h : ∀ d ∈ excluded, d ∉ t) :
    ∀ c ∈ t, noneOf excluded c = true := by
  intro c hc
  have hex : c ∉ excluded := fun hm => h c hm hc
  simp [noneOf, hex]

theorem noneOf_of_class {excluded : Text} {p : Class} (h : ∀ d ∈ excluded, p d = false) :
    ∀ c, p c = true → noneOf excluded c = true := by
  intro c hc
  have hex : c ∉ excluded := fun hm => by
    rw [h c hm] at hc
    cases hc
  simp [noneOf, hex]

end Text

namespace Pattern

open Cursor (Through)

theorem passes_of_skip? {t : Text} {c d : Cursor} (h : skip? t c = Option.some d) :
    c.Passes t d := by
  induction t generalizing c with
  | nil =>
    have hcd : c = d := by simpa [skip?] using h
    exact hcd ▸ .refl c
  | cons x t ih =>
    obtain ⟨before, _ | ⟨y, rest⟩⟩ := c
    · simp [skip?] at h
    · by_cases hxy : x = y
      · subst hxy
        have ht : skip? t ⟨x :: before, rest⟩ = Option.some d := by simpa [skip?] using h
        exact (Cursor.Passes.one before rest x).trans (ih ht)
      · simp [skip?, hxy] at h

def Within (p : Text.Class) : Pattern → Prop
  | one q | many q | few q => ∀ x, q x = true → p x = true
  | text t => ∀ x ∈ t, p x = true
  | seq a b | either a b => a.Within p ∧ b.Within p
  | again a | mark _ a => a.Within p
  | wordEdge | lineStart | lineEnd | .unless _ => True

/-- What the pattern remembers of a part consists of characters of a class. -/
def Confines (part : Part) (p : Text.Class) : Pattern → Prop
  | seq a b | either a b => a.Confines part p ∧ b.Confines part p
  | again a => a.Confines part p
  | mark q a => (q = part → a.Within p) ∧ a.Confines part p
  | _ => True

@[simp] theorem confines_append {part : Part} {p : Text.Class} {a b : Pattern} :
    (a ++ b).Confines part p ↔ a.Confines part p ∧ b.Confines part p := Iff.rfl

@[simp] theorem confines_char (part : Part) (p : Text.Class) (x : Char) :
    (char x).Confines part p := trivial

@[simp] theorem confines_some (part : Part) (p q : Text.Class) :
    (Pattern.some q).Confines part p := ⟨trivial, trivial⟩

@[simp] theorem confines_blanks (part : Part) (p : Text.Class) : blanks.Confines part p := trivial

@[simp] theorem confines_optional {part : Part} {p : Text.Class} {a : Pattern} :
    (optional a).Confines part p ↔ a.Confines part p := by
  simp [optional, Confines]

@[simp] theorem confines_optionalThenBlanks {part : Part} {p : Text.Class} {a : Pattern} :
    (optionalThenBlanks a).Confines part p ↔ a.Confines part p := by
  simp [optionalThenBlanks]

/-- A relation that holds along a step, and along nothing and along two ways in a row, holds along
repetitions of the step. -/
theorem rel_of_mem_iterateWays {step : Cursor → Marks → List (Cursor × Marks)}
    {r : Cursor × Marks → Cursor × Marks → Prop} (refl : ∀ w, r w w)
    (trans : ∀ {u v w}, r u v → r v w → r u w) (hs : ∀ {c m w}, w ∈ step c m → r (c, m) w)
    {n : Nat} {c : Cursor} {m : Marks} {w : Cursor × Marks} (h : w ∈ iterateWays step n c m) :
    r (c, m) w := by
  induction n generalizing c m with
  | zero =>
    simp only [iterateWays, List.mem_singleton] at h
    exact h ▸ refl _
  | succ n ih =>
    simp only [iterateWays, List.mem_append, List.mem_flatMap, List.mem_singleton] at h
    rcases h with ⟨v, hv, hw⟩ | rfl
    · exact trans (hs hv) (ih hw)
    · exact refl _

theorem eq_of_mem_guard {α : Type} {b : Bool} {v w : α} (h : w ∈ if b then [v] else []) :
    w = v := by
  cases b <;> simp at h
  exact h

theorem through_of_mem_ways {a : Pattern} {p : Text.Class} (ha : a.Within p) {c : Cursor}
    {m : Marks} {w : Cursor × Marks} (h : w ∈ a.ways c m) : Through p c w.1 := by
  induction a generalizing c m w with
  | one q =>
    obtain ⟨before, _ | ⟨x, rest⟩⟩ := c
    · simp [ways] at h
    · by_cases hx : q x = true
      · have hw : w = (⟨x :: before, rest⟩, m) := by simpa [ways, hx] using h
        exact hw ▸ Through.one (ha x hx) before rest
      · simp [ways, hx] at h
  | text t =>
    simp only [ways, List.mem_map, Option.mem_toList] at h
    obtain ⟨d, hd, rfl⟩ := h
    exact ⟨t, passes_of_skip? hd, ha⟩
  | seq a b iha ihb =>
    simp only [ways, List.mem_flatMap] at h
    obtain ⟨v, hv, hw⟩ := h
    exact (iha ha.1 hv).trans (ihb ha.2 hw)
  | either a b iha ihb =>
    simp only [ways, List.mem_append] at h
    rcases h with h | h
    · exact iha ha.1 h
    · exact ihb ha.2 h
  | many q =>
    simp only [ways, List.mem_map] at h
    obtain ⟨d, hd, rfl⟩ := h
    exact (Cursor.through_of_mem_farthestFirst hd).mono ha
  | few q =>
    simp only [ways, List.mem_map] at h
    obtain ⟨d, hd, rfl⟩ := h
    exact (Cursor.through_of_mem_nearestFirst hd).mono ha
  | again a ih =>
    refine rel_of_mem_iterateWays (r := fun u v => Through p u.1 v.1) ?_ ?_ ?_ h
    · exact fun w => .refl p w.1
    · exact fun hu hv => hu.trans hv
    · exact fun hw => ih ha hw
  | mark part a ih =>
    simp only [ways, List.mem_map] at h
    obtain ⟨v, hv, rfl⟩ := h
    exact ih (w := v) ha hv
  | wordEdge => rw [eq_of_mem_guard h]; exact .refl p c
  | lineStart => rw [eq_of_mem_guard h]; exact .refl p c
  | lineEnd => rw [eq_of_mem_guard h]; exact .refl p c
  | «unless» a _ => rw [eq_of_mem_guard h]; exact .refl p c

def MarksWithin (part : Part) (p : Text.Class) (m : Marks) : Prop :=
  ∀ first last, (part, first, last) ∈ m → Through p first last

theorem marksWithin_of_mem_ways {a : Pattern} {part : Part} {p : Text.Class}
    (ha : a.Confines part p) {c : Cursor} {m : Marks} (hm : MarksWithin part p m)
    {w : Cursor × Marks} (h : w ∈ a.ways c m) : MarksWithin part p w.2 := by
  induction a generalizing c m w with
  | one q =>
    obtain ⟨before, _ | ⟨x, rest⟩⟩ := c
    · simp [ways] at h
    · rw [eq_of_mem_guard h]; exact hm
  | text t =>
    simp only [ways, List.mem_map] at h
    obtain ⟨d, _, rfl⟩ := h
    exact hm
  | seq a b iha ihb =>
    simp only [ways, List.mem_flatMap] at h
    obtain ⟨v, hv, hw⟩ := h
    exact ihb ha.2 (iha ha.1 hm hv) hw
  | either a b iha ihb =>
    simp only [ways, List.mem_append] at h
    rcases h with h | h
    · exact iha ha.1 hm h
    · exact ihb ha.2 hm h
  | many q =>
    simp only [ways, List.mem_map] at h
    obtain ⟨d, _, rfl⟩ := h
    exact hm
  | few q =>
    simp only [ways, List.mem_map] at h
    obtain ⟨d, _, rfl⟩ := h
    exact hm
  | again a ih =>
    have keep : MarksWithin part p m → MarksWithin part p w.2 := by
      refine rel_of_mem_iterateWays
        (r := fun u v => MarksWithin part p u.2 → MarksWithin part p v.2) ?_ ?_ ?_ h
      · exact fun _ hu => hu
      · exact fun hu hv hm => hv (hu hm)
      · exact fun hw hm => ih ha hm hw
    exact keep hm
  | mark q a ih =>
    simp only [ways, List.mem_map] at h
    obtain ⟨v, hv, rfl⟩ := h
    intro first last hin
    rcases List.mem_cons.1 hin with he | hin
    · obtain ⟨rfl, rfl, rfl⟩ : part = q ∧ first = c ∧ last = v.1 := by simpa using he
      exact through_of_mem_ways (ha.1 rfl) hv
    · exact ih ha.2 hm hv first last hin
  | wordEdge => rw [eq_of_mem_guard h]; exact hm
  | lineStart => rw [eq_of_mem_guard h]; exact hm
  | lineEnd => rw [eq_of_mem_guard h]; exact hm
  | «unless» a _ => rw [eq_of_mem_guard h]; exact hm

theorem mem_ways_of_first? {a : Pattern} {c : Cursor} {m : Match}
    (h : a.first? c = Option.some m) : (m.last, m.marks) ∈ a.ways c [] := by
  rw [first?_eq_head?, Option.map_eq_some_iff] at h
  obtain ⟨w, hw, rfl⟩ := h
  exact List.mem_of_mem_head? hw

/-- Every match is the preferred one at some place. -/
theorem exists_first?_of_mem_findFrom {a : Pattern} {covered : Nat} {before rest : List Char}
    {m : Match} (h : m ∈ a.findFrom covered before rest) : ∃ c, a.first? c = Option.some m := by
  induction rest generalizing covered before with
  | nil => simp [findFrom] at h
  | cons x rest ih =>
    cases covered with
    | succ n => exact ih (by simpa only [findFrom] using h)
    | zero =>
      cases hf : a.first? ⟨before, x :: rest⟩ with
      | none =>
        simp only [findFrom, hf] at h
        exact ih h
      | some k =>
        simp only [findFrom, hf] at h
        rcases List.mem_cons.1 h with rfl | h
        · exact ⟨_, hf⟩
        · exact ih h

theorem Match.exists_mark_of_part? {m : Match} {part : Part} {t : Text}
    (h : m.part? part = Option.some t) :
    ∃ first last, (part, first, last) ∈ m.marks ∧ t = first.between last := by
  unfold Match.part? at h
  split at h
  · rename_i q first last hf
    have hq : q = part := by simpa using List.find?_some hf
    subst hq
    exact ⟨first, last, List.mem_of_find?_eq_some hf, (Option.some.inj h).symm⟩
  · cases h

theorem mem_part_of_mem_findAll {a : Pattern} {part : Part} {p : Text.Class}
    (ha : a.Confines part p) {t : Text} {m : Match} (h : m ∈ a.findAll t) {x : Char}
    (hx : x ∈ m.part part) : p x = true := by
  obtain ⟨c, hc⟩ := exists_first?_of_mem_findFrom h
  have hm : MarksWithin part p m.marks :=
    marksWithin_of_mem_ways ha (by simp [MarksWithin]) (mem_ways_of_first? hc)
  unfold Match.part at hx
  cases hp : m.part? part with
  | none => simp [hp] at hx
  | some u =>
    obtain ⟨first, last, hmark, rfl⟩ := Match.exists_mark_of_part? hp
    have hin := hm first last hmark
    rw [hp] at hx
    exact hin.mem_between hx

end Pattern

end CodeAtlas
