import CodeAtlas.Proofs.Pattern.Absence
import CodeAtlas.Proofs.Pattern.Readings
import Mathlib.Data.List.Basic

/-!
Searching a text that is put together from two. A pattern runs in the first text as if the second
did not follow, as long as no way of matching leads across the boundary, and in the second text as
if the first did not come before. Both are the same statement on a map of places: where the places
are moved, the pattern runs as it did before.
-/

set_option autoImplicit false

namespace CodeAtlas

namespace Cursor

def extend (t : Text) (c : Cursor) : Cursor := ⟨c.before, c.rest ++ t⟩

def behind (passed : List Char) (c : Cursor) : Cursor := ⟨c.before ++ passed, c.rest⟩

@[simp] theorem between_extend (t : Text) (c d : Cursor) :
    (c.extend t).between (d.extend t) = c.between d := rfl

@[simp] theorem between_behind (passed : List Char) (c d : Cursor) :
    (c.behind passed).between (d.behind passed) = c.between d := by
  simp only [between, behind, List.length_append, Nat.add_sub_add_right]
  rw [List.take_append_of_le_length (Nat.sub_le _ _)]

theorem reach_behind (p : Text.Class) (passed : List Char) (nearer : List Cursor)
    (before rest : List Char) :
    reach p (nearer.map (behind passed)) (before ++ passed) rest =
      (reach p nearer before rest).map (behind passed) := by
  induction rest generalizing nearer before with
  | nil => rfl
  | cons x rest ih =>
    simp only [reach]
    split
    · exact ih (⟨before, x :: rest⟩ :: nearer) (x :: before)
    · rfl

theorem reach_extend {p : Text.Class} {rest : List Char} (h : ∃ x ∈ rest, p x = false) (t : Text)
    (nearer : List Cursor) (before : List Char) :
    reach p (nearer.map (extend t)) before (rest ++ t) =
      (reach p nearer before rest).map (extend t) := by
  induction rest generalizing nearer before with
  | nil => simp at h
  | cons x rest ih =>
    simp only [List.cons_append, reach]
    split
    case isTrue hx =>
      -- what ends the run is not the character just passed, so it stands in the rest
      obtain ⟨y, hy, hp⟩ := h
      have hrest : y ∈ rest := by
        rcases List.mem_cons.1 hy with rfl | hy
        · rw [hx] at hp
          cases hp
        · exact hy
      exact ih ⟨y, hrest, hp⟩ (⟨before, x :: rest⟩ :: nearer) (x :: before)
    case isFalse => rfl

end Cursor

def Marks.move (f : Cursor → Cursor) (m : Marks) : Marks :=
  m.map fun (part, first, last) => (part, f first, f last)

@[simp] theorem Marks.move_nil (f : Cursor → Cursor) : Marks.move f [] = [] := rfl

@[simp] theorem Marks.move_cons (f : Cursor → Cursor) (part : Part) (first last : Cursor)
    (m : Marks) : Marks.move f ((part, first, last) :: m) = (part, f first, f last) :: m.move f :=
  rfl

namespace Match

variable {f : Cursor → Cursor}

def move (f : Cursor → Cursor) (m : Match) : Match := ⟨f m.first, f m.last, m.marks.move f⟩

theorem texts_move (hf : ∀ c d, (f c).between (f d) = c.between d) (m : Marks) :
    (m.move f).texts = m.texts := by
  simp [Marks.move, Marks.texts, hf]

theorem part_move (hf : ∀ c d, (f c).between (f d) = c.between d) (m : Match) (part : Part) :
    (m.move f).part part = m.part part := by
  rw [part_eq, part_eq, move, texts_move hf]

theorem has_move (hf : ∀ c d, (f c).between (f d) = c.between d) (m : Match) (part : Part) :
    (m.move f).has part = m.has part := by
  rw [has_eq, has_eq, move, texts_move hf]

section Extend

variable (t : Text) (m : Match) (part : Part)

@[simp] theorem part_extend : (m.move (Cursor.extend t)).part part = m.part part :=
  part_move (Cursor.between_extend t) m part

@[simp] theorem has_extend : (m.move (Cursor.extend t)).has part = m.has part :=
  has_move (Cursor.between_extend t) m part

@[simp] theorem line_extend : (m.move (Cursor.extend t)).line = m.line := rfl

@[simp] theorem position_extend : (m.move (Cursor.extend t)).position = m.position := rfl

end Extend

section Behind

variable (passed : List Char) (m : Match) (part : Part)

@[simp] theorem part_behind : (m.move (Cursor.behind passed)).part part = m.part part :=
  part_move (Cursor.between_behind passed) m part

@[simp] theorem has_behind : (m.move (Cursor.behind passed)).has part = m.has part :=
  has_move (Cursor.between_behind passed) m part

@[simp] theorem line_behind :
    (m.move (Cursor.behind passed)).line = m.line + passed.count '\n' := by
  simp [line, move, Cursor.behind, Cursor.lineNumber, Nat.add_right_comm]

@[simp] theorem position_behind :
    (m.move (Cursor.behind passed)).position = m.position + passed.length := by
  simp [position, move, Cursor.behind, Cursor.position]

@[simp] theorem width_behind : (m.move (Cursor.behind passed)).width = m.width := by
  simp [width, move, Cursor.behind, Nat.add_sub_add_right]

end Behind

end Match

namespace Pattern

section Moves

variable {f : Cursor → Cursor} {pre mid post : Cursor → Prop} {a b : Pattern}

/-- From a place with a property, the pattern runs at the moved place as it does at the place
itself, if that is so for what comes behind it at the places it leads to, and these have another
property. -/
def Moves (f : Cursor → Cursor) (pre post : Cursor → Prop) (a : Pattern) : Prop :=
  ∀ (β : Type) (c : Cursor) (m : Marks) (k k' : Cursor → Marks → Option β), pre c →
    (∀ d m', post d → k (f d) (Marks.move f m') = k' d m') →
      a.run (f c) (m.move f) k = a.run c m k'

theorem Moves.append (ha : a.Moves f pre mid) (hb : b.Moves f mid post) :
    (a ++ b).Moves f pre post := by
  intro β c m k k' hc hk
  rw [run_append, run_append]
  exact ha _ _ _ _ _ hc fun d m' hd => hb _ _ _ _ _ hd hk

theorem Moves.either (ha : a.Moves f pre post) (hb : b.Moves f pre post) :
    (either a b).Moves f pre post := by
  intro β c m k k' hc hk
  rw [run_either, run_either, ha _ _ _ _ _ hc hk, hb _ _ _ _ _ hc hk]

theorem Moves.mark (part : Part) (ha : a.Moves f pre post) : (mark part a).Moves f pre post := by
  intro β c m k k' hc hk
  rw [run_mark, run_mark]
  exact ha _ _ _ _ _ hc fun d m' hd => hk d ((part, c, d) :: m') hd

theorem moves_nothing : (text []).Moves f pre pre := fun _ c m _ _ hc hk => hk c m hc

theorem Moves.optional (ha : a.Moves f pre pre) : (optional a).Moves f pre pre :=
  ha.either moves_nothing

theorem Moves.first? (ha : a.Moves f pre post) {c : Cursor} (hc : pre c) :
    a.first? (f c) = (a.first? c).map (Match.move f) := by
  have hrun := ha Match c [] (fun last marks => Option.some ⟨f c, last, marks⟩)
    (fun last marks => Option.some (Match.move f ⟨c, last, marks⟩)) hc fun d m' _ => rfl
  rw [Marks.move_nil] at hrun
  rw [Pattern.first?, hrun, first?_eq_head?, run_eq_findSome?]
  cases a.ways c [] <;> rfl

end Moves

/-! Behind another text. -/

section Behind

variable {a : Pattern} {passed : List Char}

/-- Whether the pattern looks back for nothing but the beginning of a line. -/
def looksForward : Pattern → Bool
  | one _ | text _ | many _ | lineStart => true
  | seq a b | either a b => a.looksForward && b.looksForward
  | mark _ a => a.looksForward
  | _ => false

theorem skip?_behind (t : Text) (c : Cursor) :
    skip? t (c.behind passed) = (skip? t c).map (Cursor.behind passed) := by
  induction t generalizing c with
  | nil => rfl
  | cons x t ih =>
    obtain ⟨before, _ | ⟨y, rest⟩⟩ := c
    · rfl
    · simp only [Cursor.behind, skip?]
      split
      · exact ih ⟨y :: before, rest⟩
      · rfl

/-- Text that ends a line does not matter to what comes behind it. -/
theorem moves_behind (hpassed : (Cursor.mk passed []).atLineStart = true)
    (ha : a.looksForward = true) : a.Moves (Cursor.behind passed) (fun _ => True) fun _ => True := by
  induction a with
  | one p =>
    intro β c m k k' _ hk
    obtain ⟨before, _ | ⟨x, rest⟩⟩ := c
    · rfl
    · simp only [run, Cursor.behind]
      split
      · exact hk ⟨x :: before, rest⟩ m trivial
      · rfl
  | text t =>
    intro β c m k k' _ hk
    simp only [run, skip?_behind]
    cases skip? t c with
    | none => rfl
    | some d => exact hk d m trivial
  | many p =>
    intro β c m k k' _ hk
    have hreach := Cursor.reach_behind p passed [] c.before c.rest
    simp only [run, Cursor.farthestFirst]
    rw [List.map_nil] at hreach
    simp only [Cursor.behind] at hreach ⊢
    rw [hreach, List.findSome?_map]
    exact congrArg (List.findSome? · _) (funext fun d => hk d m trivial)
  | lineStart =>
    intro β c m k k' _ hk
    -- only at the very beginning does the place see what was passed
    have hstart : (c.behind passed).atLineStart = c.atLineStart := by
      obtain ⟨_ | ⟨x, before⟩, rest⟩ := c
      · exact hpassed
      · rfl
    simp only [run, hstart]
    split
    · exact hk c m trivial
    · rfl
  | seq a b iha ihb =>
    obtain ⟨ha, hb⟩ := Bool.and_eq_true_iff.1 ha
    exact (iha ha).append (ihb hb)
  | either a b iha ihb =>
    obtain ⟨ha, hb⟩ := Bool.and_eq_true_iff.1 ha
    exact (iha ha).either (ihb hb)
  | mark part a ih => exact (ih ha).mark part
  | _ => cases ha

theorem findFrom_behind (hpassed : (Cursor.mk passed []).atLineStart = true)
    (ha : a.looksForward = true) (covered : Nat) (before rest : List Char) :
    a.findFrom covered (before ++ passed) rest =
      (a.findFrom covered before rest).map (Match.move (Cursor.behind passed)) := by
  induction rest generalizing covered before with
  | nil => rfl
  | cons x rest ih =>
    cases covered with
    | succ n => exact ih n (x :: before)
    | zero =>
      have hfirst := (moves_behind hpassed ha).first? (c := ⟨before, x :: rest⟩) trivial
      simp only [Cursor.behind] at hfirst
      simp only [findFrom, hfirst]
      cases a.first? ⟨before, x :: rest⟩ with
      | none => exact ih 0 (x :: before)
      | some m =>
        simp only [Option.map_some, List.map_cons]
        exact congrArg _ ((congrArg (a.findFrom · _ _) (by rw [Match.width_behind])).trans
          (ih (m.width - 1) (x :: before)))

end Behind

/-! Before another text. -/

section Extend

variable {a : Pattern} {c d : Cursor} {s t w : Text}

/-- A text that ends with a line, and in which every round bracket that opens has one that closes
behind it. -/
structure Sealed (s : Text) : Prop where
  ends : s.getLast? = Option.some '\n'
  closes : ∀ u v, s = u ++ '(' :: v → ')' ∈ v

def AtSealed (c : Cursor) : Prop := Sealed c.rest

def InBrackets (c : Cursor) : Prop := Sealed c.rest ∧ ')' ∈ c.rest

theorem Sealed.newline_mem (h : Sealed s) : '\n' ∈ s := List.mem_of_getLast? h.ends

theorem Sealed.of_append {u : Text} (h : Sealed (u ++ s)) (hs : s ≠ []) : Sealed s where
  ends := by
    have hends := h.ends
    rwa [List.getLast?_append_of_ne_nil u hs] at hends
  closes v r hv := h.closes (u ++ v) r (by rw [hv, List.append_assoc])

theorem AtSealed.passes (h : AtSealed c) (hp : c.Passes w d) (hx : ∃ x ∈ c.rest, x ∉ w) :
    AtSealed d := by
  obtain ⟨-, hr⟩ := hp
  refine Sealed.of_append (u := w) (hr ▸ h) fun hnil => ?_
  obtain ⟨x, hx, hw⟩ := hx
  rw [hr, hnil, List.append_nil] at hx
  exact hw hx

theorem skip?_extend (h : ∃ x ∈ c.rest, x ∉ w) (t : Text) :
    skip? w (c.extend t) = (skip? w c).map (Cursor.extend t) := by
  induction w generalizing c with
  | nil => rfl
  | cons y w ih =>
    obtain ⟨before, _ | ⟨z, rest⟩⟩ := c
    · simp at h
    · simp only [Cursor.extend, List.cons_append, skip?]
      split
      case isTrue hyz =>
        obtain ⟨x, hx, hw⟩ := h
        rw [List.mem_cons, not_or] at hw
        have hrest : x ∈ rest := (List.mem_cons.1 hx).resolve_left (hyz ▸ hw.1)
        exact ih (c := ⟨z :: before, rest⟩) ⟨x, hrest, hw.2⟩
      case isFalse => rfl

theorem moves_text_extend (hw : '\n' ∉ w) : (text w).Moves (Cursor.extend t) AtSealed AtSealed := by
  intro β c m k k' hc hk
  have hx : ∃ x ∈ c.rest, x ∉ w := ⟨'\n', hc.newline_mem, hw⟩
  simp only [run, skip?_extend hx]
  cases hskip : skip? w c with
  | none => rfl
  | some d => exact hk d m (hc.passes (passes_of_skip? hskip) hx)

theorem findSome?_congr {α γ : Type} {g h : α → Option γ} {xs : List α}
    (hgh : ∀ x ∈ xs, g x = h x) : xs.findSome? g = xs.findSome? h := by
  induction xs with
  | nil => rfl
  | cons x xs ih =>
    have ih := ih fun y hy => hgh y (.tail _ hy)
    rw [List.findSome?_cons, List.findSome?_cons, hgh x (.head _), ih]

theorem moves_many_extend {p : Text.Class} {pre : Cursor → Prop}
    (hpre : ∀ c, pre c → AtSealed c ∧ ∃ x ∈ c.rest, p x = false) :
    (many p).Moves (Cursor.extend t) pre AtSealed := by
  intro β c m k k' hc hk
  obtain ⟨hsealed, x, hx, hpx⟩ := hpre c hc
  have hreach := Cursor.reach_extend ⟨x, hx, hpx⟩ t [] c.before
  have hplaces : ∀ d ∈ c.farthestFirst p, k (d.extend t) (m.move (Cursor.extend t)) = k' d m := by
    intro d hd
    obtain ⟨w, hpass, hw⟩ := Cursor.through_of_mem_farthestFirst hd
    refine hk d m (hsealed.passes hpass ⟨x, hx, fun hxw => ?_⟩)
    rw [hw x hxw] at hpx
    cases hpx
  simp only [run, Cursor.farthestFirst] at hplaces ⊢
  rw [List.map_nil] at hreach
  simp only [Cursor.extend] at hreach hplaces ⊢
  rw [hreach, List.findSome?_map]
  exact findSome?_congr hplaces

def staysOnLine : Pattern → Bool
  | one p | many p => !p '\n'
  | text t => !t.contains '\n'
  | lineStart => true
  | seq a b | either a b => a.staysOnLine && b.staysOnLine
  | mark _ a => a.staysOnLine
  | _ => false

/-- A pattern that stays on its line does not notice what follows the last line. -/
theorem moves_extend (ha : a.staysOnLine = true) :
    a.Moves (Cursor.extend t) AtSealed AtSealed := by
  induction a with
  | one p =>
    intro β c m k k' hc hk
    obtain ⟨before, _ | ⟨x, rest⟩⟩ := c
    · exact absurd hc.newline_mem List.not_mem_nil
    · simp only [run, Cursor.extend, List.cons_append]
      split
      case isTrue hx =>
        have hne : x ≠ '\n' := by
          rintro rfl
          simp [staysOnLine, hx] at ha
        -- the line feed at the end is still to come
        exact hk ⟨x :: before, rest⟩ m (hc.passes (.one before rest x)
          ⟨'\n', hc.newline_mem, by simpa using hne.symm⟩)
      case isFalse => rfl
  | text w => exact moves_text_extend (by simpa [staysOnLine] using ha)
  | many p =>
    exact moves_many_extend fun c hc =>
      ⟨hc, '\n', hc.newline_mem, by simpa [staysOnLine] using ha⟩
  | lineStart =>
    intro β c m k k' hc hk
    have hstart : (c.extend t).atLineStart = c.atLineStart := rfl
    simp only [run, hstart]
    split
    · exact hk c m hc
    · rfl
  | seq a b iha ihb =>
    obtain ⟨ha, hb⟩ := Bool.and_eq_true_iff.1 ha
    exact (iha ha).append (ihb hb)
  | either a b iha ihb =>
    obtain ⟨ha, hb⟩ := Bool.and_eq_true_iff.1 ha
    exact (iha ha).either (ihb hb)
  | mark part a ih => exact (ih ha).mark part
  | _ => cases ha

theorem moves_opening : (char '(').Moves (Cursor.extend t) AtSealed InBrackets := by
  intro β c m k k' hc hk
  obtain ⟨before, _ | ⟨x, rest⟩⟩ := c
  · exact absurd hc.newline_mem List.not_mem_nil
  · simp only [char, run, skip?, Cursor.extend, List.cons_append]
    split
    case isTrue hx =>
      subst hx
      have hclosed : ')' ∈ rest := hc.closes [] rest rfl
      have hrest : Sealed rest := hc.passes (.one before rest '(')
        ⟨'\n', hc.newline_mem, by simp⟩
      exact hk ⟨'(' :: before, rest⟩ m ⟨hrest, hclosed⟩
    case isFalse => rfl

theorem moves_inside : (many (· != ')')).Moves (Cursor.extend t) InBrackets AtSealed :=
  moves_many_extend fun _ hc => ⟨hc.1, ')', hc.2, by simp⟩

theorem moves_closing : (char ')').Moves (Cursor.extend t) AtSealed AtSealed :=
  moves_text_extend (by simp)

theorem width_le_of_first? {m : Match} (h : a.first? c = Option.some m) :
    m.width ≤ c.rest.length := by
  obtain ⟨w, ⟨hb, hr⟩, -⟩ := through_of_mem_ways (within_all a) (mem_ways_of_first? h)
  have hbefore := congrArg List.length hb
  have hrest := congrArg List.length hr
  simp only [List.length_append, List.length_reverse] at hbefore hrest
  rw [Match.width, first_of_first? h]
  omega

/-- The matches in a sealed text come first, and then those in the text behind it. -/
theorem findFrom_append (ha : a.Moves (Cursor.extend t) AtSealed AtSealed) {covered : Nat}
    {before : List Char} (hs : s = [] ∨ Sealed s) (hcovered : covered ≤ s.length) :
    a.findFrom covered before (s ++ t) =
      (a.findFrom covered before s).map (Match.move (Cursor.extend t)) ++
        a.findFrom 0 (s.reverse ++ before) t := by
  -- along the first text; what the last match covers never reaches into the second
  induction s generalizing covered before with
  | nil =>
    obtain rfl : covered = 0 := Nat.le_zero.1 hcovered
    rfl
  | cons x s ih =>
    have hsealed : Sealed (x :: s) := hs.resolve_left (List.cons_ne_nil x s)
    have hs : s = [] ∨ Sealed s := by
      by_cases hnil : s = []
      · exact .inl hnil
      · exact .inr (Sealed.of_append (u := [x]) hsealed hnil)
    have hbefore : (x :: s).reverse ++ before = s.reverse ++ x :: before := by simp
    rw [hbefore, List.cons_append]
    cases covered with
    | succ n => exact ih hs (Nat.le_of_succ_le_succ hcovered)
    | zero =>
      have hfirst := ha.first? (c := ⟨before, x :: s⟩) hsealed
      simp only [Cursor.extend, List.cons_append] at hfirst
      simp only [findFrom, hfirst]
      cases hm : a.first? ⟨before, x :: s⟩ with
      | none => exact ih hs (Nat.zero_le _)
      | some m =>
        have hwidth := width_le_of_first? hm
        have hcovered : m.width - 1 ≤ s.length := by
          simp only [List.length_cons] at hwidth
          omega
        exact congrArg _ (ih hs hcovered)

theorem findAll_append (ha : a.Moves (Cursor.extend t) AtSealed AtSealed)
    (hf : a.looksForward = true) (hs : s = [] ∨ Sealed s) :
    a.findAll (s ++ t) = (a.findAll s).map (Match.move (Cursor.extend t)) ++
      (a.findAll t).map (Match.move (Cursor.behind s.reverse)) := by
  have hstart : (Cursor.mk s.reverse []).atLineStart = true := by
    rcases hs with rfl | hs
    · rfl
    · obtain ⟨u, rfl⟩ := List.getLast?_eq_some_iff.1 hs.ends
      simp [Cursor.atLineStart]
  have hbehind := findFrom_behind hstart hf 0 [] t
  rw [List.nil_append] at hbehind
  rw [findAll, findFrom_append ha hs (Nat.zero_le _), List.append_nil, hbehind]
  rfl

section Records

variable {α : Type} {move : α → α} (ha : a.Moves (Cursor.extend t) AtSealed AtSealed)
  (hf : a.looksForward = true) (hs : s = [] ∨ Sealed s)
include ha hf hs

/-- What is recorded of the matches in two texts, if it only moves on with the place of a match. -/
theorem flatMap_findAll_append {record : Match → List α}
    (hextend : ∀ m, record (m.move (Cursor.extend t)) = record m)
    (hbehind : ∀ m, record (m.move (Cursor.behind s.reverse)) = (record m).map move) :
    (a.findAll (s ++ t)).flatMap record =
      (a.findAll s).flatMap record ++ ((a.findAll t).flatMap record).map move := by
  rw [findAll_append ha hf hs, List.flatMap_append, List.flatMap_map, List.flatMap_map,
    List.map_flatMap]
  simp only [hextend, hbehind]

theorem map_findAll_append {record : Match → α}
    (hextend : ∀ m, record (m.move (Cursor.extend t)) = record m)
    (hbehind : ∀ m, record (m.move (Cursor.behind s.reverse)) = move (record m)) :
    (a.findAll (s ++ t)).map record =
      (a.findAll s).map record ++ ((a.findAll t).map record).map move := by
  simp only [findAll_append ha hf hs, List.map_append, List.map_map, Function.comp_def, hextend,
    hbehind]

end Records

theorem position_lt_of_mem_findFrom {covered : Nat} {before rest : List Char} {m : Match}
    (h : m ∈ a.findFrom covered before rest) : m.position < before.length + rest.length := by
  induction rest generalizing covered before with
  | nil => cases h
  | cons x rest ih =>
    have hnext : ∀ n, m ∈ a.findFrom n (x :: before) rest →
        m.position < before.length + (x :: rest).length := by
      intro n hn
      have hlt := ih hn
      simp only [List.length_cons] at hlt ⊢
      omega
    cases covered with
    | succ n => exact hnext n h
    | zero =>
      simp only [findFrom] at h
      cases hf : a.first? ⟨before, x :: rest⟩ with
      | none =>
        rw [hf] at h
        exact hnext 0 h
      | some k =>
        rw [hf] at h
        rcases List.mem_cons.1 h with rfl | h
        · rw [Match.position, first_of_first? hf]
          simp [Cursor.position]
        · exact hnext _ h

theorem position_lt_of_mem_findAll {m : Match} (h : m ∈ a.findAll s) : m.position < s.length := by
  simpa using position_lt_of_mem_findFrom h

end Extend

end Pattern

end CodeAtlas
