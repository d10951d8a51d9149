import CodeAtlas.Proofs.Pattern.Search
import CodeAtlas.Proofs.Pattern.Steps

/-!
The reading of a text by a pattern: its preferred way of matching there, with the texts it
remembers. Readings of the parts of a pattern compose along the text, and a reading of the whole
pattern is its first match.
-/

set_option autoImplicit false

namespace CodeAtlas

namespace Cursor

@[simp] theorem between_append (before rest rest' s : List Char) :
    between ⟨before, rest⟩ ⟨s.reverse ++ before, rest'⟩ = s := by
  simp [between]

theorem reach_append {p : Text.Class} {s rest : Text} (hs : ∀ x ∈ s, p x = true)
    (hr : Text.Halts p rest) (nearer : List Cursor) (before : List Char) :
    ∃ others, reach p nearer before (s ++ rest) = ⟨s.reverse ++ before, rest⟩ :: others := by
  induction s generalizing nearer before with
  | nil =>
    cases rest with
    | nil => exact ⟨nearer, rfl⟩
    | cons x rest => exact ⟨nearer, by simp [reach, Text.halts_cons.1 hr]⟩
  | cons x s ih =>
    obtain ⟨others, h⟩ := ih (fun y hy => hs y (.tail _ hy))
      (⟨before, x :: (s ++ rest)⟩ :: nearer) (x :: before)
    refine ⟨others, ?_⟩
    simp [reach, hs x (.head _), h]

theorem lineHead_append {before : List Char} (hb : (Cursor.mk before []).atLineStart = true)
    {t : Text} (ht : '\n' ∉ t) (rest : Text) : (Cursor.mk (t.reverse ++ before) rest).lineHead = t := by
  have hin : ∀ c ∈ t.reverse, (c != '\n') = true := by
    intro c hc
    simpa using fun h : c = '\n' => ht (h ▸ List.mem_reverse.1 hc)
  have hstop : before.takeWhile (· != '\n') = [] := by
    cases before with
    | nil => rfl
    | cons x before =>
      have hx : x = '\n' := by simpa [atLineStart] using hb
      simp [hx]
  rw [lineHead, List.takeWhile_append_of_pos hin, hstop, List.append_nil, List.reverse_reverse]

theorem lineNumber_append {before : List Char} {t : Text} (ht : '\n' ∉ t) (rest : Text) :
    (Cursor.mk (t.reverse ++ before) rest).lineNumber = before.count '\n' + 1 := by
  rw [lineNumber, List.count_append, List.count_reverse, List.count_eq_zero.2 ht, Nat.zero_add]

theorem halts_isWord_append {before : List Char} (hb : (Cursor.mk before []).atLineStart = true) {t : Text}
    (ht : t.getLast?.all (fun c => !Text.isWord c) = true) :
    Text.Halts Text.isWord (t.reverse ++ before) := by
  intro c hc
  rw [List.head?_append, List.head?_reverse] at hc
  cases hlast : t.getLast? with
  | some d =>
    rw [hlast] at ht hc
    cases hc
    simpa using ht
  | none =>
    rw [hlast] at hc
    cases before with
    | nil => cases hc
    | cons x before =>
      have hx : x = '\n' := by simpa [atLineStart] using hb
      cases hc
      rw [hx]
      decide

end Cursor

def Marks.texts (m : Marks) : List (Part × Text) :=
  m.map fun (part, first, last) => (part, first.between last)

@[simp] theorem Marks.texts_cons (part : Part) (first last : Cursor) (m : Marks) :
    Marks.texts ((part, first, last) :: m) = (part, first.between last) :: m.texts := rfl

theorem Match.part?_eq_lookup (m : Match) (part : Part) :
    m.part? part = m.marks.texts.lookup part := by
  obtain ⟨_, _, marks⟩ := m
  simp only [part?]
  induction marks with
  | nil => rfl
  | cons mark marks ih =>
    obtain ⟨q, first, last⟩ := mark
    by_cases hq : q = part
    · simp [Marks.texts, hq]
    · have hne : (part == q) = false := by simpa using Ne.symm hq
      rw [Marks.texts_cons, List.lookup_cons, hne, List.find?_cons_of_neg (by simpa using hq)]
      exact ih

theorem Match.part_eq (m : Match) (part : Part) :
    m.part part = (m.marks.texts.lookup part).getD [] := by
  rw [Match.part, part?_eq_lookup]

theorem Match.has_eq (m : Match) (part : Part) :
    m.has part = (m.marks.texts.lookup part).isSome := by
  rw [Match.has, part?_eq_lookup]

namespace Pattern

variable {a b : Pattern} {before : List Char} {s t rest : Text} {us vs ws : List (Part × Text)}

/-- The pattern's preferred way over a text, given what comes before it and what follows it, and
the texts remembered up to it and behind it. Whoever accepts the place behind the text gets to see
it first. -/
def Reads (a : Pattern) (before : List Char) (s rest : Text) (us vs : List (Part × Text)) : Prop :=
  ∀ m : Marks, m.texts = us → ∃ m' : Marks, m'.texts = vs ∧
    ∀ {β : Type} (k : Cursor → Marks → Option β) (v : β),
      k ⟨s.reverse ++ before, rest⟩ m' = Option.some v →
        a.run ⟨before, s ++ rest⟩ m k = Option.some v

theorem Reads.first? (h : a.Reads before s rest [] vs) :
    ∃ m, a.first? ⟨before, s ++ rest⟩ = Option.some m ∧ m.first = ⟨before, s ++ rest⟩ ∧
      m.last = ⟨s.reverse ++ before, rest⟩ ∧ m.marks.texts = vs := by
  obtain ⟨m', htexts, hrun⟩ := h [] rfl
  exact ⟨⟨_, ⟨s.reverse ++ before, rest⟩, m'⟩, hrun _ _ rfl, rfl, rfl, htexts⟩

theorem Reads.append (ha : a.Reads before s (t ++ rest) us vs)
    (hb : b.Reads (s.reverse ++ before) t rest vs ws) :
    (a ++ b).Reads before (s ++ t) rest us ws := by
  intro m hm
  obtain ⟨m', htexts, hrun⟩ := ha m hm
  obtain ⟨m'', htexts', hrun'⟩ := hb m' htexts
  refine ⟨m'', htexts', fun k v hk => ?_⟩
  rw [run_append, List.append_assoc]
  exact hrun _ _ (hrun' _ _ (by simpa using hk))

theorem reads_append_assoc {c : Pattern} :
    (a ++ b ++ c).Reads before s rest us vs ↔ (a ++ (b ++ c)).Reads before s rest us vs := Iff.rfl

theorem reads_of_run (h : ∀ {β : Type} (m : Marks) (k : Cursor → Marks → Option β) (v : β),
    k ⟨s.reverse ++ before, rest⟩ m = Option.some v →
      a.run ⟨before, s ++ rest⟩ m k = Option.some v) : a.Reads before s rest us us :=
  fun m hm => ⟨m, hm, h m⟩

theorem reads_lineStart (h : (Cursor.mk before []).atLineStart = true) :
    lineStart.Reads before [] rest us us := by
  refine reads_of_run fun m k v hk => ?_
  have hr : (Cursor.mk before rest).atLineStart = true := h
  simpa [run, hr] using hk

theorem reads_wordEdge (h : (Cursor.mk before rest).atWordEdge = true) :
    wordEdge.Reads before [] rest us us := by
  refine reads_of_run fun m k v hk => ?_
  simpa [run, h] using hk

theorem reads_wordStart {x : Char} (hb : Text.Halts Text.isWord before) (hx : Text.isWord x = true)
    (hr : rest.head? = Option.some x) : wordEdge.Reads before [] rest us us := by
  refine reads_wordEdge ?_
  obtain ⟨r, rfl⟩ := List.head?_eq_some_iff.1 hr
  cases before with
  | nil => simp [Cursor.atWordEdge, hx]
  | cons y before => simp [Cursor.atWordEdge, hx, Text.halts_cons.1 hb]

theorem reads_wordEnd {x : Char} (hx : Text.isWord x = true) (hb : before.head? = Option.some x)
    (hr : Text.Halts Text.isWord rest) : wordEdge.Reads before [] rest us us := by
  refine reads_wordEdge ?_
  obtain ⟨b, rfl⟩ := List.head?_eq_some_iff.1 hb
  cases rest with
  | nil => simp [Cursor.atWordEdge, hx]
  | cons y rest => simp [Cursor.atWordEdge, hx, Text.halts_cons.1 hr]

theorem reads_text (t : Text) : (text t).Reads before t rest us us := by
  refine reads_of_run fun m k v hk => ?_
  simpa [run, skip?_append] using hk

theorem reads_char (x : Char) : (char x).Reads before [x] rest us us := reads_text [x]

theorem reads_one {p : Text.Class} {x : Char} (hx : p x = true) :
    (one p).Reads before [x] rest us us := by
  refine reads_of_run fun m k v hk => ?_
  simpa [run, hx] using hk

theorem reads_many {p : Text.Class} (hs : ∀ x ∈ s, p x = true) (hr : Text.Halts p rest) :
    (many p).Reads before s rest us us := by
  refine reads_of_run fun m k v hk => ?_
  obtain ⟨others, h⟩ := Cursor.reach_append hs hr [] before
  simp [run, Cursor.farthestFirst, h, hk]

theorem reads_many_nil {p : Text.Class} (hr : Text.Halts p rest) :
    (many p).Reads before [] rest us us := reads_many (by simp) hr

theorem reads_some {p : Text.Class} (hne : s ≠ []) (hs : ∀ x ∈ s, p x = true)
    (hr : Text.Halts p rest) : (Pattern.some p).Reads before s rest us us := by
  obtain ⟨x, s, rfl⟩ := List.exists_cons_of_ne_nil hne
  exact (reads_one (hs x (.head _))).append (reads_many (fun y hy => hs y (.tail _ hy)) hr)

theorem Reads.mark (part : Part) (h : a.Reads before s rest us vs) :
    (mark part a).Reads before s rest us ((part, s) :: vs) := by
  intro m hm
  obtain ⟨m', htexts, hrun⟩ := h m hm
  refine ⟨(part, ⟨before, s ++ rest⟩, ⟨s.reverse ++ before, rest⟩) :: m', ?_, fun k v hk => ?_⟩
  · rw [Marks.texts_cons, Cursor.between_append, htexts]
  · exact hrun _ _ hk

theorem Reads.either (h : a.Reads before s rest us vs) :
    (either a b).Reads before s rest us vs := by
  intro m hm
  obtain ⟨m', htexts, hrun⟩ := h m hm
  refine ⟨m', htexts, fun k v hk => ?_⟩
  rw [run_either, hrun k v hk]
  rfl

/-- The second alternative counts where the first has no match, whatever follows. -/
theorem Reads.either_right (hb : b.Reads before s rest us vs)
    (ha : ∀ {β : Type} (m : Marks) (k : Cursor → Marks → Option β),
      a.run ⟨before, s ++ rest⟩ m k = none) : (Pattern.either a b).Reads before s rest us vs := by
  intro m hm
  obtain ⟨m', htexts, hrun⟩ := hb m hm
  refine ⟨m', htexts, fun k v hk => ?_⟩
  rw [run_either, ha, hrun k v hk]
  rfl

theorem Reads.optional (h : a.Reads before s rest us vs) :
    (optional a).Reads before s rest us vs := h.either

theorem reads_optional_nil (h : ∀ {β : Type} (m : Marks) (k : Cursor → Marks → Option β),
    a.run ⟨before, rest⟩ m k = none) : (Pattern.optional a).Reads before [] rest us us :=
  (reads_text []).either_right h

/-- Repetitions read items one after another, up to a place where no more begin. -/
theorem reads_again {ι : Type} {item : ι → Text} (hne : ∀ i, item i ≠ [])
    (hitem : ∀ before i (is : List ι), a.Reads before (item i) (Text.concat (is.map item) ++ rest) us us)
    (hstop : ∀ {β : Type} (before : List Char) (m : Marks) (k : Cursor → Marks → Option β),
      a.run ⟨before, rest⟩ m k = none) (is : List ι) :
    (again a).Reads before (Text.concat (is.map item)) rest us us := by
  suffices h : ∀ n, is.length ≤ n → ∀ m : Marks, m.texts = us → ∃ m' : Marks, m'.texts = us ∧
      ∀ {β : Type} (k : Cursor → Marks → Option β) (v : β),
        k ⟨(Text.concat (is.map item)).reverse ++ before, rest⟩ m' = Option.some v →
          iterate a.run n ⟨before, Text.concat (is.map item) ++ rest⟩ m k = Option.some v by
    refine fun m hm => h _ ?_ m hm
    clear h
    induction is with
    | nil => exact Nat.zero_le _
    | cons i is ih =>
      have hi : 0 < (item i).length := List.length_pos_iff.2 (hne i)
      simp only [List.map_cons, Text.concat_cons, List.length_append, List.length_cons] at ih ⊢
      omega
  intro n hn
  induction is generalizing before n with
  | nil =>
    refine fun m hm => ⟨m, hm, fun k v hk => ?_⟩
    cases n with
    | zero => exact hk
    | succ n =>
      simp only [iterate, List.map_nil, Text.concat_nil, List.nil_append, hstop]
      exact hk
  | cons i is ih =>
    cases n with
    | zero => exact absurd hn (Nat.not_succ_le_zero _)
    | succ n =>
      intro m hm
      obtain ⟨m', htexts, hrun⟩ := hitem before i is m hm
      obtain ⟨m'', htexts', hrun'⟩ := ih n (Nat.le_of_succ_le_succ hn) m' htexts
      refine ⟨m'', htexts', fun k v hk => ?_⟩
      rw [List.map_cons, Text.concat_cons, List.append_assoc, iterate,
        hrun _ v (hrun' k v (by simpa using hk))]
      rfl

theorem Reads.optional_append (h : (a ++ b).Reads before s rest us vs) :
    (Pattern.optional a ++ b).Reads before s rest us vs := by
  intro m hm
  obtain ⟨m', htexts, hrun⟩ := h m hm
  refine ⟨m', htexts, fun k v hk => ?_⟩
  have hab := hrun k v hk
  rw [run_append] at hab
  rw [run_append, Pattern.optional, run_either, hab]
  rfl

/-- A lazy repetition goes as far as the first place where what follows it is found. -/
theorem reads_mark_few {p q : Text.Class} {x : Char} (part : Part) (hx : q x = true)
    (hs : ∀ y ∈ s, p y = true)
    (hnear : ∀ u y w, s = u ++ y :: w → ∀ {β : Type} (m : Marks) (k : Cursor → Marks → Option β),
      b.run ⟨u.reverse ++ x :: before, y :: (w ++ (t ++ rest))⟩ m k = none)
    (hb : b.Reads ((x :: s).reverse ++ before) t rest ((part, x :: s) :: us) vs) :
    (mark part (one q ++ few p) ++ b).Reads before (x :: s ++ t) rest us vs := by
  intro m hm
  have hmark : Marks.texts ((part, ⟨before, x :: s ++ (t ++ rest)⟩,
      ⟨(x :: s).reverse ++ before, t ++ rest⟩) :: m) = (part, x :: s) :: us := by
    rw [Marks.texts_cons, Cursor.between_append, hm]
  obtain ⟨m', htexts, hrun⟩ := hb _ hmark
  refine ⟨m', htexts, fun k v hk => ?_⟩
  rw [run_append, run_mark, run_append, List.append_assoc, List.cons_append, run_one_cons hx]
  refine run_few hs (fun u y w hu => hnear u y w hu _ k) ?_
  simpa using hrun k v (by simpa using hk)

section Yields

variable {α : Type} {record : Match → List α} {xs : List α}

theorem Reads.yields (hs : s ≠ []) (h : a.Reads before s rest [] vs)
    (hx : ∀ m : Match, m.first = ⟨before, s ++ rest⟩ → m.marks.texts = vs → record m = xs) :
    a.Yields record before s rest xs := by
  obtain ⟨m, hm, hfirst, hlast, htexts⟩ := h.first?
  exact hx m hfirst htexts ▸ yields_of_first? hs hm hlast

/-- What the reading of a line yields that begins where the reading does. -/
theorem Reads.yields_line (hl : ∀ c, c.atLineStart = false → a.first? c = none) (hs : s ≠ [])
    {line : Text} (hline : line = s ++ t) (hn : '\n' ∉ line) (h : a.Reads before s (t ++ '\n' :: rest) [] vs)
    (hx : ∀ m : Match, m.first = ⟨before, s ++ (t ++ '\n' :: rest)⟩ → m.marks.texts = vs →
      record m = xs) : a.Yields record before (line ++ ['\n']) rest xs := by
  subst hline
  have hsn : '\n' ∉ s := fun hm => hn (List.mem_append_left t hm)
  have ht : '\n' ∉ t := fun hm => hn (List.mem_append_right s hm)
  obtain ⟨m, hm, hfirst, hlast, htexts⟩ := h.first?
  exact hx m hfirst htexts ▸ yields_line_of_first? hl hs hsn ht hm hlast

end Yields

end Pattern

end CodeAtlas
