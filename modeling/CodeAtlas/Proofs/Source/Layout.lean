import CodeAtlas.Proofs.Text.Brackets
import CodeAtlas.Proofs.Text.Words
import CodeAtlas.Source.Parameter
import Mathlib.Data.List.Induction

/-!
The layout of a list: how much white space stands in its gaps, and of which kind. A scan for
separators passes a gap like a single space, because white space is no bracket, no separator and no
part of an arrow. So the items have the same words in every layout. Main statement: what is read of
a parameter list does not depend on its layout.
-/

set_option autoImplicit false

namespace CodeAtlas

namespace Text

def squeeze : Text → Text
  | [] => []
  | c :: t =>
    if isBlank c then (if t.head?.any isBlank then squeeze t else ' ' :: squeeze t)
    else c :: squeeze t

/-- Two texts that differ at most in the amount and the kind of the white space in their gaps. -/
inductive Respaced : Text → Text → Prop
  | nil : Respaced [] []
  | char (c : Char) {s t : Text} : Respaced s t → Respaced (c :: s) (c :: t)
  | gap {x y s t : Text} : x ≠ [] → y ≠ [] → (∀ c ∈ x, isBlank c = true) →
      (∀ c ∈ y, isBlank c = true) → Respaced s t → Respaced (x ++ s) (y ++ t)

theorem Respaced.refl (t : Text) : Respaced t t := by
  induction t with
  | nil => exact .nil
  | cons c t ih => exact .char c ih

def spaced (t : Text) : Text := joinWith [' '] ((splitWords t).1 :: (splitWords t).2)

section SplitWords

variable {x y : Char} {s t : Text}

theorem splitWords_cons_of_isBlank (hx : isBlank x = true) (t : Text) :
    splitWords (x :: t) = ([], words t) := by
  simp [splitWords, words, hx]

theorem splitWords_cons_congr (hx : isBlank x = true) (hy : isBlank y = true)
    (h : splitWords s = splitWords t) : splitWords (x :: s) = splitWords (y :: t) := by
  rw [splitWords_cons_of_isBlank hx, splitWords_cons_of_isBlank hy, words, words, h]

theorem splitWords_cons_cons (hx : isBlank x = true) (hy : isBlank y = true) (t : Text) :
    splitWords (x :: y :: t) = splitWords (y :: t) := by
  simp [splitWords, hx, hy]

theorem words_cons_of_isBlank (hx : isBlank x = true) (t : Text) : words (x :: t) = words t :=
  words_append hx [] t

theorem words_concat_of_isBlank (hx : isBlank x = true) (t : Text) :
    words (t ++ [x]) = words t := by
  rw [words_append hx, words_nil, List.append_nil]

theorem splitWords_gap (hs : s ≠ []) (hb : ∀ c ∈ s, isBlank c = true) (t : Text) :
    splitWords (s ++ t) = ([], words t) := by
  induction s with
  | nil => exact absurd rfl hs
  | cons c s ih =>
    have hc := hb c (.head _)
    rw [List.cons_append, splitWords_cons_of_isBlank hc]
    cases s with
    | nil => rfl
    | cons d s =>
      have ih := ih (by simp) fun e he => hb e (.tail _ he)
      rw [words, ih]
      rfl

theorem Respaced.splitWords_eq (h : Respaced s t) : splitWords s = splitWords t := by
  induction h with
  | nil => rfl
  | char c _ ih => simp only [splitWords, ih]
  | gap hx hy hbx hby _ ih => rw [splitWords_gap hx hbx, splitWords_gap hy hby, words, words, ih]

theorem splitWords_squeeze (t : Text) : splitWords (squeeze t) = splitWords t := by
  induction t with
  | nil => rfl
  | cons c t ih =>
    rw [squeeze]
    cases hc : isBlank c with
    | false => simp [splitWords, ih]
    | true =>
      cases t with
      | nil => exact splitWords_cons_congr (by decide) hc rfl
      | cons d t =>
        cases hd : isBlank d with
        | true => simpa [hd, splitWords_cons_cons hc hd] using ih
        | false => simpa [hd] using splitWords_cons_congr (by decide) hc ih

end SplitWords

section Strip

variable {t : Text}

theorem words_dropWhile (t : Text) : words (t.dropWhile isBlank) = words t := by
  induction t with
  | nil => rfl
  | cons c t ih =>
    cases hc : isBlank c with
    | true => rw [List.dropWhile_cons_of_pos hc, ih, words_cons_of_isBlank hc]
    | false => rw [List.dropWhile_cons_of_neg (by simp [hc])]

theorem words_dropRight (t : Text) : words (dropRight isBlank t) = words t := by
  induction t using List.reverseRecOn with
  | nil => rfl
  | append_singleton t c ih =>
    rw [dropRight, List.reverse_append, List.reverse_singleton, List.singleton_append]
    cases hc : isBlank c with
    | true => rw [List.dropWhile_cons_of_pos hc, words_concat_of_isBlank hc, ← ih, dropRight]
    | false =>
      rw [List.dropWhile_cons_of_neg (by simp [hc]), List.reverse_cons, List.reverse_reverse]

theorem words_strip (t : Text) : words (strip t) = words t := by
  rw [strip, trim, words_dropRight, words_dropWhile]

theorem single_squeeze (h : Halts isBlank t.reverse) : Single (squeeze t) := by
  induction t with
  | nil => trivial
  | cons c t ih =>
    have ht : Halts isBlank t.reverse := by
      cases t with
      | nil => simp
      | cons d t => exact (halts_append (by simp) [c]).1 (by simpa using h)
    rw [squeeze]
    cases hc : isBlank c with
    | false => exact ⟨fun hb => absurd hb (by simp [hc]), ih ht⟩
    | true =>
      cases t with
      | nil => simp [hc] at h
      | cons d t =>
        cases hd : isBlank d with
        | true => simpa [hd] using ih ht
        | false =>
          have hsqueeze : squeeze (d :: t) = d :: squeeze t := by simp [squeeze, hd]
          have hsingle := ih ht
          rw [hsqueeze] at hsingle
          simp only [List.head?_cons, Option.any_some, hd, hsqueeze]
          exact ⟨fun _ => ⟨rfl, by simp, halts_cons.2 hd⟩, hsingle⟩

theorem halts_dropWhile (p : Text.Class) (t : Text) : Halts p (t.dropWhile p) := by
  intro x hx
  have h := List.head?_dropWhile_not p t
  rw [Option.mem_def.1 hx] at h
  simpa using h

theorem trimmed_strip (t : Text) : Trimmed (strip t) := by
  constructor
  · rw [strip, trim, dropRight]
    obtain ⟨s, hs⟩ := List.dropWhile_suffix isBlank (l := (t.dropWhile isBlank).reverse)
    have hfront : t.dropWhile isBlank = dropRight isBlank (t.dropWhile isBlank) ++ s.reverse := by
      rw [dropRight, ← List.reverse_append, hs, List.reverse_reverse]
    intro x hx
    have hin := halts_dropWhile isBlank t
    rw [hfront] at hin
    exact hin x (by simp [dropRight, Option.mem_def.1 hx])
  · rw [strip, trim, dropRight, List.reverse_reverse]
    exact halts_dropWhile isBlank _

theorem squeeze_strip (t : Text) : squeeze (strip t) = collapse t := by
  obtain ⟨hfront, hback⟩ := trimmed_strip t
  have hsqueeze : Halts isBlank (squeeze (strip t)) := by
    cases hs : strip t with
    | nil => simp [squeeze]
    | cons c s =>
      have hc : isBlank c = false := halts_cons.1 (hs ▸ hfront)
      simp [squeeze, hc]
  have hkeep : collapse (squeeze (strip t)) = squeeze (strip t) :=
    (single_squeeze hback).collapsed hsqueeze
  have hwords : words (squeeze (strip t)) = words t := by
    rw [words, splitWords_squeeze]
    exact words_strip t
  rw [← hkeep, collapse, hwords, collapse]

end Strip

theorem collapse_congr {s t : Text} (h : words s = words t) : collapse s = collapse t := by
  rw [collapse, collapse, h]

section Spaced

variable {x y : Char}

theorem spaced_cons_of_not_isBlank (hx : isBlank x = false) (t : Text) :
    spaced (x :: t) = x :: spaced t := by
  simp only [spaced, splitWords, hx]
  exact joinWith_append_cons [' '] [x] _ _

theorem spaced_singleton (hx : isBlank x = true) : spaced [x] = [] := by
  simp [spaced, splitWords, hx]

theorem spaced_cons_cons (hx : isBlank x = true) (hy : isBlank y = true) (t : Text) :
    spaced (x :: y :: t) = spaced (y :: t) := by
  rw [spaced, splitWords_cons_cons hx hy, spaced]

theorem spaced_cons_word (hx : isBlank x = true) (hy : isBlank y = false) (t : Text) :
    spaced (x :: y :: t) = ' ' :: spaced (y :: t) := by
  simp [spaced, splitWords, hx, hy]

theorem spaced_eq_collapse (t : Text) : spaced t = collapse t ∨ spaced t = ' ' :: collapse t := by
  rw [spaced, collapse, words]
  rcases splitWords t with ⟨_ | ⟨c, w⟩, _ | ⟨v, ws⟩⟩
  · exact .inl rfl
  · exact .inr rfl
  · exact .inl rfl
  · exact .inl rfl

end Spaced

end Text

namespace Nesting

open Text (splitWords words spaced)

section Blank

variable {x : Char}

theorem ne_of_isBlank (hx : Text.isBlank x = true) {c : Char} (hc : Text.isBlank c = false) :
    x ≠ c := by
  rintro rfl
  rw [hx] at hc
  cases hc

theorem isBracket_of_isBlank (hx : Text.isBlank x = true) : isBracket x = false := by
  have hne : ∀ c, Text.isBlank c = false → x ≠ c := fun c => ne_of_isBlank hx
  simp [isBracket, isOpener, isCloser, hne '(' (by decide), hne '[' (by decide),
    hne '{' (by decide), hne '<' (by decide), hne ')' (by decide), hne ']' (by decide),
    hne '}' (by decide), hne '>' (by decide)]

def Alike (last last' : Option Char) : Prop := last = some '=' ↔ last' = some '='

theorem alike_of_isBlank {y : Char} (hx : Text.isBlank x = true) (hy : Text.isBlank y = true) :
    Alike (some x) (some y) := by
  have hxe : x ≠ '=' := ne_of_isBlank hx (by decide)
  have hye : y ≠ '=' := ne_of_isBlank hy (by decide)
  simp [Alike, hxe, hye]

theorem deepen_of_alike {last last' : Option Char} {c : Char} (h : c = '>' → Alike last last')
    (depth : Nat) : deepen depth last c = deepen depth last' c := by
  by_cases hc : c = '>'
  · have hlast : (last == some '=') = (last' == some '=') := by
      rw [Bool.eq_iff_iff]
      simpa [Alike] using h hc
    rw [deepen, deepen, endsArrow, endsArrow, hlast]
  · exact deepen_of_ne hc last'

end Blank

section SplitFrom

variable {sep : Char}

theorem splitFrom_eq_modifyHead (sep : Char) (depth : Nat) (last : Option Char) (part t : Text) :
    splitFrom sep depth last part t =
      (splitFrom sep depth last [] t).modifyHead (part.reverse ++ ·) := by
  induction t generalizing depth last part with
  | nil => simp [splitFrom]
  | cons c t ih =>
    simp only [splitFrom]
    split
    · simp
    · rw [ih _ _ (c :: part), ih _ _ [c], List.modifyHead_modifyHead]
      congr 1
      funext u
      simp

theorem splitFrom_cons (sep : Char) (depth : Nat) (last : Option Char) (c : Char) (t : Text) :
    splitFrom sep depth last [] (c :: t) =
      if c = sep ∧ deepen depth last c = 0 then
        [] :: splitFrom sep (deepen depth last c) (some c) [] t
      else (splitFrom sep (deepen depth last c) (some c) [] t).modifyHead (c :: ·) := by
  rw [splitFrom]
  split
  · rfl
  · rw [splitFrom_eq_modifyHead]
    rfl

theorem map_modifyHead_congr {f g : Text → Text}
    (h : ∀ s t, splitWords s = splitWords t → splitWords (f s) = splitWords (g t))
    {ss ts : List Text} (hst : ss.map splitWords = ts.map splitWords) :
    (ss.modifyHead f).map splitWords = (ts.modifyHead g).map splitWords := by
  cases ss with
  | nil =>
    obtain rfl : ts = [] := by simpa using hst.symm
    rfl
  | cons s ss =>
    obtain ⟨t, ts, rfl⟩ := List.exists_cons_of_ne_nil (l := ts) (by rintro rfl; simp at hst)
    obtain ⟨hhead, htail⟩ := List.cons.inj hst
    exact List.cons_eq_cons.2 ⟨h s t hhead, htail⟩

/-- White space is passed and begins the first part. -/
theorem splitFrom_cons_of_isBlank (hsep : Text.isBlank sep = false) {x : Char}
    (hx : Text.isBlank x = true) (depth : Nat) (last : Option Char) (t : Text) :
    splitFrom sep depth last [] (x :: t) =
      (splitFrom sep depth (some x) [] t).modifyHead (x :: ·) := by
  have hcut : ¬ (x = sep ∧ depth = 0) := fun h => ne_of_isBlank hx hsep h.1
  rw [splitFrom_cons, deepen_of_not_isBracket (isBracket_of_isBlank hx), if_neg hcut]

theorem splitFrom_of_alike {depth : Nat} {last last' : Option Char} {t : Text}
    (h : t.head? = some '>' → Alike last last') (sep : Char) (part : Text) :
    splitFrom sep depth last part t = splitFrom sep depth last' part t := by
  cases t with
  | nil => rfl
  | cons c t => rw [splitFrom, splitFrom, deepen_of_alike (by simpa using h)]

/-- The parts keep their words, and so does the place where a word of theirs begins, when every gap
becomes a space. -/
theorem splitWords_splitFrom_spaced (hsep : Text.isBlank sep = false) (depth : Nat)
    (last last' : Option Char) (t : Text) (h : t.head? = some '>' → Alike last last') :
    (splitFrom sep depth last [] t).map splitWords =
      (splitFrom sep depth last' [] (spaced t)).map splitWords := by
  induction t generalizing depth last last' with
  | nil => rfl
  | cons x t ih =>
    cases hx : Text.isBlank x with
    | false =>
      have hih := ih (deepen depth last' x) (some x) (some x) fun _ => Iff.rfl
      rw [Text.spaced_cons_of_not_isBlank hx, splitFrom_cons, splitFrom_cons,
        deepen_of_alike (by simpa using h)]
      split
      · rw [List.map_cons, List.map_cons, hih]
      · exact map_modifyHead_congr (fun s t hst => by simp only [splitWords, hst]) hih
    | true =>
      rw [splitFrom_cons_of_isBlank hsep hx]
      cases t with
      | nil =>
        rw [Text.spaced_singleton hx]
        simp [splitFrom, splitWords, hx]
      | cons y t =>
        cases hy : Text.isBlank y with
        | false =>
          have hspace : Text.isBlank ' ' = true := by decide
          rw [Text.spaced_cons_word hx hy, splitFrom_cons_of_isBlank hsep hspace]
          exact map_modifyHead_congr (fun _ _ => Text.splitWords_cons_congr hx hspace)
            (ih depth (some x) (some ' ') fun _ => alike_of_isBlank hx hspace)
        | true =>
          -- the first of two white characters is dropped
          have hy' : (y :: t).head? ≠ some '>' := by simpa using ne_of_isBlank hy (by decide)
          rw [Text.spaced_cons_cons hx hy, ← ih depth (some x) last' fun hc => absurd hc hy',
            splitFrom_cons_of_isBlank hsep hy]
          cases splitFrom sep depth (some y) [] t with
          | nil => rfl
          | cons u us => simp [Text.splitWords_cons_cons hx hy]

theorem map_words_of_map_splitWords {ss ts : List Text}
    (h : ss.map splitWords = ts.map splitWords) : ss.map words = ts.map words := by
  have hwords : ∀ us : List Text, us.map words = (us.map splitWords).map fun p =>
      if p.1.isEmpty then p.2 else p.1 :: p.2 := by
    intro us
    rw [List.map_map]
    rfl
  rw [hwords, h, ← hwords]

theorem map_words_split (hsep : Text.isBlank sep = false) (t : Text) :
    (split sep (Text.collapse t)).map words = (split sep t).map words := by
  have hspaced := splitWords_splitFrom_spaced hsep 0 none none t fun _ => Iff.rfl
  rw [split, split, map_words_of_map_splitWords hspaced]
  rcases Text.spaced_eq_collapse t with h | h
  · rw [h]
  · have hspace : Text.isBlank ' ' = true := by decide
    have halike : Alike (some ' ') none := by simp [Alike]
    rw [h, splitFrom_cons_of_isBlank hsep hspace, splitFrom_of_alike fun _ => halike]
    cases splitFrom sep 0 none [] (Text.collapse t) with
    | nil => rfl
    | cons u us => simp [Text.words_cons_of_isBlank hspace]

end SplitFrom

end Nesting

namespace Parameter

theorem parse_eq (mark : Bool) (t : Text) :
    parse mark t = ((Nesting.split ',' t).map Text.words).filterMap fun ws =>
      ofItem? mark (Text.joinWith [' '] ws) := by
  rw [List.filterMap_map]
  rfl

theorem parse_collapse (mark : Bool) (t : Text) : parse mark (Text.collapse t) = parse mark t := by
  rw [parse_eq, parse_eq, Nesting.map_words_split (by decide)]

/-- What is read of a parameter list does not depend on its layout. -/
theorem parse_layout (mark : Bool) :
    (∀ t, parse mark (Text.squeeze (Text.strip t)) = parse mark t) ∧
      ∀ s t, Text.Respaced s t → parse mark s = parse mark t := by
  refine ⟨fun t => ?_, fun s t h => ?_⟩
  · rw [Text.squeeze_strip, parse_collapse]
  · have hwords : Text.words s = Text.words t := by
      rw [Text.words, Text.words, h.splitWords_eq]
    rw [← parse_collapse mark s, Text.collapse_congr hwords, parse_collapse]

/-- A line break with the indentation behind it counts as the space that stands there otherwise. -/
theorem parse_layout_indented :
    Text.Respaced "a:\n\tT, b = c" "a: T, b = c" ∧
      parse true "a:\n\tT, b = c" = parse true "a: T, b = c" ∧
      parse true (Text.squeeze (Text.strip "\n  a:\u00a0 T ")) = parse true "\n  a:\u00a0 T " ∧
      parse true "a: T, b = c" =
        [{ name := "a", type := some "T" },
          { name := "b", isOptional := true, defaultValue := some "c" }] := by
  have hrespaced : Text.Respaced "a:\n\tT, b = c" "a: T, b = c" := by
    refine .char 'a' (.char ':' (.gap (x := ['\n', '\t']) (y := [' ']) ?_ ?_ ?_ ?_ (.refl _)))
    · simp
    · simp
    · decide
    · decide
  exact ⟨hrespaced, (parse_layout true).2 _ _ hrespaced, (parse_layout true).1 _, by decide⟩

end Parameter

end CodeAtlas
