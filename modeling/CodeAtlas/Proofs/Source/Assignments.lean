import CodeAtlas.Proofs.Text.Splitting
import CodeAtlas.Source.Parameter
import Mathlib.Data.List.Basic

/-!
Which equality signs of a text are taken for assignments, and where a parameter is cut into what it
declares and its default value. Main statement: a comparison is taken for an assignment exactly when
its second sign is the first one outside brackets with neither a second sign nor the end of an arrow
behind it; the first sign of a comparison and an arrow never are.
-/

set_option autoImplicit false

namespace CodeAtlas

namespace Nesting

def InSign (t : Text) (i : Nat) : Prop :=
  ∃ s sign u, (sign = ['=', '='] ∨ sign = ['=', '>']) ∧ t = s ++ sign ++ u ∧
    s.length ≤ i ∧ i < s.length + 2

/-- The depth behind a text whose brackets need not match. -/
def depthBehind (depth : Nat) (last : Option Char) : Text → Nat
  | [] => depth
  | c :: rest => depthBehind (deepen depth last c) (some c) rest

/-- Whether an equality sign between two texts assigns, by what is around it: it is outside brackets
and no comparison and no arrow begins with it. -/
def AssignsFrom (depth : Nat) (last : Option Char) (s u : Text) : Prop :=
  depthBehind depth last s = 0 ∧ continuesSign u = false

instance (depth : Nat) (last : Option Char) (s u : Text) : Decidable (AssignsFrom depth last s u) :=
  inferInstanceAs (Decidable (_ ∧ _))

def Assigns (s u : Text) : Prop := AssignsFrom 0 none s u

/-- A text in which the second sign of a comparison is the first that assigns. -/
def Misread (t : Text) : Prop :=
  ∃ s u, t = s ++ "==" ++ u ∧ Assigns (s ++ ['=']) u ∧
    ∀ r v, s = r ++ '=' :: v → ¬ Assigns r (v ++ "==" ++ u)

section Find

variable {depth : Nat} {last : Option Char}

theorem findFrom_sign_cons (depth : Nat) (last : Option Char) (index : Nat) (c : Char) (t : Text) :
    findFrom '=' depth last index (c :: t) =
      if c = '=' ∧ AssignsFrom depth last [] t then some index
      else findFrom '=' (deepen depth last c) (some c) (index + 1) t := by
  have hcond : ((!(isOpener c || (isCloser c && !endsArrow last c)) && c == '=' && depth == 0
      && !('=' == '=' && continuesSign t)) = true) ↔ (c = '=' ∧ AssignsFrom depth last [] t) := by
    by_cases hc : c = '='
    · subst hc
      simp [isOpener, isCloser, AssignsFrom, depthBehind]
    · simp [hc]
  rw [findFrom]
  simp only [hcond]

theorem findFrom_sign_eq_some_iff {index i : Nat} {t : Text} :
    findFrom '=' depth last index t = some i ↔
      ∃ s u, t = s ++ '=' :: u ∧ i = index + s.length ∧ AssignsFrom depth last s u ∧
        ∀ r v, s = r ++ '=' :: v → ¬ AssignsFrom depth last r (v ++ '=' :: u) := by
  induction t generalizing depth last index with
  | nil => simp [findFrom]
  | cons c t ih =>
    rw [findFrom_sign_cons]
    split
    · rename_i hfirst
      constructor
      · intro h
        refine ⟨[], t, by rw [hfirst.1]; rfl, (Option.some.inj h).symm, hfirst.2, ?_⟩
        intro r v hr
        simp at hr
      · rintro ⟨s, u, ht, rfl, -, hearlier⟩
        cases s with
        | nil => rfl
        | cons d s =>
          obtain ⟨rfl, rfl⟩ := List.cons.inj ht
          exact absurd hfirst.2 (hearlier [] s (by rw [hfirst.1]; rfl))
    · rename_i hfirst
      rw [ih]
      constructor
      · rintro ⟨s, u, rfl, rfl, hassigns, hearlier⟩
        refine ⟨c :: s, u, rfl, by rw [List.length_cons]; omega, hassigns, ?_⟩
        intro r v hr
        cases r with
        | nil =>
          obtain ⟨rfl, rfl⟩ := List.cons.inj hr
          exact fun h => hfirst ⟨rfl, h⟩
        | cons d r =>
          obtain ⟨rfl, rfl⟩ := List.cons.inj hr
          exact hearlier r v rfl
      · rintro ⟨s, u, ht, rfl, hassigns, hearlier⟩
        cases s with
        | nil =>
          obtain ⟨rfl, rfl⟩ := List.cons.inj ht
          exact absurd ⟨rfl, hassigns⟩ hfirst
        | cons d s =>
          obtain ⟨rfl, rfl⟩ := List.cons.inj ht
          refine ⟨s, u, rfl, by rw [List.length_cons]; omega, hassigns, ?_⟩
          rintro r v rfl
          exact hearlier (c :: r) v rfl

theorem find?_sign_eq_some_iff {i : Nat} {t : Text} :
    find? '=' t = some i ↔
      ∃ s u, t = s ++ '=' :: u ∧ i = s.length ∧ Assigns s u ∧
        ∀ r v, s = r ++ '=' :: v → ¬ Assigns r (v ++ '=' :: u) := by
  rw [find?, findFrom_sign_eq_some_iff]
  simp only [Nat.zero_add, Assigns]

end Find

section InSign

variable {s u : Text}

theorem continuesSign_cons {c : Char} {t : Text} (h : c = '=' ∨ c = '>') :
    continuesSign (c :: t) = true := by
  rcases h with rfl | rfl <;> rfl

/-- Behind a sign that assigns the text does not go on as a comparison or an arrow does. -/
theorem append_cons_ne {r v : Text} {c : Char} (hu : continuesSign u = false)
    (hc : c = '=' ∨ c = '>') (hr : r.length = s.length) : s ++ '=' :: u ≠ r ++ '=' :: c :: v := by
  intro h
  obtain ⟨-, htail⟩ := List.append_inj h hr.symm
  rw [(List.cons.inj htail).2, continuesSign_cons hc] at hu
  cases hu

/-- A sign that assigns belongs to a comparison if another one stands before it. -/
theorem inSign_iff (hu : continuesSign u = false) :
    InSign (s ++ '=' :: u) s.length ↔ ∃ r, s = r ++ ['='] := by
  constructor
  · rintro ⟨r, sign, v, hsign, heq, hle, hlt⟩
    obtain ⟨c, hc, rfl⟩ : ∃ c, (c = '=' ∨ c = '>') ∧ sign = ['=', c] := by
      rcases hsign with rfl | rfl
      · exact ⟨'=', .inl rfl, rfl⟩
      · exact ⟨'>', .inr rfl, rfl⟩
    rw [List.append_assoc] at heq
    rcases Nat.eq_or_lt_of_le hle with hlength | hlength
    · exact absurd heq (append_cons_ne hu hc hlength)
    · have hone : s.length = (r ++ ['=']).length := by simp; omega
      have heq' : s ++ '=' :: u = (r ++ ['=']) ++ c :: v := by simpa using heq
      exact ⟨r, (List.append_inj heq' hone).1⟩
  · rintro ⟨r, rfl⟩
    exact ⟨r, ['=', '='], u, .inl rfl, by simp, by simp, by simp⟩

end InSign

theorem misread_iff {t : Text} : Misread t ↔ ∃ i, find? '=' t = some i ∧ InSign t i := by
  constructor
  · rintro ⟨s, u, rfl, hassigns, hearlier⟩
    have ht : s ++ "==" ++ u = (s ++ ['=']) ++ '=' :: u := by simp
    refine ⟨(s ++ ['=']).length, find?_sign_eq_some_iff.2 ⟨_, u, ht, rfl, hassigns, ?_⟩, ?_⟩
    · intro r v hr
      rcases List.eq_nil_or_concat' v with rfl | ⟨v, c, rfl⟩
      · -- the first sign of the comparison has the second behind it
        exact fun h => by cases h.2
      · rw [← List.cons_append, ← List.append_assoc] at hr
        obtain ⟨rfl, hc⟩ := List.append_inj' hr rfl
        obtain rfl : '=' = c := (List.cons.inj hc).1
        simpa using hearlier r v rfl
    · rw [ht, inSign_iff hassigns.2]
      exact ⟨s, rfl⟩
  · rintro ⟨i, hfind, hsign⟩
    obtain ⟨s, u, rfl, rfl, hassigns, hearlier⟩ := find?_sign_eq_some_iff.1 hfind
    obtain ⟨r, rfl⟩ := (inSign_iff hassigns.2).1 hsign
    refine ⟨r, u, by simp, hassigns, ?_⟩
    rintro q v rfl
    simpa using hearlier q (v ++ ['=']) (by simp)

theorem find?_sign_ne {t : Text} {i : Nat} (h : find? '=' t = some i) (s u : Text) :
    (t = s ++ "=>" ++ u → i ≠ s.length ∧ i ≠ s.length + 1) ∧ (t = s ++ "==" ++ u → i ≠ s.length) := by
  obtain ⟨r, v, rfl, rfl, hassigns, -⟩ := find?_sign_eq_some_iff.1 h
  refine ⟨fun heq => ⟨fun hlength => ?_, fun hlength => ?_⟩, fun heq hlength => ?_⟩
  · rw [List.append_assoc] at heq
    exact append_cons_ne hassigns.2 (.inr rfl) hlength.symm heq
  · have heq' : r ++ '=' :: v = (s ++ ['=']) ++ '>' :: u := by simpa using heq
    have htail := (List.append_inj heq' (by simpa using hlength)).2
    cases (List.cons.inj htail).1
  · rw [List.append_assoc] at heq
    exact append_cons_ne hassigns.2 (.inl rfl) hlength.symm heq

end Nesting

namespace Parameter

open Nesting (InSign Misread find?)

theorem defaultValue_of_ofItem? {mark : Bool} {item : Text} {p : Parameter}
    (h : ofItem? mark item = some p) : p.defaultValue = (cutTopLevel '=' item).2 := by
  rw [ofItem?] at h
  split at h
  · cases h
  · dsimp only at h
    split at h
    · cases h
    · exact (Option.some.inj h) ▸ rfl

/-- Whether a parameter of a list is read from an item that is cut at a place, with what stands
behind the place for its default value. -/
structure CutAt (mark : Bool) (t item : Text) (i : Nat) : Prop where
  item_mem : item ∈ (Nesting.split ',' t).map Text.collapse
  place : find? '=' item = some i
  read : ∃ p ∈ parse mark t, ofItem? mark item = some p ∧
    p.defaultValue = some (Text.strip (item.drop (i + 1)))

theorem cutAt_of_ofItem? {mark : Bool} {t item : Text} {i : Nat} {p : Parameter}
    (hitem : item ∈ (Nesting.split ',' t).map Text.collapse) (hread : ofItem? mark item = some p)
    (hplace : find? '=' item = some i) : CutAt mark t item i where
  item_mem := hitem
  place := hplace
  read := by
    obtain ⟨part, hpart, rfl⟩ := List.mem_map.1 hitem
    refine ⟨p, List.mem_filterMap.2 ⟨part, hpart, hread⟩, hread, ?_⟩
    rw [defaultValue_of_ofItem? hread, cutTopLevel, hplace]

/-- The search for an assignment keeps clear of comparisons and arrows in exactly the texts that are
not misread, and the reading of a parameter list in those of whose items none is read as a parameter
and misread. In any text it finds neither a sign of an arrow nor the first one of a comparison. -/
theorem cutAt_inSign_iff (t : Text) :
    ((∀ i, find? '=' t = some i → ¬ InSign t i) ↔ ¬ Misread t) ∧
      (∀ mark, (∀ item i, CutAt mark t item i → ¬ InSign item i) ↔
        ∀ item ∈ (Nesting.split ',' t).map Text.collapse,
          (ofItem? mark item).isSome → ¬ Misread item) ∧
      ∀ i, find? '=' t = some i → ∀ s u : Text,
        (t = s ++ "=>" ++ u → i ≠ s.length ∧ i ≠ s.length + 1) ∧
          (t = s ++ "==" ++ u → i ≠ s.length) := by
  refine ⟨?_, fun mark => ⟨fun h item hitem hsome hmisread => ?_, fun h item i hcut hsign => ?_⟩,
    fun i h => Nesting.find?_sign_ne h⟩
  · rw [Nesting.misread_iff, not_exists]
    simp only [not_and]
  · obtain ⟨p, hread⟩ := Option.isSome_iff_exists.1 hsome
    obtain ⟨i, hplace, hsign⟩ := Nesting.misread_iff.1 hmisread
    exact h item i (cutAt_of_ofItem? hitem hread hplace) hsign
  · obtain ⟨p, -, hread, -⟩ := hcut.read
    exact h item hcut.item_mem (by rw [hread]; rfl) (Nesting.misread_iff.2 ⟨i, hcut.place, hsign⟩)

/-- The arrow is passed over, and the comparison behind it is cut. -/
theorem cutAt_inSign_arrow :
    find? '=' "f: (x) => y == z" = some 13 ∧ 13 ≠ 7 ∧ 13 ≠ 8 ∧ Misread "f: (x) => y == z" ∧
      ¬ ∀ item i, CutAt false "f: (x) => y == z" item i → ¬ InSign item i := by
  have hfind : find? '=' "f: (x) => y == z" = some 13 := by decide
  have hsign : InSign "f: (x) => y == z" 13 :=
    ⟨"f: (x) => y ", ['=', '='], " z", .inl rfl, by decide, by decide, by decide⟩
  obtain ⟨hclear, hlist, hpassed⟩ := cutAt_inSign_iff "f: (x) => y == z"
  have harrow := (hpassed 13 hfind "f: (x) " " y == z").1 (by decide)
  have hmisread : Misread "f: (x) => y == z" :=
    Classical.byContradiction fun h => hclear.2 h 13 hfind hsign
  exact ⟨hfind, harrow.1, harrow.2, hmisread, fun h =>
    (hlist false).1 h "f: (x) => y == z" (by decide) (by decide) hmisread⟩

/-- A parameter is cut in the middle of a comparison. -/
theorem parse_comparison :
    find? '=' "x: a == b" = some 6 ∧ InSign "x: a == b" 6 ∧
      parse false "x: a == b" = [{ name := "x", type := some "a =", defaultValue := some "b" }] :=
  ⟨by decide, ⟨"x: a ", ['=', '='], " b", .inl rfl, by decide, by decide, by decide⟩, by decide⟩

end Parameter

end CodeAtlas
