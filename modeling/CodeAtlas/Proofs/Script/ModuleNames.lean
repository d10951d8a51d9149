import CodeAtlas.Proofs.Script.ImportReading

/-!
Matches that begin in the name of a module. Such a match takes the quotation mark behind the name
for the one before a name. None begins there if no word of the pattern stands in the name before
something with which the match goes on, and none if no other quotation mark comes behind.
-/

set_option autoImplicit false

namespace CodeAtlas.Script

open Pattern

variable {before : List Char} {rest : Text} {a b : Pattern}

section Names

variable {β : Type} {u : Text} {q : Char} {m : Marks} {k : Cursor → Marks → Option β} {v : β}

/-- A text without quotation marks ends before the first one. -/
theorem exists_eq_append_of_unquoted {s r : Text} (hq : isUnquoted q = false)
    (hs : ∀ c ∈ s, isUnquoted c = true) (h : u ++ q :: rest = s ++ r) :
    ∃ u', u = s ++ u' ∧ r = u' ++ q :: rest := by
  rcases List.append_eq_append_iff.1 h with ⟨t, rfl, ht⟩ | ⟨t, rfl, ht⟩
  · cases t with
    | nil => exact ⟨[], by simp, ht.symm⟩
    | cons x t =>
      obtain ⟨rfl, -⟩ := List.cons.inj ht
      rw [hs q (by simp)] at hq
      cases hq
  · exact ⟨t, rfl, ht⟩

/-- From inside a text up to a quotation mark the pattern does not get past that mark, unless there
is an opening bracket in the text. -/
def Stays (a : Pattern) : Prop :=
  ∀ (β : Type) (before : List Char) (u rest : Text) (q : Char) (m : Marks)
    (k : Cursor → Marks → Option β) (v : β), isUnquoted q = false →
      a.run ⟨before, u ++ q :: rest⟩ m k = Option.some v → '{' ∈ u ∨
        ∃ s u' m', u = s ++ u' ∧ k ⟨s.reverse ++ before, u' ++ q :: rest⟩ m' = Option.some v

theorem stays_of_within (ha : a.Within isUnquoted) : Stays a := by
  intro β before u rest q m k v hq h
  obtain ⟨s, r, m', hr, hs, hk⟩ := run_eq_some_of_within ha h
  obtain ⟨u', rfl, rfl⟩ := exists_eq_append_of_unquoted hq hs hr
  exact .inr ⟨s, u', m', rfl, hk⟩

theorem stays_bracket : Stays (char '{' ++ a) := by
  intro β before u rest q m k v hq h
  rw [run_append] at h
  obtain ⟨r, hr, -⟩ := run_text_eq_some h
  obtain ⟨u', rfl, -⟩ := exists_eq_append_of_unquoted (s := ['{']) hq (by decide) hr
  exact .inl (.head _)

theorem Stays.append (ha : Stays a) (hb : Stays b) : Stays (a ++ b) := by
  intro β before u rest q m k v hq h
  rw [run_append] at h
  rcases ha _ _ _ _ _ _ _ _ hq h with hopen | ⟨s, u, m', rfl, hk⟩
  · exact .inl hopen
  · rcases hb _ _ _ _ _ _ _ _ hq hk with hopen | ⟨t, u, m'', rfl, hk'⟩
    · exact .inl (List.mem_append_right s hopen)
    · exact .inr ⟨s ++ t, u, m'', by simp, by simpa using hk'⟩

theorem Stays.either (ha : Stays a) (hb : Stays b) : Stays (either a b) := by
  intro β before u rest q m k v hq h
  rcases run_either_eq_some h with h | h
  · exact ha _ _ _ _ _ _ _ _ hq h
  · exact hb _ _ _ _ _ _ _ _ hq h

theorem Stays.mark (part : Part) (ha : Stays a) : Stays (mark part a) := by
  intro β before u rest q m k v hq h
  rw [run_mark] at h
  rcases ha _ _ _ _ _ _ _ _ hq h with hopen | ⟨s, u, m', rfl, hk⟩
  · exact .inl hopen
  · exact .inr ⟨s, u, _, rfl, hk⟩

theorem eq_nil_of_run_quoted (hu : ∀ c ∈ u, isUnquoted c = true)
    (h : quoted.run ⟨before, u ++ q :: rest⟩ m k = Option.some v) : u = [] := by
  rw [quoted, run_append, run_append, quote] at h
  obtain ⟨x, r, hr, hx, -⟩ := run_one_eq_some h
  cases u with
  | nil => rfl
  | cons c u =>
    obtain ⟨rfl, -⟩ := List.cons.inj hr
    have hc := hu c (.head _)
    simp only [isUnquoted, Text.noneOf] at hc
    simp_all

theorem endsIn_append {w g : Text} (hw : w.getLast?.any (fun c => !Text.isBlank c) = true)
    (hg : ∀ c ∈ g, Text.isBlank c = true) (s : Text) : endsIn w (s ++ (w ++ g)) = true := by
  have hlast : Text.Halts Text.isBlank (s ++ w).reverse := by
    obtain ⟨c, hc, hblank⟩ := (Option.any_eq_true _ _).1 hw
    obtain ⟨w, rfl⟩ := List.getLast?_eq_some_iff.1 hc
    simpa using hblank
  rw [endsIn, ← List.append_assoc, Text.dropRight_append hg hlast, Text.endsWith_iff]
  exact ⟨s, rfl⟩

/-- What stands before a quotation mark, if a pattern takes that mark for the one before a name. -/
theorem mem_or_endsIn_of_run {w : Text} (ha : Stays a) (hw : ∀ c ∈ w, isUnquoted c = true)
    (hlast : w.getLast?.any (fun c => !Text.isBlank c) = true) (hq : isUnquoted q = false)
    (hu : ∀ c ∈ u, isUnquoted c = true)
    (h : (a ++ (text w ++ (blanks ++ quoted))).run ⟨before, u ++ q :: rest⟩ m k = Option.some v) :
    '{' ∈ u ∨ endsIn w u = true := by
  rw [run_append] at h
  rcases ha _ _ _ _ _ _ _ _ hq h with hopen | ⟨s, u, m, rfl, hk⟩
  · exact .inl hopen
  rw [run_append] at hk
  obtain ⟨r, hr, hk⟩ := run_text_eq_some hk
  obtain ⟨u, rfl, rfl⟩ := exists_eq_append_of_unquoted hq hw hr
  rw [run_append] at hk
  obtain ⟨g, r, hr, hg, hk⟩ := run_many_eq_some hk
  have hblank : ∀ c ∈ g, isUnquoted c = true := fun c hc =>
    Text.noneOf_of_class (by decide) c (hg c hc)
  obtain ⟨u, rfl, rfl⟩ := exists_eq_append_of_unquoted hq hblank hr
  obtain rfl := eq_nil_of_run_quoted (fun c hc => hu c (by simp [hc])) hk
  rw [List.append_nil]
  exact .inr (endsIn_append hlast hg s)

theorem goesOn_of_run {w : Text} (ha : Stays a) (hw : ∀ c ∈ w, isUnquoted c = true)
    (hlast : w.getLast?.any (fun c => !Text.isBlank c) = true) (hq : isUnquoted q = false)
    (hu : ∀ c ∈ u, isUnquoted c = true)
    (h : (Pattern.some Text.isBlank ++ (a ++ (text w ++ (blanks ++ quoted)))).run
      ⟨before, u ++ q :: rest⟩ m k = Option.some v) : goesOn w u = true := by
  have hblank : ∀ c, Text.isBlank c = true → isUnquoted c = true := Text.noneOf_of_class (by decide)
  have hgap : (Pattern.some Text.isBlank).Within isUnquoted := ⟨hblank, hblank⟩
  have hstays := (stays_of_within hgap).append ha
  have hend := mem_or_endsIn_of_run hstays hw hlast hq hu h
  rw [run_append] at h
  obtain ⟨g, r, hne, hr, hg, -⟩ := run_some_eq_some h
  obtain ⟨x, g, rfl⟩ := List.exists_cons_of_ne_nil hne
  obtain ⟨u, rfl, -⟩ := exists_eq_append_of_unquoted hq (fun c hc => hblank c (hg c hc)) hr
  have hx : Text.isBlank x = true := hg x (.head _)
  simpa [goesOn, hx] using hend

/-- No match begins in the name where no word of the pattern stands before something with which the
match goes on. -/
theorem idle_of_stands {ws : List Text} {p : Text → Bool} {s : Text} (ha : Among ws a)
    (hws : ∀ w ∈ ws, w.head?.any Text.isWord = true ∧ ∀ c ∈ w, isUnquoted c = true)
    (hq : isUnquoted q = false) (hs : ∀ c ∈ s, isUnquoted c = true)
    (hb : ∀ {β : Type} {before : List Char} {u : Text} {m : Marks}
      {k : Cursor → Marks → Option β} {v : β}, (∀ c ∈ u, isUnquoted c = true) →
        b.run ⟨before, u ++ q :: rest⟩ m k = Option.some v → p u = true)
    (h : ∀ w ∈ ws, stands w p (before.head?.any Text.isWord) s = false) :
    (wordEdge ++ (a ++ b)).Idle before s (q :: rest) := by
  induction s generalizing before with
  | nil => trivial
  | cons c s ih =>
    have hstep : ∀ w ∈ ws, (!before.head?.any Text.isWord && Text.startsWith (c :: s) w
        && p ((c :: s).drop w.length)) = false ∧ stands w p (Text.isWord c) s = false :=
      fun w hw => Bool.or_eq_false_iff.1 (h w hw)
    refine ⟨?_, ih (fun d hd => hs d (.tail _ hd)) fun w hw => (hstep w hw).2⟩
    refine Option.eq_none_iff_forall_ne_some.2 fun m hm => ?_
    rw [first?, run_append] at hm
    obtain ⟨hedge, hm⟩ := run_wordEdge_eq_some hm
    rw [run_append] at hm
    refine absurd (hm.symm.trans (ha _ _ _ _ fun w hw => ?_)) (by simp)
    refine Option.eq_none_iff_forall_ne_some.2 fun v hv => ?_
    obtain ⟨hword, hplain⟩ := hws w hw
    obtain ⟨r, hr, hv⟩ := run_text_eq_some hv
    obtain ⟨u, hu, rfl⟩ := exists_eq_append_of_unquoted (u := c :: s) hq hplain hr
    have hp : p u = true := hb (fun d hd => hs d (hu ▸ List.mem_append_right w hd)) hv
    have hbefore : before.head?.any Text.isWord = false := by
      obtain ⟨d, hd, hisWord⟩ := (Option.any_eq_true _ _).1 hword
      obtain ⟨t, rfl⟩ := List.head?_eq_some_iff.1 hd
      obtain ⟨rfl, -⟩ := List.cons.inj hu
      cases before with
      | nil => rfl
      | cons x before => simpa [Cursor.atWordEdge, hisWord] using hedge
    have hstart : Text.startsWith (c :: s) w = true := Text.startsWith_iff.2 ⟨u, hu.symm⟩
    have hnot := (hstep w hw).1
    rw [hbefore, hstart, hu, List.drop_left, hp] at hnot
    cases hnot

end Names

section Contained

variable {q q' : Char} {s : Text}

theorem stays_clausePart : Stays (typeWord ++ defaultPart ++ optional (either namedPart starPart)
    ++ blanks) := by
  have hgap : (Pattern.some Text.isBlank).Within isUnquoted := within_gap (by decide)
  have hblanks : blanks.Within isUnquoted := within_blanks (by decide)
  have hident : ident.Within isUnquoted := within_identifier (by decide)
  have hnone : (text []).Within isUnquoted := within_text (by simp)
  have htype : typeWord.Within isUnquoted := ⟨⟨within_text (by decide), hgap⟩, hnone⟩
  have hdefault : defaultPart.Within isUnquoted :=
    ⟨⟨⟨hident, hblanks⟩, ⟨within_text (by decide), hblanks⟩, hnone⟩, hnone⟩
  have hnamed : Stays namedPart :=
    stays_bracket.append (stays_of_within (within_text (by decide)))
  have hstar : starPart.Within isUnquoted :=
    ⟨⟨⟨⟨within_text (by decide), hblanks⟩, within_text (by decide)⟩, hgap⟩, hident⟩
  have hothers : Stays (optional (either namedPart starPart)) :=
    (hnamed.either (stays_of_within hstar)).either (stays_of_within hnone)
  exact (((stays_of_within htype).append (stays_of_within hdefault)).append hothers).append
    (stays_of_within hblanks)

theorem stays_target : Stays (mark .binding (either ident (char '{' ++ many (· != '}') ++ char '}'))
    ++ blanks ++ char '=' ++ blanks) := by
  have hblanks : Stays blanks := stays_of_within (within_blanks (by decide))
  have hsign : ∀ x, isUnquoted x = true → Stays (char x) := fun x hx =>
    stays_of_within (by simpa [Within, char] using hx)
  have hbinding : Stays (either ident (char '{' ++ many (· != '}') ++ char '}')) :=
    (stays_of_within (within_identifier (by decide))).either
      (stays_bracket.append (hsign '}' (by decide)))
  exact (((hbinding.mark _).append hblanks).append (hsign '=' (by decide))).append hblanks

variable (n : ModuleName) (hq : isUnquoted q = false) (hb : before.head?.any Text.isWord = false)
include hq hb

theorem idle_clause_of_opensClause (h : n.opensClause = false) :
    importPattern.Idle before n.text (q :: rest) := by
  simp only [importPattern_eq, idle_append_assoc]
  refine idle_of_stands (p := goesOn "from") (among_text _) (by decide) hq n.unquoted ?_ ?_
  · exact fun hu hrun => goesOn_of_run stays_clausePart (by decide) (by decide) hq hu hrun
  · simpa [hb, ModuleName.opensClause] using h

theorem idle_bare_of_opensBare (h : n.opensBare = false) :
    bareImportPattern.Idle before n.text (q :: rest) := by
  simp only [bareImportPattern, idle_append_assoc]
  refine idle_of_stands (p := (·.all Text.isBlank)) (among_text _) (by decide) hq n.unquoted ?_ ?_
  · intro β before u m k v hu hrun
    rw [run_append] at hrun
    obtain ⟨g, r, hr, hg, hrun⟩ := run_many_eq_some hrun
    have hblank : ∀ c ∈ g, isUnquoted c = true := fun c hc =>
      Text.noneOf_of_class (by decide) c (hg c hc)
    obtain ⟨u, rfl, rfl⟩ := exists_eq_append_of_unquoted hq hblank hr
    obtain rfl := eq_nil_of_run_quoted (fun c hc => hu c (List.mem_append_right g hc)) hrun
    simpa using hg
  · simpa [hb, ModuleName.opensBare] using h

theorem idle_require_of_opensRequire (h : n.opensRequire = false) :
    requirePattern.Idle before n.text (q :: rest) := by
  simp only [requirePattern, idle_append_assoc]
  refine idle_of_stands (p := goesOn "require(") among_binder (by decide) hq n.unquoted ?_ ?_
  · exact fun hu hrun => goesOn_of_run stays_target (by decide) (by decide) hq hu hrun
  · simpa [hb, ModuleName.opensRequire] using h

end Contained

section Last

def isQuotation : Text.Class := fun c => c == '\'' || c == '"'

theorem isQuotation_of_isUnquoted {c : Char} (h : isUnquoted c = true) : isQuotation c = false := by
  simp only [isUnquoted, Text.noneOf] at h
  simpa [isQuotation] using h

def NeedsQuotation (a : Pattern) : Prop :=
  ∀ (β : Type) (c : Cursor) (m : Marks) (k : Cursor → Marks → Option β) (v : β),
    a.run c m k = Option.some v → 2 ≤ c.rest.countP isQuotation

theorem needsQuotation_quoted : NeedsQuotation quoted := by
  intro β c m k v h
  rw [quoted, run_append, run_append, quote] at h
  obtain ⟨x, r, hx, hxq, h⟩ := run_one_eq_some h
  rw [run_mark] at h
  obtain ⟨t, r, -, rfl, -, h⟩ := run_some_eq_some h
  obtain ⟨y, r, rfl, hyq, -⟩ := run_one_eq_some h
  rw [hx, List.countP_cons_of_pos (p := isQuotation) hxq, List.countP_append,
    List.countP_cons_of_pos (p := isQuotation) hyq]
  omega

theorem NeedsQuotation.append_left (ha : NeedsQuotation a) (b : Pattern) :
    NeedsQuotation (a ++ b) :=
  fun β c m k v h => ha β c m (fun c m => b.run c m k) v h

theorem NeedsQuotation.append_right (hb : NeedsQuotation b) (a : Pattern) :
    NeedsQuotation (a ++ b) := by
  intro β c m k v h
  rw [run_append] at h
  obtain ⟨s, r, m', hr, -, h⟩ := run_eq_some_of_within (within_all a) h
  have hcount := hb _ _ _ _ _ h
  rw [hr, List.countP_append]
  exact Nat.le_add_left_of_le hcount

theorem needsQuotation_importPattern : NeedsQuotation importPattern :=
  needsQuotation_quoted.append_right _

theorem needsQuotation_bareImportPattern : NeedsQuotation bareImportPattern :=
  needsQuotation_quoted.append_right _

theorem needsQuotation_requirePattern : NeedsQuotation requirePattern :=
  ((needsQuotation_quoted.append_right _).append_left _).append_left _

theorem NeedsQuotation.idle {q : Char} (ha : NeedsQuotation a) {s : Text}
    (hs : ∀ c ∈ s, isUnquoted c = true) (hrest : ∀ c ∈ rest, isUnquoted c = true) :
    a.Idle before s (q :: rest) := by
  have hnone : ∀ t : Text, (∀ c ∈ t, isUnquoted c = true) → t.countP isQuotation = 0 :=
    fun t ht => List.countP_eq_zero.2 fun c hc => by simp [isQuotation_of_isUnquoted (ht c hc)]
  refine idle_of_forall fun u x v hu => Option.eq_none_iff_forall_ne_some.2 fun m hm => ?_
  have htwo : 2 ≤ (x :: (v ++ q :: rest)).countP isQuotation := ha _ _ _ _ _ hm
  have hname := hnone (x :: v) fun c hc => hs c (hu ▸ List.mem_append_right u hc)
  rw [← List.cons_append, List.countP_append, hname, List.countP_cons, hnone rest hrest] at htwo
  split at htwo <;> omega

end Last

end CodeAtlas.Script
