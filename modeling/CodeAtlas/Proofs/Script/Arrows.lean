import CodeAtlas.Proofs.Script.Elsewhere
import CodeAtlas.Proofs.Script.Scan
import CodeAtlas.Proofs.Script.Statements

/-!
Arrow functions bound to variables, among declarations of variables that have a type and no value.
The pattern of an arrow function allows a type between the name and the equality sign. So a
declaration without a semicolon takes in whatever follows up to the next equality sign, and the arrow
function found there is given the name and the line of the declaration.
-/

set_option autoImplicit false

namespace CodeAtlas.Script

open Pattern

variable {before : List Char} {rest : Text} {us : List (Part × Text)}

section Reading

theorem reads_binder (b : Binder) : binder.Reads before b.text rest us us := by
  cases b with
  | const => exact (reads_text _).either
  | lexical =>
    refine ((reads_text _).either).either_right fun m k => ?_
    exact run_text_eq_none (x := 'c') rfl (by simp)
  | var =>
    refine ((reads_text _).either_right fun m k => ?_).either_right fun m k => ?_
    · exact run_text_eq_none (x := 'l') rfl (by simp)
    · exact run_text_eq_none (x := 'c') rfl (by simp)

theorem reads_asynchronous (isAsync : Bool) :
    (optional (mark .asynchronous (text "async" ++ Pattern.some Text.isBlank))).Reads before
      (word isAsync "async") ('(' :: rest) us
      (if isAsync then (.asynchronous, "async ") :: us else us) := by
  cases isAsync with
  | true =>
    exact (((reads_text _).append (reads_gap (Text.halts_cons.2 (by decide)))).mark
      .asynchronous).optional
  | false =>
    refine reads_optional_nil fun m k => ?_
    rw [run_mark, run_append]
    exact run_text_eq_none (x := 'a') rfl (by simp)

def ArrowBinding.valueMarks (a : ArrowBinding) : List (Part × Text) :=
  (.parameters, a.parameterText) :: if a.isAsync then [(.asynchronous, "async ")] else []

variable (a : ArrowBinding)

theorem reads_value : (char '=' ++ (blanks
    ++ (optional (mark .asynchronous (text "async" ++ Pattern.some Text.isBlank))
    ++ (typeArguments ['>', '('] ++ (either parameterList (mark .lone ident) ++ (blanks
    ++ (optional (char ':' ++ blanks ++ one (Text.noneOf ['=', ';', '{'])
        ++ few (Text.noneOf ['=', ';', '{'])) ++ text "=>"))))))).Reads before a.value rest us
      (a.valueMarks ++ us) := by
  have hclose : ')' ∉ a.parameterText := a.not_mem_parameterText (by decide) (by decide)
  have hmarks : a.valueMarks ++ us = (.parameters, a.parameterText) ::
      if a.isAsync then (.asynchronous, "async ") :: us else us := by
    rw [ArrowBinding.valueMarks]
    cases a.isAsync <;> rfl
  have htext : a.value = ['='] ++ ([' '] ++ (word a.isAsync "async" ++ ([] ++
      (['('] ++ a.parameterText ++ [')'] ++ ([' '] ++ ([] ++ ("=>" : Text))))))) := by
    simp [ArrowBinding.value]
  rw [htext, hmarks]
  refine (reads_char '=').append (.append (reads_space ?_) (.append (reads_asynchronous _) ?_))
  · cases a.isAsync <;> exact Text.halts_cons.2 (by decide)
  refine .append (reads_typeArguments_nil (by simp)) (.append (reads_parameterList hclose).either ?_)
  refine .append (reads_space (Text.halts_cons.2 (by decide))) (.append ?_ (reads_text _))
  refine reads_optional_nil fun m k => ?_
  rw [run_append, run_append, run_append]
  exact run_char_eq_none (by simp)

theorem reads_bound (b : Binder) (n : Ident) {z : Text} (hb : Text.Halts Text.isWord before)
    (hz : ∀ before us, (blanks ++ optional (char ':' ++ Pattern.some (Text.noneOf ['=', ';']))).Reads
      before z (a.value ++ rest) us us) (hhalts : Text.Halts isIdentPart (z ++ (a.value ++ rest))) :
    arrowPattern.Reads before (b.text ++ ([' '] ++ (n.text ++ (z ++ a.value)))) rest []
      (a.valueMarks ++ [(.name, n.text)]) := by
  obtain ⟨x, w, htext, -, hx⟩ := b.exists_cons
  have hhead : (b.text ++ ([' '] ++ (n.text ++ (z ++ a.value))) ++ rest).head? = Option.some x := by
    rw [htext]
    rfl
  simp only [arrowPattern, reads_append_assoc]
  refine Reads.append (s := []) (reads_wordStart hb hx hhead) (.append (reads_binder b) ?_)
  refine .append (reads_gap ?_) (.append ((reads_ident n ?_).mark .name) ?_)
  · rw [List.append_assoc]
    exact n.halts_isBlank _
  · rwa [List.append_assoc]
  exact reads_append_assoc.1 (.append (hz _ _) (reads_value a))

theorem reads_binding (hb : Text.Halts Text.isWord before) :
    arrowPattern.Reads before (a.target ++ a.value) rest [] (a.valueMarks ++ [(.name, a.name.text)]) := by
  have hread : arrowPattern.Reads before
      (a.binder.text ++ ([' '] ++ (a.name.text ++ ([' '] ++ a.value)))) rest []
      (a.valueMarks ++ [(.name, a.name.text)]) := by
    refine reads_bound a a.binder a.name hb (fun before us => ?_) (Text.halts_cons.2 (by decide))
    refine Reads.append (t := []) (reads_space ?_) (reads_optional_nil fun m k => ?_)
    · exact Text.halts_cons.2 (by decide)
    · rw [run_append]
      exact run_char_eq_none (by simp [ArrowBinding.value])
  simpa [ArrowBinding.target] using hread

theorem reads_run (d : TypedVariable) {z : Text} (hb : Text.Halts Text.isWord before)
    (hz : ∀ c ∈ z, Text.noneOf ['=', ';'] c = true) :
    arrowPattern.Reads before
      (d.binder.text ++ ([' '] ++ (d.name.text ++ ((d.annotation ++ z) ++ a.value)))) rest []
      (a.valueMarks ++ [(.name, d.name.text)]) := by
  have hbody : d.body = (d.binder.text ++ ' ' :: (d.name.text ++ [':'])) ++ ' ' :: d.type.text := by
    simp [TypedVariable.body, TypedVariable.annotation]
  have htype : ∀ c ∈ (' ' :: d.type.text) ++ z, Text.noneOf ['=', ';'] c = true :=
    List.forall_mem_append.2 ⟨fun c hc => noneOf_body d c (hbody ▸ List.mem_append_right _ hc), hz⟩
  refine reads_bound a d.binder d.name hb (fun before us => ?_) (Text.halts_cons.2 (by decide))
  refine Reads.append (s := []) (reads_blanks_nil (Text.halts_cons.2 (by decide))) ?_
  refine Reads.optional (Reads.append (s := [':']) (reads_char ':') ?_)
  exact reads_some (by simp) htype (Text.halts_cons.2 (by decide))

theorem arrowOf_eq {m : Match} {n : Ident} {isExported : Bool}
    (hb : (Cursor.mk before []).atLineStart = true)
    (hfirst : m.first = ⟨(word isExported "export").reverse ++ before, rest⟩)
    (htexts : m.marks.texts = a.valueMarks ++ [(.name, n.text)]) :
    arrowOf m = { a.declared (before.count '\n' + 1) with name := n.text, isExported } := by
  have hwords : ∀ e : Bool, '\n' ∉ word e "export" ∧ hasWord "export" (word e "export") = e ∧
      hasWord "async" (word e "export") = false := by decide +kernel
  obtain ⟨hline, hexport, hasync⟩ := hwords isExported
  have hname : m.part .name = n.text := by
    rw [m.part_eq, htexts, ArrowBinding.valueMarks]
    cases a.isAsync <;> rfl
  have hparams : m.part? .parameters = Option.some a.parameterText := by
    rw [m.part?_eq_lookup, htexts]
    rfl
  have hasynchronous : m.has .asynchronous = a.isAsync := by
    rw [m.has_eq, htexts, ArrowBinding.valueMarks]
    cases a.isAsync <;> rfl
  have hhead : m.first.lineHead = word isExported "export" := by
    rw [hfirst, Cursor.lineHead_append hb hline]
  have hnumber : m.line = before.count '\n' + 1 := by
    rw [Match.line, hfirst, Cursor.lineNumber_append hline]
  simp only [arrowOf, saidBefore, hname, hparams, hasynchronous, hhead, hexport, hasync, hnumber,
    Option.getD_some, a.parse_parameterText, Bool.or_false]
  rfl

end Reading

/-! Where no arrow function is found. -/

section Absence

def Quiet (t : Text) : Prop := '=' ∉ t.takeWhile (· != ';')

theorem takeWhile_append {s t : Text} (hs : ∀ c ∈ s, Text.noneOf ['=', ';'] c = true) :
    (s ++ t).takeWhile (· != ';') = s ++ t.takeWhile (· != ';') := by
  refine List.takeWhile_append_of_pos fun c hc => ?_
  simpa using fun h : c = ';' => absurd (h ▸ hs c hc) (by decide)

theorem Quiet.append {s t : Text} (ht : Quiet t) (hs : ∀ c ∈ s, Text.noneOf ['=', ';'] c = true) :
    Quiet (s ++ t) := by
  have hequals : '=' ∉ s := fun hm => absurd (hs _ hm) (by decide)
  rw [Quiet, takeWhile_append hs, List.mem_append, not_or]
  exact ⟨hequals, ht⟩

theorem quiet_nil : Quiet [] := by simp [Quiet]

theorem quiet_semicolon (t : Text) : Quiet (';' :: t) := by simp [Quiet]

/-- The way to the equality sign passes neither a semicolon nor another equality sign. -/
theorem arrowPattern_eq_none {c : Cursor} (h : Quiet c.rest) : arrowPattern.first? c = none := by
  refine Option.eq_none_iff_forall_ne_some.2 fun m hm => ?_
  rw [first?, arrowPattern, run_append, run_append, run_append, run_append, run_append, run_append,
    run_append, run_append] at hm
  have hwithin : (wordEdge ++ binder ++ Pattern.some Text.isBlank ++ mark .name ident ++ blanks
      ++ optional (char ':' ++ Pattern.some (Text.noneOf ['=', ';']))).Within
        (Text.noneOf ['=', ';']) :=
    ⟨⟨⟨⟨⟨trivial, within_binder (by decide)⟩, within_gap (by decide)⟩, within_identifier (by decide)⟩,
      within_blanks (by decide)⟩, ⟨within_text (by decide), fun _ h => h, fun _ h => h⟩,
      within_text (by decide)⟩
  obtain ⟨s, r, m', hr, hs, hm⟩ := run_eq_some_of_within hwithin hm
  obtain ⟨r, rfl, _⟩ := run_text_eq_some hm
  refine h ?_
  rw [hr, takeWhile_append hs]
  simp

theorem idle_of_quiet {s : Text} (hs : ∀ c ∈ s, Text.noneOf ['=', ';'] c = true) (h : Quiet rest) :
    arrowPattern.Idle before s rest := by
  refine idle_of_forall fun u x v hu => arrowPattern_eq_none ?_
  exact h.append fun c hc => hs c (hu ▸ List.mem_append_right u hc)

def Opening (t : Text) : Prop :=
  t = [] ∨ ∃ w d u, t = w ++ ' ' :: d :: u ∧ w ≠ [] ∧ (∀ c ∈ w, isIdentPart c = true) ∧
    isIdentStart d = true

theorem Opening.of_append {g t : Text} (h : Opening (g ++ t)) (hg : ∀ c ∈ g, Text.isBlank c = true) :
    Opening t := by
  cases g with
  | nil => exact h
  | cons x g =>
    rcases h with h | ⟨w, d, u, h, hne, hw, -⟩
    · cases h
    · obtain ⟨y, w, rfl⟩ := List.exists_cons_of_ne_nil hne
      have hblank := hg x (.head _)
      rw [(List.cons.inj h).1, isBlank_of_isIdentPart (hw y (.head _))] at hblank
      cases hblank

theorem exists_of_run_name {β : Type} {p b : Pattern} {c : Cursor} {m : Marks}
    {k : Cursor → Marks → Option β} {v : β}
    (h : (mark .name ident ++ (blanks ++ (optional (char ':' ++ p) ++ (char '=' ++ b)))).run c m k =
      Option.some v) :
    ∃ n g z r, c.rest = n ++ (g ++ z :: r) ∧ (∀ x ∈ n, isIdentPart x = true) ∧
      (∀ x ∈ g, Text.isBlank x = true) ∧ z ∈ [':', '='] := by
  rw [run_append, run_mark, ident, run_append] at h
  obtain ⟨x, r, hx, hstart, h⟩ := run_one_eq_some h
  obtain ⟨n, r, rfl, hn, h⟩ := run_many_eq_some h
  rw [run_append] at h
  obtain ⟨g, r, rfl, hg, h⟩ := run_many_eq_some h
  have hname : ∀ y ∈ x :: n, isIdentPart y = true :=
    List.forall_mem_cons.2 ⟨isIdentPart_of_isIdentStart hstart, hn⟩
  rw [run_append] at h
  rcases run_optional_eq_some h with h | h
  · rw [run_append] at h
    obtain ⟨r, rfl, _⟩ := run_text_eq_some h
    exact ⟨x :: n, g, ':', r, hx, hname, hg, by decide⟩
  · rw [run_append] at h
    obtain ⟨r, rfl, _⟩ := run_text_eq_some h
    exact ⟨x :: n, g, '=', r, hx, hname, hg, by decide⟩

/-- Behind the first word of a statement no colon and no equality sign comes. -/
theorem Opening.ne_named {t n g r : Text} {z : Char} (h : Opening t)
    (hn : ∀ x ∈ n, isIdentPart x = true) (hg : ∀ x ∈ g, Text.isBlank x = true) (hz : z ∈ [':', '=']) :
    t ≠ n ++ (g ++ z :: r) := by
  have hsigns : ∀ z ∈ [':', '='], isIdentPart z = false ∧ z ≠ ' ' := by decide
  intro ht
  rcases h with rfl | ⟨w, d, u, h, -, hw, hd⟩
  · simp at ht
  · have hstop : Text.Halts isIdentPart (g ++ z :: r) := by
      cases g with
      | nil => exact Text.halts_cons.2 (hsigns z hz).1
      | cons y g => exact Text.halts_cons.2 (isIdentPart_of_isBlank (hg y (.head _)))
    obtain ⟨-, htail⟩ := Text.append_inj_of_halts hw hn (Text.halts_cons.2 (by decide)) hstop
      (h.symm.trans ht)
    have hpart := isIdentPart_of_isIdentStart hd
    -- The letter behind the space is neither white space nor the sign.
    rcases g with _ | ⟨y, _ | ⟨y', g⟩⟩
    · exact (hsigns z hz).2 (List.cons.inj htail).1.symm
    · rw [(List.cons.inj (List.cons.inj htail).2).1, (hsigns z hz).1] at hpart
      cases hpart
    · rw [(List.cons.inj (List.cons.inj htail).2).1, isIdentPart_of_isBlank (hg y' (.tail _ (.head _)))] at hpart
      cases hpart

theorem run_name_eq_none {β : Type} {p b : Pattern} {c : Cursor} {m : Marks}
    {k : Cursor → Marks → Option β} (h : Opening c.rest) :
    (mark .name ident ++ (blanks ++ (optional (char ':' ++ p) ++ (char '=' ++ b)))).run c m k = none := by
  refine Option.eq_none_iff_forall_ne_some.2 fun v hv => ?_
  obtain ⟨n, g, z, r, ht, hn, hg, hz⟩ := exists_of_run_name hv
  exact h.ne_named hn hg hz ht

theorem idle_body {s : Text} (hs : s.Solid) (hrest : Opening rest) :
    arrowPattern.Idle before (s ++ ['\n']) rest := by
  refine idle_append.2 ⟨idle_of_forall fun u x v hu => ?_, arrowPattern_opens.idle (by decide)⟩
  refine Option.eq_none_iff_forall_ne_some.2 fun m hm => ?_
  have hsolid : ∀ c ∈ x :: v, (!Text.isBlank c) = true := fun c hc => by
    simp [hs c (hu ▸ List.mem_append_right u hc)]
  simp only [arrowPattern, first?, run_append] at hm
  obtain ⟨_, hm⟩ := run_wordEdge_eq_some hm
  refine absurd (hm.symm.trans (among_binder _ _ _ _ fun w hw => ?_)) (by simp)
  refine Option.eq_none_iff_forall_ne_some.2 fun y hy => ?_
  obtain ⟨r, hr, hy⟩ := run_text_eq_some hy
  obtain ⟨g, r, hne, rfl, hg, hy⟩ := run_some_eq_some hy
  obtain ⟨b, g, rfl⟩ := List.exists_cons_of_ne_nil hne
  have hwords : ∀ w ∈ [("const" : Text), "let", "var"], ∀ c ∈ w, (!Text.isBlank c) = true := by decide
  have hb : (!Text.isBlank b) = false := by simp [hg b (.head _)]
  have hcut : x :: v ++ '\n' :: rest = w ++ b :: (g ++ r) := hr
  obtain ⟨-, htail⟩ := Text.append_inj_of_halts hsolid (hwords w hw) (Text.halts_cons.2 (by decide))
    (Text.halts_cons.2 hb) hcut
  obtain ⟨-, rfl⟩ := List.cons.inj htail
  have hopening : Opening r := hrest.of_append fun c hc => hg c (.tail _ hc)
  exact absurd (hy.symm.trans (run_name_eq_none hopening)) (by simp)

theorem opening_statementsText (ss : List Statement) : Opening (statementsText ss) := by
  have hbinder : ∀ (b : Binder) (n : Ident) (u : Text),
      Opening (b.text ++ ([' '] ++ (n.text ++ u))) := fun b n u =>
    .inr ⟨b.text, n.first, n.more ++ u, rfl, b.ne_nil, plain_binder b, n.start⟩
  cases ss with
  | nil => exact .inl rfl
  | cons s ss =>
    cases s with
    | typed d =>
      rw [statementsText_cons, block_typed, TypedVariable.body]
      simpa using hbinder d.binder d.name _
    | arrow a =>
      rw [statementsText_cons, block_arrow, ArrowBinding.target]
      cases a.isExported with
      | true =>
        obtain ⟨x, w, hw, hx, -⟩ := a.binder.exists_cons
        have htext : word true "export" ++ (Text.concat [a.binder.text, [' '], a.name.text, [' ']]
            ++ a.value ++ (a.ending ++ ['\n'])) ++ statementsText ss = ("export" : Text) ++ ' ' :: x ::
              (w ++ ' ' :: (a.name.text ++ ' ' :: (a.value ++ (a.ending ++ '\n' :: statementsText ss)))) := by
          simp [word, hw]
        exact .inr ⟨"export", x, _, htext, by simp, by decide, hx⟩
      | false => simpa [word] using hbinder a.binder a.name _

theorem quiet_statementsText {ss : List Statement} (h : ahead? ss = none) :
    Quiet (statementsText ss) := by
  induction ss with
  | nil => exact quiet_nil
  | cons s ss ih =>
    cases s with
    | typed d =>
      rw [ahead?] at h
      rw [statementsText_cons, block_typed, List.append_assoc]
      split at h
      · rename_i hclosed
        rw [hclosed]
        exact (quiet_semicolon _).append (noneOf_body d)
      · rename_i hopen
        have hquiet := ih (Option.map_eq_none_iff.1 h)
        have hline := hquiet.append (s := ['\n']) (by decide)
        rw [Bool.not_eq_true] at hopen
        rw [hopen]
        exact hline.append (noneOf_body d)
    | arrow a => cases h

end Absence

section Statements

variable {ss : List Statement}

theorem idle_typed (d : TypedVariable) (h : d.isClosed = true ∨ Quiet rest) :
    arrowPattern.Idle before ((Statement.typed d).text ++ ['\n']) rest := by
  rw [block_typed]
  cases hclosed : d.isClosed with
  | true =>
    refine idle_append.2 ⟨idle_of_quiet (noneOf_body d) (quiet_semicolon _), ?_⟩
    exact arrowPattern_opens.idle (by decide)
  | false =>
    have hquiet : Quiet rest := h.resolve_left (by simp [hclosed])
    refine idle_of_quiet (fun c hc => ?_) hquiet
    rcases List.mem_append.1 hc with hc | hc
    · exact noneOf_body d c hc
    · rw [List.mem_singleton.1 hc]
      decide

theorem idle_ending (a : ArrowBinding) (h : Opening rest) :
    arrowPattern.Idle before (a.ending ++ ['\n']) rest := by
  have hsigns : ∀ c ∈ ['.', '+', '-'], Text.noneOf ['=', ';'] c = true := by decide
  have hbody : ∀ c ∈ ' ' :: a.body.text, Text.noneOf ['=', ';'] c = true :=
    List.forall_mem_cons.2 ⟨by decide, fun c hc =>
      (a.body.mem_text hc).elim noneOf_of_isIdentPart (hsigns c)⟩
  cases hclosed : a.isClosed with
  | true =>
    have htext : a.ending ++ ['\n'] = (' ' :: a.body.text) ++ [';', '\n'] := by
      simp [ArrowBinding.ending, terminator, hclosed]
    rw [htext]
    refine idle_append.2 ⟨idle_of_quiet hbody (quiet_semicolon _), ?_⟩
    exact arrowPattern_opens.idle (by decide)
  | false =>
    have htext : a.ending ++ ['\n'] = [' '] ++ (a.body.text ++ ['\n']) := by
      simp [ArrowBinding.ending, terminator, hclosed]
    rw [htext]
    exact idle_append.2 ⟨arrowPattern_opens.idle (by decide), idle_body a.body.solid h⟩

theorem yields_binding (a : ArrowBinding) (hb : (Cursor.mk before []).atLineStart = true)
    (h : Opening rest) :
    arrowPattern.Yields (fun m => [arrowOf m]) before ((Statement.arrow a).text ++ ['\n']) rest
      [a.declared (before.count '\n' + 1)] := by
  have hlead : ∀ e : Bool, Text.avoids ["const", "let", "var"] (word e "export") = true ∧
      (word e "export").getLast?.all (fun c => !Text.isWord c) = true := by decide +kernel
  obtain ⟨havoids, hlast⟩ := hlead a.isExported
  rw [block_arrow]
  refine .enclosed (arrowPattern_opens.idle havoids) ?_ (idle_ending a h)
  refine (reads_binding a (Cursor.halts_isWord_append hb hlast)).yields ?_ fun m hfirst htexts => ?_
  · simp [ArrowBinding.value]
  · exact congrArg (· :: []) (arrowOf_eq a hb hfirst htexts)

/-- A run of declarations without semicolons yields the arrow function behind it under the name of
the first of them. -/
theorem yields_run (d : TypedVariable) (ds : List TypedVariable) (a : ArrowBinding)
    (hopen : ∀ e ∈ d :: ds, e.isClosed = false) (hb : (Cursor.mk before []).atLineStart = true)
    (h : Opening rest) :
    arrowPattern.Yields (fun m => [arrowOf m]) before
      (statementsText ((d :: ds).map .typed ++ [.arrow a])) rest
      [{ a.declared (before.count '\n' + 1) with name := d.name.text, isExported := false }] := by
  have hclosed := hopen d (.head _)
  have htext : statementsText ((d :: ds).map .typed ++ [.arrow a]) =
      (d.binder.text ++ ([' '] ++ (d.name.text ++ ((d.annotation
        ++ '\n' :: (statementsText (ds.map .typed) ++ (word a.isExported "export" ++ a.target)))
        ++ a.value)))) ++ (a.ending ++ ['\n']) := by
    simp [statementsText, blocks, Statement.text, TypedVariable.text, ArrowBinding.text, terminator,
      hclosed]
  have hbetween : ∀ c ∈ '\n' :: (statementsText (ds.map .typed)
      ++ (word a.isExported "export" ++ a.target)), Text.noneOf ['=', ';'] c = true := by
    refine List.forall_mem_cons.2 ⟨by decide, fun c hc => ?_⟩
    rcases List.mem_append.1 hc with hc | hc
    · obtain ⟨s, hs, hc⟩ := List.mem_flatMap.1 hc
      obtain ⟨e, he, rfl⟩ := List.mem_map.1 hs
      rw [block_typed, hopen e (.tail _ he)] at hc
      rcases List.mem_append.1 hc with hc | hc
      · exact noneOf_body e c hc
      · rw [List.mem_singleton.1 hc]
        decide
    · exact noneOf_target a c hc
  have hstart : Text.Halts Text.isWord before := Cursor.halts_isWord_append (t := []) hb rfl
  rw [htext]
  refine Yields.enclosed (l := []) (idle_nil _) ?_ (idle_ending a h)
  refine (reads_run a d hstart hbetween).yields ?_ fun m hfirst htexts => ?_
  · simp [ArrowBinding.value]
  · exact congrArg (· :: []) (arrowOf_eq a hb hfirst htexts)

/-- A declaration that is closed, or that no arrow function is ahead of, yields nothing. -/
theorem yields_typed (d : TypedVariable) (h : d.isClosed = true ∨ ahead? ss = none) :
    arrowPattern.Yields (fun m => [arrowOf m]) before (statementsText [.typed d])
      (statementsText ss) [] := by
  rw [statementsText_singleton]
  exact yields_of_idle (idle_typed d (h.imp_right quiet_statementsText))

/-- The search takes some statements at a time: a declaration that yields nothing, an arrow function,
or an arrow function with the declarations that lead to it. -/
theorem exists_yields (hne : ss ≠ []) :
    ∃ (done rest : List Statement) (records : Nat → List FunctionRecord), done ≠ [] ∧
      ss = done ++ rest ∧
      (∀ before, (Cursor.mk before []).atLineStart = true →
        arrowPattern.Yields (fun m => [arrowOf m]) before (statementsText done) (statementsText rest)
          (records (before.count '\n' + 1))) ∧
      ∀ line, found none line ss = records line ++ found none (line + done.length) rest := by
  rcases ss with _ | ⟨d | a, ss⟩
  · exact absurd rfl hne
  · by_cases h : d.isClosed = true ∨ ahead? ss = none
    · exact ⟨[.typed d], ss, fun _ => [], by simp, rfl, fun before _ => yields_typed d h,
        fun line => found_typed h⟩
    · obtain ⟨hclosed, hahead⟩ := not_or.1 h
      rw [Bool.not_eq_true] at hclosed
      obtain ⟨⟨ds, a, rest⟩, hahead⟩ := Option.ne_none_iff_exists'.1 hahead
      obtain ⟨hss, hopen⟩ := ahead?_eq_some hahead
      refine ⟨(d :: ds).map .typed ++ [.arrow a], rest, fun line =>
        [{ a.declared line with name := d.name.text, isExported := false }], by simp, by simp [hss],
        fun before hb => ?_, fun line => ?_⟩
      · exact yields_run d ds a (List.forall_mem_cons.2 ⟨hclosed, hopen⟩) hb
          (opening_statementsText rest)
      · have hline : line + ((d :: ds).map Statement.typed ++ [Statement.arrow a]).length =
            line + 1 + ds.length + 1 := by simp; omega
        rw [found_typed_of_ahead? hclosed hahead, hline]
        rfl
  · refine ⟨[.arrow a], ss, fun line => [a.declared line], by simp, rfl, fun before hb => ?_,
      fun line => rfl⟩
    rw [statementsText_singleton]
    exact yields_binding a hb (opening_statementsText ss)

theorem arrows_statementsText {before : List Char} (hb : (Cursor.mk before []).atLineStart = true) :
    (arrowPattern.findFrom 0 before (statementsText ss)).flatMap (fun m => [arrowOf m]) =
      found none (before.count '\n' + 1) ss := by
  -- On the length, as a run of declarations is taken in with the arrow function behind it.
  induction hn : ss.length using Nat.strong_induction_on generalizing ss before with
  | h n ih =>
    by_cases hne : ss = []
    · rw [hne]
      rfl
    obtain ⟨done, rest, records, hdone, rfl, hyields, hfound⟩ := exists_yields hne
    have hlength := List.length_pos_of_ne_nil hdone
    have hrest := ih rest.length (by simp [← hn]; omega) (atLineStart_statementsText hb done) rfl
    have hcount : ((statementsText done).reverse ++ before).count '\n' + 1 =
        before.count '\n' + 1 + done.length := by
      rw [List.count_append, List.count_reverse, count_statementsText]
      omega
    rw [statementsText_append, hyields before hb, hrest, hfound, hcount]

end Statements

section Files

variable (path language : Text) (ss : List Statement)

theorem functions_statementsText : functions (statementsText ss) = found none 1 ss := by
  have hbrace : ∀ c ∈ statementsText ss, (c == '\x7b') = false := by
    intro c hc
    obtain ⟨s, -, hc⟩ := List.mem_flatMap.1 hc
    rcases List.mem_append.1 hc with hc | hc
    · simpa using fun h : c = '\x7b' => s.not_mem_text _ (by decide) (h ▸ hc)
    · rw [List.mem_singleton.1 hc]
      rfl
  have hdemands : functionPattern.Demands fun c => c == '\x7b' := .inr ⟨'\x7b', .head _, rfl⟩
  have hstart : (Cursor.mk [] []).atLineStart = true := rfl
  have harrows : (arrowPattern.findAll (statementsText ss)).flatMap (fun m => [arrowOf m]) =
      found none 1 ss := arrows_statementsText hstart
  rw [functions, findAll_eq_nil_of_demands hdemands hbrace, List.map_eq_flatMap, List.map_eq_flatMap,
    harrows]
  rfl

/-- The functions of a file are the arrow functions that are bound in it, each by its name and on its
line, if and only if no declaration without a semicolon stands before an arrow function. -/
theorem functions_eq_bindings_iff
    (h : Language.family? (Language.normalize language path) = Option.some .ecmaScript) :
    (Scan.of path language (Option.some (statementsText ss))).file.functions = bindings 1 ss ↔
      ss.IsChain fun s t => s.runsInto t = false := by
  have hfunctions : (Scan.of path language (Option.some (statementsText ss))).file.functions =
      found none 1 ss := by
    simp only [Scan.of, h]
    exact functions_statementsText ss
  rw [hfunctions, found_eq_bindings_iff (by simp)]
  simp

def sampleStatements : List Statement :=
  let t : Ident := .single 'T' (by decide)
  let f : Ident := .single 'f' (by decide)
  let one : Atom := ⟨['1'], List.cons_ne_nil _ _, List.forall_mem_singleton.2 (.inl (by decide))⟩
  [.typed ⟨false, f, ⟨t, [(.angle, .name t .done)]⟩, true⟩, .arrow ⟨true, .const, f, true, [t, f], one, false⟩,
    .arrow ⟨false, .var, t, false, [], one, true⟩, .typed ⟨true, t, ⟨f, []⟩, false⟩]

theorem functions_eq_bindings_sample :
    (Scan.of "m.ts" "typescript" (Option.some (statementsText sampleStatements))).file.functions =
      bindings 1 sampleStatements :=
  (functions_eq_bindings_iff "m.ts" "typescript" sampleStatements
    (family?_normalize _ (by decide) _)).2 (by simp [sampleStatements, Statement.runsInto, Statement.isArrow])

def openStatements : List Statement :=
  let x : Ident := .single 'x' (by decide)
  let t : Ident := .single 'T' (by decide)
  let f : Ident := .single 'f' (by decide)
  let a : Ident := .single 'a' (by decide)
  let b : Atom := ⟨['b'], List.cons_ne_nil _ _, List.forall_mem_singleton.2 (.inl (by decide))⟩
  [.typed ⟨false, x, ⟨t, []⟩, false⟩, .arrow ⟨false, .const, f, false, [a], b, false⟩]

/-- The declaration gives the arrow function its name and its line. -/
theorem functions_openStatements :
    statementsText openStatements = "let x: T\nconst f = (a) => b\n" ∧
      (bindings 1 openStatements).map (fun f => (f.name, f.startLine)) = [(("f" : Text), 2)] ∧
      ((Scan.of "m.ts" "typescript" (Option.some (statementsText openStatements))).file.functions).map
        (fun f => (f.name, f.startLine)) = [(("x" : Text), 1)] := by
  decide +kernel

end Files

end CodeAtlas.Script
