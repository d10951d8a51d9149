import CodeAtlas.Proofs.Pattern.Readings
import CodeAtlas.Proofs.Script.Texts

set_option autoImplicit false

namespace CodeAtlas.Script

open Pattern

variable {before : List Char} {s rest : Text} {us : List (Part × Text)}

theorem reads_ident (n : Ident) (hr : Text.Halts isIdentPart rest) :
    ident.Reads before n.text rest us us :=
  Reads.append (reads_one n.start) (reads_many n.part hr)

theorem reads_blanks_nil (hr : Text.Halts Text.isBlank rest) : blanks.Reads before [] rest us us :=
  reads_many_nil hr

theorem reads_space (hr : Text.Halts Text.isBlank rest) : blanks.Reads before [' '] rest us us :=
  reads_many (by decide) hr

theorem reads_gap (hr : Text.Halts Text.isBlank rest) :
    (Pattern.some Text.isBlank).Reads before [' '] rest us us :=
  reads_some (by simp) (by decide) hr

section TypeArguments

variable {excluded : Text}

theorem reads_typeArguments_nil (h : rest.head? ≠ some '<') :
    (typeArguments excluded).Reads before [] rest us us := by
  refine reads_optional_nil fun m k => ?_
  rw [run_append, run_append, run_append]
  exact run_char_eq_none h

theorem reads_typeArguments {inner sp : Text} (hin : ∀ c ∈ inner, Text.noneOf excluded c = true)
    (hex : '>' ∈ excluded) (hsp : blanks.Reads (('<' :: inner ++ ['>']).reverse ++ before) sp rest us us) :
    (typeArguments excluded).Reads before (['<'] ++ inner ++ ['>'] ++ sp) rest us us := by
  refine Reads.optional ?_
  refine Reads.append (Reads.append (Reads.append (reads_char '<') (reads_many hin ?_))
    (reads_char '>')) (by simpa using hsp)
  exact Text.halts_cons.2 (by simp [Text.noneOf, hex])

theorem reads_arguments (a : Option Arguments) (hr : Text.Halts Text.isBlank rest)
    (h : rest.head? ≠ some '<') :
    (blanks ++ typeArguments ['>', '{']).Reads before (Arguments.text a ++ [' ']) rest us us := by
  cases a with
  | none => exact Reads.append (t := []) (reads_space hr) (reads_typeArguments_nil h)
  | some a =>
    have hin : ∀ c ∈ a.inner.text, Text.noneOf ['>', '{'] c = true :=
      Text.noneOf_of_not_mem (by simp [a.single, a.inner.not_mem (d := '{') (by decide) (by decide)])
    have hread : (blanks ++ typeArguments ['>', '{']).Reads before
        ([] ++ (['<'] ++ a.inner.text ++ ['>'] ++ [' '])) rest us us :=
      Reads.append (reads_blanks_nil (Text.halts_cons.2 (by decide)))
        (reads_typeArguments hin (by decide) (reads_space hr))
    simpa [Arguments.text] using hread

end TypeArguments

section Functions

theorem reads_star (isGenerator : Bool) (hr : Text.Halts Text.isBlank rest)
    (h : rest.head? ≠ some '*') :
    (blanks ++ optional (char '*') ++ blanks).Reads before
      ((if isGenerator then ['*'] else []) ++ [' ']) rest us us := by
  cases isGenerator with
  | true =>
    refine Reads.append (Reads.append (s := []) (reads_blanks_nil ?_) ?_) (reads_space hr)
    · exact Text.halts_cons.2 (by decide)
    · exact (reads_char '*').optional
  | false =>
    refine Reads.append (t := []) (Reads.append (t := []) (reads_space hr) ?_) (reads_blanks_nil hr)
    exact reads_optional_nil fun m k => run_char_eq_none h

theorem reads_parameterList {ps : Text} (h : ')' ∉ ps) :
    parameterList.Reads before (['('] ++ ps ++ [')']) rest us ((.parameters, ps) :: us) := by
  refine ((reads_char '(').append ?_).append (reads_char ')')
  exact (reads_many (Text.noneOf_of_not_mem (by simpa using h)) (Text.halts_cons.2 (by decide))).mark
    .parameters

theorem reads_result (f : FunctionHead) :
    (blanks ++ (optional (char ':' ++ blanks ++ Pattern.some (Text.noneOf ['{', ';', '=']))
      ++ char '{')).Reads before (f.resultText ++ [' ', '{']) rest us us := by
  unfold FunctionHead.resultText
  split
  · rename_i t _
    have hin : ∀ d ∈ ['{', ';', '='], d ∉ t.text ++ [' '] := by
      simp [t.not_mem (d := '{') (by decide) (by decide), t.not_mem (d := ';') (by decide) (by decide),
        t.not_mem (d := '=') (by decide) (by decide)]
    have hread : (optional (char ':' ++ blanks ++ Pattern.some (Text.noneOf ['{', ';', '=']))).Reads
        before ([':'] ++ [' '] ++ (t.text ++ [' '])) (['{'] ++ rest) us us := by
      refine Reads.optional (((reads_char ':').append (reads_space ?_)).append ?_)
      · rw [List.append_assoc]
        exact t.halts_isBlank _
      · exact reads_some (by simp) (Text.noneOf_of_not_mem hin) (Text.halts_cons.2 (by decide))
    have hsign := Reads.append (s := []) (reads_blanks_nil (Text.halts_cons.2 (by decide)))
      (hread.append (reads_char '{'))
    simpa using hsign
  · refine Reads.append (s := [' ']) (t := ['{']) (reads_space (Text.halts_cons.2 (by decide))) ?_
    refine Reads.append (s := []) (reads_optional_nil fun m k => ?_) (reads_char '{')
    rw [run_append, run_append]
    exact run_char_eq_none (by simp)

theorem reads_function (f : FunctionHead) (hb : Text.Halts Text.isWord before) :
    functionPattern.Reads before (f.keyword ++ f.signature) rest []
      [(.parameters, f.parameterText), (.name, f.name.text)] := by
  have hparams : ')' ∉ f.parameterText := 
    f.not_mem_parameterText (by decide) (by decide)
  have htext : f.keyword ++ f.signature = [] ++ (("function" : Text) ++ ([] ++
      (((if f.isGenerator then ['*'] else []) ++ [' ']) ++ (f.name.text ++ ([] ++ ([] ++
        ((['('] ++ f.parameterText ++ [')']) ++ (f.resultText ++ [' ', '{'])))))))) := by
    simp [FunctionHead.keyword, FunctionHead.signature]
  rw [htext]
  simp only [functionPattern, reads_append_assoc]
  refine Reads.append (reads_wordStart (x := 'f') hb (by decide) (by simp)) ?_
  refine Reads.append (reads_text _) ?_
  refine Reads.append (reads_wordEnd (x := 'n') (by decide) (by simp) ?_) ?_
  · cases f.isGenerator <;> exact Text.halts_cons.2 (by decide)
  refine reads_append_assoc.1 (reads_append_assoc.1 (Reads.append (reads_star _ ?_ ?_) ?_))
  · rw [List.append_assoc]
    exact f.name.halts_isBlank _
  · rw [List.append_assoc]
    exact f.name.head?_ne (by decide) _
  refine Reads.append ((reads_ident _ (Text.halts_cons.2 (by decide))).mark .name) ?_
  refine Reads.append (reads_blanks_nil (Text.halts_cons.2 (by decide))) ?_
  refine Reads.append (reads_typeArguments_nil (by simp)) ?_
  exact Reads.append (reads_parameterList hparams) (reads_result f)

end Functions

section Classes

theorem reads_dotted (d : Dotted) (hr : Text.Halts isIdentPart rest) (h : rest.head? ≠ some '.') :
    (ident ++ again (char '.' ++ ident)).Reads before d.text rest us us := by
  have hhalts : ∀ ns : List Ident,
      Text.Halts isIdentPart (Text.concat (ns.map fun n => '.' :: n.text) ++ rest) := by
    rintro (_ | ⟨n, ns⟩)
    · exact hr
    · exact Text.halts_cons.2 (by decide)
  refine (reads_ident d.head (hhalts d.tail)).append (reads_again (by simp) ?_ ?_ d.tail)
  · exact fun before n ns => Reads.append (s := ['.']) (reads_char '.') (reads_ident n (hhalts ns))
  · intro β before m k
    rw [run_append]
    exact run_char_eq_none h

theorem run_blanks_char_eq_none {β : Type} {m : Marks} {k : Cursor → Marks → Option β} {c d : Char}
    {u w : Text} (hd : Text.isBlank d = false) (hc : c ∉ u ++ [d]) :
    (blanks ++ char c).run ⟨before, u ++ d :: w⟩ m k = none := by
  refine Option.eq_none_iff_forall_ne_some.2 fun v hv => ?_
  rw [run_append] at hv
  obtain ⟨s, r, hr, hs, hv⟩ := run_many_eq_some hv
  obtain ⟨r, rfl, -⟩ := run_text_eq_some hv
  rcases List.append_eq_append_iff.1 hr with ⟨t, hs', ht⟩ | ⟨t, hu, ht⟩
  · cases t with
    | nil =>
      cases ht
      exact hc (by simp)
    | cons x t =>
      cases ht
      have hx := hs d (by simp [hs'])
      rw [hd] at hx
      cases hx
  · cases t with
    | nil =>
      cases ht
      exact hc (by simp)
    | cons x t =>
      cases ht
      exact hc (by simp [hu])

theorem reads_parent (c : ClassHead) (hr : Text.Halts Text.isBlank rest)
    (h : rest.head? ≠ Option.some '<') (h' : rest.head? ≠ Option.some 'e') :
    (optional (text "extends" ++ Pattern.some Text.isBlank
        ++ mark .parent (ident ++ again (char '.' ++ ident)) ++ blanks
        ++ typeArguments ['>', '{'])).Reads before c.parentPart rest us (c.parentMark ++ us) := by
  unfold ClassHead.parentPart ClassHead.parentMark
  split
  · rename_i d a _
    have hread : (text "extends" ++ Pattern.some Text.isBlank
        ++ mark .parent (ident ++ again (char '.' ++ ident))
        ++ (blanks ++ typeArguments ['>', '{'])).Reads before
        (("extends" : Text) ++ [' '] ++ d.text ++ (Arguments.text a ++ [' '])) rest us
        ((.parent, d.text) :: us) := by
      refine (((reads_text _).append (reads_gap ?_)).append ((reads_dotted d ?_ ?_).mark .parent)).append
        (reads_arguments a hr h)
      · rw [Dotted.text, List.append_assoc]
        exact d.head.halts_isBlank _
      · exact Arguments.halts (by decide) (by decide) a rest
      · exact (Arguments.halts (by decide) (by decide) a rest).head?_ne
    have htext : Text.concat ["extends", [' '], d.text, Arguments.text a, [' ']] =
        ("extends" : Text) ++ [' '] ++ d.text ++ (Arguments.text a ++ [' ']) := by simp
    rw [htext]
    exact Reads.optional (reads_append_assoc.2 hread)
  · refine reads_optional_nil fun m k => ?_
    rw [run_append, run_append, run_append, run_append]
    exact run_text_eq_none (x := 'e') rfl h'

theorem reads_interfaces (c : ClassHead) :
    (optional (text "implements" ++ Pattern.some Text.isBlank
        ++ mark .interfaces (one (· != '{') ++ few (· != '{')) ++ blanks) ++ char '{').Reads before
      (c.interfacePart ++ ['{']) rest us (c.interfaceMark ++ us) := by
  unfold ClassHead.interfacePart ClassHead.interfaceMark
  split
  · refine Reads.append (s := []) (reads_optional_nil fun m k => ?_) (reads_char '{')
    rw [run_append, run_append, run_append]
    exact run_text_eq_none (x := 'i') rfl (by simp)
  · rename_i t ts _
    obtain ⟨v, d, hlast, hd⟩ := t.getLast?_joinWith ts
    have hopen : '{' ∉ Text.joinWith ", " ((t :: ts).map TypeExpr.text) :=
      TypeExpr.not_mem_joinWith (by decide) (by decide) _
    have hblank : Text.Halts Text.isBlank (Text.joinWith ", " ((t :: ts).map TypeExpr.text)) :=
      Text.halts_joinWith t.ne_nil (by simpa using t.halts_isBlank []) _
    generalize Text.joinWith ", " ((t :: ts).map TypeExpr.text) = list at *
    obtain ⟨x, s, rfl⟩ : ∃ x s, list = x :: s := List.exists_cons_of_ne_nil (by simp [hlast])
    have hin : ∀ y ∈ x :: s, (y != '{') = true := by
      intro y hy
      simpa using fun hy' : y = '{' => hopen (hy' ▸ hy)
    have htext : Text.concat ["implements", [' '], x :: s, [' ']] ++ ['{'] =
        ("implements" : Text) ++ ([' '] ++ (x :: s ++ ([' '] ++ ['{']))) := by simp
    rw [htext]
    refine Reads.optional_append ?_
    simp only [reads_append_assoc]
    refine (reads_text _).append ((reads_gap (Text.halts_cons.2 (Text.halts_cons.1 hblank))).append ?_)
    refine reads_mark_few .interfaces (hin x (.head _)) (fun y hy => hin y (.tail _ hy)) ?_ ?_
    · intro u y w hu β m k
      have hend : (y :: w).getLast? = Option.some d := by
        have hends := congrArg List.getLast? hlast
        rwa [hu, ← List.cons_append, List.getLast?_append_cons, List.getLast?_concat] at hends
      obtain ⟨w', hw'⟩ := List.getLast?_eq_some_iff.1 hend
      have hmem : '{' ∉ w' ++ [d] := fun hm =>
        hopen (List.mem_cons_of_mem _ (hu ▸ List.mem_append_right u (hw' ▸ hm)))
      have hrest : y :: (w ++ ([' '] ++ ['{'] ++ rest)) = w' ++ d :: ([' '] ++ ['{'] ++ rest) := by
        rw [← List.cons_append, hw', List.append_assoc, List.singleton_append]
      rw [hrest]
      exact run_blanks_char_eq_none hd hmem
    · exact (reads_space (Text.halts_cons.2 (by decide))).append (reads_char '{')

theorem reads_class (c : ClassHead) (hb : Text.Halts Text.isWord before) :
    classPattern.Reads before (("class" : Text) ++ ([' '] ++ c.signature)) rest []
      (c.interfaceMark ++ (c.parentMark ++ [(.name, c.name.text)])) := by
  rw [c.signature_eq]
  simp only [classPattern, reads_append_assoc]
  refine Reads.append (s := []) (reads_wordStart (x := 'c') hb (by decide) rfl) ?_
  refine (reads_text _).append ?_
  refine .append (reads_gap ?_) ?_
  · rw [List.append_assoc]
    exact c.name.halts_isBlank _
  refine .append ((reads_ident c.name ?_).mark .name) ?_
  · rw [List.append_assoc]
    exact Arguments.halts (by decide) (by decide) c.arguments _
  refine reads_append_assoc.1 (.append (reads_arguments c.arguments ?_ ?_) ?_)
  · exact (c.begins_parentPart rest).halts (by decide)
  · exact (c.begins_parentPart rest).head?_ne (by decide)
  refine .append (reads_parent c ?_ ?_ ?_) (reads_interfaces c)
  · exact (c.begins_interfacePart rest).halts (by decide)
  · exact (c.begins_interfacePart rest).head?_ne (by decide)
  · exact (c.begins_interfacePart rest).head?_ne (by decide)

end Classes

end CodeAtlas.Script
