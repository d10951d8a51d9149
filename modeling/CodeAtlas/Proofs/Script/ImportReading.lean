import CodeAtlas.Proofs.Script.Elsewhere
import CodeAtlas.Proofs.Script.Imports
import CodeAtlas.Proofs.Script.Reading

set_option autoImplicit false

namespace CodeAtlas.Script

open Pattern

variable {before : List Char} {rest : Text} {us : List (Part × Text)}

theorem QuoteMark.not_unquoted (q : QuoteMark) : isUnquoted q.char = false := by
  cases q <;> decide

theorem QuoteMark.isBlank_char (q : QuoteMark) : Text.isBlank q.char = false := by
  cases q <;> decide

theorem reads_quoted (q : QuoteMark) (n : ModuleName) :
    quoted.Reads before (q.enclose n) rest us ((.source, n.text) :: us) := by
  have hq : (q.char == '\'' || q.char == '"') = true := by cases q <;> decide
  refine ((reads_one hq).append (.mark .source (reads_some n.ne_nil n.unquoted ?_))).append
    (reads_one hq)
  exact Text.halts_cons.2 q.not_unquoted

theorem ne_close_padded {ts : List Text} (h : ∀ t ∈ ts, ∀ c ∈ t, isListed c = true) :
    ∀ c ∈ padded ts, (c != '}') = true := by
  intro c hc
  simpa using fun hclose : c = '}' => absurd (hclose ▸ listed_padded h c hc) (by decide)

section Clauses

def typeWord : Pattern := optional (mark .typeOnly (text "type" ++ Pattern.some Text.isBlank))

def defaultPart : Pattern :=
  optional (mark .default ident ++ blanks ++ optionalThenBlanks (char ','))

def namedPart : Pattern := char '{' ++ mark .named (many (· != '}')) ++ char '}'

def starPart : Pattern :=
  char '*' ++ blanks ++ text "as" ++ Pattern.some Text.isBlank ++ mark .namespace ident

theorem importPattern_eq : importPattern = wordEdge ++ text "import" ++ Pattern.some Text.isBlank
    ++ typeWord ++ defaultPart ++ optional (either namedPart starPart) ++ blanks ++ text "from"
    ++ blanks ++ quoted := rfl

def typeMarks (isTypeOnly : Bool) : List (Part × Text) :=
  if isTypeOnly then [(.typeOnly, "type ")] else []

def Others.marks : Others → List (Part × Text)
  | named items => [(.named, padded (items.map NamedItem.text))]
  | star n => [(.namespace, n.text)]

def Clause.marks : Clause → List (Part × Text)
  | default d => [(.default, d.text)]
  | others o => o.marks
  | both d o => o.marks ++ [(.default, d.text)]

theorem reads_typeWord (isTypeOnly : Bool) (hr : Text.Halts Text.isBlank rest)
    (h : isTypeOnly = false → ∀ r, rest = ("type" : Text) ++ r → Text.Halts Text.isBlank r) :
    typeWord.Reads before (word isTypeOnly "type") rest us (typeMarks isTypeOnly ++ us) := by
  cases isTypeOnly with
  | true => exact (((reads_text _).append (reads_gap hr)).mark .typeOnly).optional
  | false =>
    refine reads_optional_nil fun m k => Option.eq_none_iff_forall_ne_some.2 fun v hv => ?_
    rw [run_mark, run_append] at hv
    obtain ⟨r, hr, hv⟩ := run_text_eq_some hv
    obtain ⟨g, r, hne, rfl, hblanks, -⟩ := run_some_eq_some hv
    obtain ⟨x, g, rfl⟩ := List.exists_cons_of_ne_nil hne
    have hx := hblanks x (.head _)
    rw [h rfl _ hr x rfl] at hx
    cases hx

/-- Without a default called `type` a clause does not begin with that word and white space. -/
theorem Clause.halts_isBlank_of_type (c : Clause)
    (hc : (ImportForm.clause false c).isAmbiguous = false) (rest r : Text)
    (h : c.text ++ ' ' :: rest = ("type" : Text) ++ r) : Text.Halts Text.isBlank r := by
  have hdefault : ∀ (d : Ident) (z : Char) (u : Text), isIdentPart z = false →
      (Text.isBlank z = true → d.text ≠ "type") → d.text ++ z :: u = ("type" : Text) ++ r →
        Text.Halts Text.isBlank r := by
    intro d z u hz hne hcut x hx
    obtain ⟨r, rfl⟩ := List.head?_eq_some_iff.1 hx
    cases hblank : Text.isBlank x with
    | false => rfl
    | true =>
      obtain ⟨hd, hrest⟩ := Text.append_inj_of_halts (fun _ => d.isIdentPart) (by decide)
        (Text.halts_cons.2 hz) (Text.halts_cons.2 (isIdentPart_of_isBlank hblank)) hcut
      exact absurd hd (hne ((List.cons.inj hrest).1 ▸ hblank))
  cases c with
  | default d =>
    exact hdefault d ' ' rest (by decide) (fun _ => by simpa [ImportForm.isAmbiguous] using hc) h
  | others o => cases o <;> simp [Clause.text, Others.text, braced] at h
  | both d o =>
    have hcomma : Text.isBlank ',' = true → d.text ≠ "type" := fun h => absurd h (by decide)
    refine hdefault d ',' (' ' :: (o.text ++ ' ' :: rest)) (by decide) hcomma ?_
    simpa [Clause.text] using h

theorem reads_others (o : Others) :
    (optional (either namedPart starPart) ++ blanks).Reads before (o.text ++ [' ']) ('f' :: rest) us
      (o.marks ++ us) := by
  refine .append ?_ (reads_space (Text.halts_cons.2 (by decide)))
  cases o with
  | named items =>
    have hlisted : ∀ t ∈ items.map NamedItem.text, ∀ c ∈ t, isListed c = true :=
      List.forall_mem_map.2 fun i _ => i.listed
    have hread : namedPart.Reads before (['{'] ++ padded (items.map NamedItem.text) ++ ['}'])
        ([' '] ++ 'f' :: rest) us ((.named, padded (items.map NamedItem.text)) :: us) :=
      ((reads_char '{').append ((reads_many (ne_close_padded hlisted)
        (Text.halts_cons.2 (by decide))).mark .named)).append (reads_char '}')
    simpa [Others.text, Others.marks, braced] using hread.either.optional
  | star n =>
    have hread : starPart.Reads before (['*'] ++ [' '] ++ "as" ++ [' '] ++ n.text)
        ([' '] ++ 'f' :: rest) us ((.namespace, n.text) :: us) := by
      refine ((((reads_char '*').append (reads_space (Text.halts_cons.2 (by decide)))).append
        (reads_text _)).append (reads_gap ?_)).append ((reads_ident n ?_).mark .namespace)
      · exact n.halts_isBlank _
      · exact Text.halts_cons.2 (by decide)
    refine Reads.optional (Reads.either_right (by simpa [Others.text, Others.marks] using hread) ?_)
    intro β m k
    rw [namedPart, run_append, run_append]
    exact run_char_eq_none (by simp [Others.text])

theorem reads_others_nil :
    (optional (either namedPart starPart) ++ blanks).Reads before [] ('f' :: rest) us us := by
  refine .append (t := []) (reads_optional_nil fun m k => ?_)
    (reads_blanks_nil (Text.halts_cons.2 (by decide)))
  have hnamed : namedPart.run ⟨before, 'f' :: rest⟩ m k = none := by
    rw [namedPart, run_append, run_append]
    exact run_char_eq_none (by simp)
  have hstar : starPart.run ⟨before, 'f' :: rest⟩ m k = none := by
    rw [starPart, run_append, run_append, run_append, run_append]
    exact run_char_eq_none (by simp)
  rw [List.nil_append, run_either, hnamed, hstar]
  rfl

theorem Others.begins (o : Others) (t : Text) : Begins ['{', '*'] (o.text ++ t) := by
  cases o with
  | named items => exact ⟨'{', rfl, by decide⟩
  | star n => exact ⟨'*', rfl, by decide⟩

theorem reads_clause (c : Clause) :
    (defaultPart ++ optional (either namedPart starPart) ++ blanks).Reads before (c.text ++ [' '])
      ('f' :: rest) us (c.marks ++ us) := by
  refine reads_append_assoc.2 ?_
  cases c with
  | default d =>
    have hread : defaultPart.Reads before (d.text ++ [' '] ++ []) ('f' :: rest) us
        ((.default, d.text) :: us) := by
      refine .optional (.append (.append ((reads_ident d ?_).mark .default) (reads_space ?_)) ?_)
      · exact Text.halts_cons.2 (by decide)
      · exact Text.halts_cons.2 (by decide)
      · refine reads_optional_nil fun m k => ?_
        rw [run_append]
        exact run_char_eq_none (by simp)
    simpa [Clause.text, Clause.marks] using hread.append reads_others_nil
  | others o =>
    refine Reads.append (s := []) (reads_optional_nil fun m k => ?_) (reads_others o)
    have hshuns : Shuns ['{', '*']
        (mark .default ident ++ (blanks ++ optionalThenBlanks (char ','))) :=
      shuns_ident (by decide) _
    obtain ⟨x, hx, hstart⟩ := o.begins ([' '] ++ 'f' :: rest)
    exact hshuns _ _ m k x (by simpa [Clause.text] using hx) hstart
  | both d o =>
    have hread : defaultPart.Reads before (d.text ++ [] ++ ([','] ++ [' ']))
        (o.text ++ [' '] ++ 'f' :: rest) us ((.default, d.text) :: us) := by
      refine .optional
        (.append (.append ((reads_ident d ?_).mark .default) (reads_blanks_nil ?_)) ?_)
      · exact Text.halts_cons.2 (by decide)
      · exact Text.halts_cons.2 (by decide)
      · refine Reads.optional ((reads_char ',').append (reads_space ?_))
        rw [List.append_assoc]
        exact (o.begins _).halts (by decide)
    simpa [Clause.text, Clause.marks] using hread.append (reads_others o)

theorem Clause.halts_isBlank (c : Clause) (t : Text) : Text.Halts Text.isBlank (c.text ++ t) := by
  cases c with
  | default d => exact d.halts_isBlank t
  | others o => exact (o.begins t).halts (by decide)
  | both d o =>
    rw [Clause.text, List.append_assoc]
    exact d.halts_isBlank _

theorem reads_clauseImport (isTypeOnly : Bool) (c : Clause) (q : QuoteMark) (n : ModuleName)
    (h : (ImportForm.clause isTypeOnly c).isAmbiguous = false)
    (hb : Text.Halts Text.isWord before) :
    importPattern.Reads before ((ImportForm.clause isTypeOnly c).head ++ q.enclose n) rest []
      ((.source, n.text) :: (c.marks ++ typeMarks isTypeOnly)) := by
  have htext : (ImportForm.clause isTypeOnly c).head ++ q.enclose n =
      [] ++ (("import" : Text) ++ ([' '] ++ (word isTypeOnly "type" ++ ((c.text ++ [' '])
        ++ (("from" : Text) ++ ([' '] ++ q.enclose n)))))) := by
    simp
  rw [htext, ← List.append_nil (typeMarks isTypeOnly)]
  simp only [importPattern_eq, reads_append_assoc]
  refine .append (reads_wordStart (x := 'i') hb (by decide) rfl) (.append (reads_text _) ?_)
  refine .append (reads_gap ?_) (.append (reads_typeWord isTypeOnly ?_ fun hplain r hr => ?_) ?_)
  · cases isTypeOnly with
    | true => exact Text.halts_cons.2 (by decide)
    | false =>
      rw [List.append_assoc, List.append_assoc, List.append_assoc]
      exact c.halts_isBlank _
  · rw [List.append_assoc, List.append_assoc]
    exact c.halts_isBlank _
  · subst hplain
    exact c.halts_isBlank_of_type h (("from" : Text) ++ ([' '] ++ q.enclose n) ++ rest) r
      (by simpa using hr)
  refine reads_append_assoc.1 (reads_append_assoc.1 (.append (reads_clause c) ?_))
  refine .append (reads_text _) (.append (reads_space ?_) (reads_quoted q n))
  exact Text.halts_cons.2 q.isBlank_char

theorem importOf_eq {m : Match} {isTypeOnly : Bool} {c : Clause} {source : Text}
    (htexts : m.marks.texts = (.source, source) :: (c.marks ++ typeMarks isTypeOnly)) :
    importOf m = { source, names := c.names, isTypeOnly } := by
  have hnamed : ∀ (ds : List Text) (items : List NamedItem),
      ImportRecord.mk source (ds ++ splitNames (padded (items.map NamedItem.text))) isTypeOnly =
        { source, names := ds ++ items.map NamedItem.text, isTypeOnly } := fun ds items =>
    congrArg (fun names => ImportRecord.mk source (ds ++ names) isTypeOnly)
      (splitNames_padded items)
  simp only [importOf, m.part?_eq_lookup, m.part_eq, m.has_eq, htexts]
  cases c with
  | default d => cases isTypeOnly <;> rfl
  | others o =>
    cases o with
    | named items => cases isTypeOnly <;> exact hnamed [] items
    | star n => cases isTypeOnly <;> rfl
  | both d o =>
    cases o with
    | named items => cases isTypeOnly <;> exact hnamed [d.text] items
    | star n => cases isTypeOnly <;> rfl

end Clauses

section Bindings

theorem reads_bareImport (q : QuoteMark) (n : ModuleName) (hb : Text.Halts Text.isWord before) :
    bareImportPattern.Reads before (ImportForm.bare.head ++ q.enclose n) rest []
      [(.source, n.text)] := by
  have htext : ImportForm.bare.head ++ q.enclose n =
      [] ++ (("import" : Text) ++ ([' '] ++ q.enclose n)) := by
    simp
  rw [htext]
  simp only [bareImportPattern, reads_append_assoc]
  refine .append (reads_wordStart (x := 'i') hb (by decide) rfl) (.append (reads_text _) ?_)
  refine .append (reads_space ?_) (reads_quoted q n)
  exact Text.halts_cons.2 q.isBlank_char

theorem Binding.halts_isBlank (b : Binding) (t : Text) : Text.Halts Text.isBlank (b.text ++ t) := by
  cases b with
  | whole d => exact d.halts_isBlank t
  | parts ns => exact Text.halts_cons.2 (by decide)

theorem reads_target (b : Binding) :
    (mark .binding (either ident (char '{' ++ many (· != '}') ++ char '}'))).Reads before b.text
      (' ' :: rest) us ((.binding, b.text) :: us) := by
  refine Reads.mark .binding ?_
  cases b with
  | whole d => exact (reads_ident d (Text.halts_cons.2 (by decide))).either
  | parts ns =>
    have hlisted : ∀ t ∈ ns.map Name.text, ∀ c ∈ t, isListed c = true :=
      List.forall_mem_map.2 fun n _ => n.listed
    have hread : (char '{' ++ many (· != '}') ++ char '}').Reads before
        (['{'] ++ padded (ns.map Name.text) ++ ['}']) (' ' :: rest) us us :=
      ((reads_char '{').append (reads_many (ne_close_padded hlisted)
        (Text.halts_cons.2 (by decide)))).append (reads_char '}')
    refine Reads.either_right (by simpa [Binding.text, braced] using hread) fun m k => ?_
    rw [ident, run_append]
    rfl

theorem reads_require (b : Binding) (q : QuoteMark) (n : ModuleName)
    (hb : Text.Halts Text.isWord before) :
    requirePattern.Reads before
      ((ImportForm.require b).head ++ q.enclose n ++ [')']) rest []
      [(.source, n.text), (.binding, b.text)] := by
  have htext : (ImportForm.require b).head ++ q.enclose n ++ [')'] =
      [] ++ (("const" : Text) ++ ([' '] ++ (b.text ++ ([' '] ++ (['='] ++ ([' '] ++
        (("require(" : Text) ++ ([] ++ (q.enclose n ++ ([] ++ [')'])))))))))) := by
    simp
  rw [htext]
  simp only [requirePattern, reads_append_assoc]
  refine .append (reads_wordStart (x := 'c') hb (by decide) rfl) (.append (reads_text _).either ?_)
  refine .append (reads_gap ?_) (.append (reads_target b) ?_)
  · rw [List.append_assoc]
    exact b.halts_isBlank _
  refine .append (reads_space (Text.halts_cons.2 (by decide))) (.append (reads_char '=') ?_)
  refine .append (reads_space (Text.halts_cons.2 (by decide))) (.append (reads_text _) ?_)
  refine .append (reads_blanks_nil (Text.halts_cons.2 q.isBlank_char)) ?_
  refine .append (reads_quoted q n) ?_
  exact .append (reads_blanks_nil (Text.halts_cons.2 (by decide))) (reads_char ')')

theorem requireOf_eq {m : Match} {b : Binding} {source : Text}
    (htexts : m.marks.texts = [(.source, source), (.binding, b.text)]) :
    requireOf m = { source, names := b.names } := by
  have hsource : m.part .source = source := by rw [m.part_eq, htexts]; rfl
  have hbinding : m.part .binding = b.text := by rw [m.part_eq, htexts]; rfl
  rw [requireOf, hsource, hbinding]
  cases b with
  | whole d =>
    have hopen : ¬ Text.startsWith d.text ['{'] = true := by
      rw [Text.startsWith_iff]
      rintro ⟨u, hu⟩
      exact d.not_mem (d := '{') (by decide) (hu ▸ .head _)
    have hnames : (if Text.startsWith d.text ['{'] = true then
        splitNames (Text.trim isEnclosing d.text) else [d.text]) = [d.text] := if_neg hopen
    exact congrArg (ImportRecord.mk source · false) hnames
  | parts ns =>
    have hnames := splitNames_trim_braced ns
    exact congrArg (ImportRecord.mk source · false) hnames

end Bindings

end CodeAtlas.Script
