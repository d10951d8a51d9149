import CodeAtlas.Proofs.Script.ModuleNames
import CodeAtlas.Proofs.Script.Scan
import CodeAtlas.Proofs.Source.Order

/-!
The scan of a file finds each of its imports once, in order. A statement is read by the pattern of
its form, and the other patterns find nothing in it, unless the name of the module contains a word
with which one of them begins.
-/

set_option autoImplicit false

namespace CodeAtlas.Script

open Pattern

variable {before : List Char} {rest : Text} {a b : Pattern}

theorem importPattern_opens : importPattern.Opens ["import"] := opens_openers _

theorem bareImportPattern_opens : bareImportPattern.Opens ["import"] := opens_openers _

theorem requirePattern_opens : requirePattern.Opens ["const", "let", "var"] := opens_openers _

/-! Before the name of a module. -/

section Heads

variable (q : QuoteMark)

theorem shuns_quoted {s : Text} (hs : ∀ c ∈ s, isUnquoted c = true) : Shuns s quoted := by
  intro β c m k d hd hmem
  refine Option.eq_none_iff_forall_ne_some.2 fun v hv => ?_
  rw [quoted, run_append, run_append, quote] at hv
  obtain ⟨x, r, hx, hquote, -⟩ := run_one_eq_some hv
  rw [hx] at hd
  have hnot := isQuotation_of_isUnquoted (hs d hmem)
  rw [← Option.some.inj hd, isQuotation, hquote] at hnot
  cases hnot

def clauseStops : List Char := ['=', '}', '\'', '"']

theorem shuns_clause : Shuns clauseStops (typeWord ++ (defaultPart
    ++ (optional (either namedPart starPart)
      ++ (blanks ++ (text "from" ++ (blanks ++ quoted)))))) := by
  have htype : Shuns clauseStops (mark .typeOnly (text "type" ++ Pattern.some Text.isBlank)) :=
    ((among_text _).shuns (by decide)).mark
  have hdefault : Shuns clauseStops
      (mark .default ident ++ (blanks ++ optionalThenBlanks (char ','))) :=
    shuns_ident (by decide) _
  have hnamed : Shuns clauseStops namedPart := by
    have hopen : Shuns clauseStops (char '{' ++ mark .named (many (· != '}'))) :=
      (among_text _).shuns (by decide)
    exact hopen.append _
  have hstar : Shuns clauseStops starPart := by
    have hopen : Shuns clauseStops (char '*' ++ blanks) := (among_text _).shuns (by decide)
    exact ((hopen.append _).append _).append _
  have hfrom : Shuns clauseStops (text "from" ++ (blanks ++ quoted)) :=
    (among_text _).shuns (by decide)
  exact htype.optional_append (hdefault.optional_append
    ((hnamed.either hstar).optional_append (hfrom.blanks_append (by decide))))

/-- Up to a sign nothing is found that a quotation mark should follow. -/
theorem idle_bare_of_unquoted {s : Text} {z : Char} (hs : ∀ c ∈ s ++ [z], isUnquoted c = true)
    (hz : z ∉ ("import" : Text) ∧ Text.isBlank z = false) :
    bareImportPattern.Idle before (s ++ [z]) rest := by
  have hwithin : (wordEdge ++ text "import" ++ blanks).Within (Text.noneOf [z]) :=
    ⟨⟨trivial, within_text (by simpa using hz.1)⟩, within_blanks (by simpa using hz.2)⟩
  exact idle_of_within hwithin List.getLast?_concat (shuns_quoted hs)

theorem unquoted_of_unsigned {s : Text} (hs : ∀ c ∈ s, isUnsigned c = true) :
    ∀ c ∈ s, isUnquoted c = true :=
  fun c hc => Text.noneOf_of_class (p := isUnsigned) (by decide) c (hs c hc)

/-- Behind a word that binds a variable and white space comes no target of an assignment: either a
letter from which no equality sign is reached, or a closing bracket. -/
theorem shunsIn_target {s : Text} (hs : ∀ c ∈ s, c ≠ '=')
    (hlast : s.getLast? = Option.some q.char) : ShunsIn ['f', 'a', '}'] s rest
      (mark .binding (either ident (char '{' ++ many (· != '}') ++ char '}'))
        ++ (blanks ++ (char '=' ++ b))) := by
  intro β before d u m k hsuffix hstart
  have hmem : q.char ∈ d :: u := by
    obtain ⟨t, rfl⟩ := hsuffix
    rw [List.getLast?_append_cons] at hlast
    exact List.mem_of_getLast? hlast
  have hwithin : (mark .binding ident ++ blanks).Within isUnquoted :=
    ⟨within_identifier (by decide), within_blanks (by decide)⟩
  have hident : (mark .binding ident ++ blanks).run ⟨before, d :: u ++ rest⟩ m
      (fun c m => (char '=' ++ b).run c m k) = none := by
    refine run_eq_none_of_within hwithin ⟨q.char, hmem, q.not_unquoted⟩ fun b' y r m' hy => ?_
    rw [run_append]
    exact run_char_eq_none (by simpa using hs y (hsuffix.mem hy))
  have hbrace : d ≠ '{' := fun h => absurd (h ▸ hstart) (by decide)
  refine Option.eq_none_iff_forall_ne_some.2 fun v hv => ?_
  rw [run_append, run_mark] at hv
  rcases run_either_eq_some hv with hv | hv
  · exact absurd (hv.symm.trans hident) (by simp)
  · rw [run_append, run_append, run_char_eq_none (by simpa using hbrace)] at hv
    cases hv

namespace ImportForm

theorem idle_clause_head (f : ImportForm) (hf : ∀ t c, f ≠ clause t c) :
    importPattern.Idle before (f.head ++ [q.char]) rest := by
  have hquote : ∀ q : QuoteMark, q.char ∈ clauseStops ∧
      Text.avoids ["import"] (("mport " : Text) ++ [q.char]) = true ∧
      Text.avoids ["import"] ((" require(" : Text) ++ [q.char]) = true := by
    rintro (_ | _) <;> decide
  obtain ⟨hmem, hbare, hrequire⟩ := hquote q
  cases f with
  | clause t c => exact absurd rfl (hf t c)
  | bare =>
    have hnone :
        importPattern.first? ⟨before, ("import" : Text) ++ ' ' :: (q.char :: rest)⟩ = none := by
      refine Option.eq_none_iff_forall_ne_some.2 fun m hm => ?_
      simp only [importPattern_eq, first?, run_append] at hm
      obtain ⟨_, hm⟩ := run_wordEdge_eq_some hm
      rw [run_text_append, run_some_cons (by decide) (Text.halts_cons.2 q.isBlank_char)] at hm
      exact absurd (hm.symm.trans (shuns_clause _ _ _ _ q.char rfl hmem)) (by simp)
    exact ⟨hnone, importPattern_opens.idle hbare⟩
  | require b =>
    have htext : (require b).head ++ [q.char] =
        ("const " : Text) ++ ((b.text ++ [' ', '=']) ++ ((" require(" : Text) ++ [q.char])) := by
      simp
    rw [htext]
    refine idle_append.2 ⟨importPattern_opens.idle (by decide), idle_append.2
      ⟨?_, importPattern_opens.idle hrequire⟩⟩
    have hend : Clear endsKeyword clauseStops [' ', '='] := clear_cons_of_sign (by decide) trivial
    have hclear := b.clear (by decide) (.inr ⟨_, rfl, begins_cons (by decide)⟩) hend
    simp only [importPattern_eq, idle_append_assoc]
    exact idle_of_clear (z := '=') (among_text _) (shuns_clause.inside _ _) (by decide) hclear
      (by simp) (by decide) (by decide)

theorem idle_bare_head (f : ImportForm) (hf : f ≠ bare) :
    bareImportPattern.Idle before (f.head ++ [q.char]) rest := by
  have hquote : ∀ q : QuoteMark, Text.avoids ["import"] (("rom " : Text) ++ [q.char]) = true ∧
      Text.avoids ["import"] ((" require(" : Text) ++ [q.char]) = true := by
    rintro (_ | _) <;> decide
  obtain ⟨hclause, hrequire⟩ := hquote q
  cases f with
  | clause t c =>
    have htext : (clause t c).head ++ [q.char] = ((("import " : Text) ++ word t "type")
        ++ (c.text ++ [' ']) ++ ['f']) ++ (("rom " : Text) ++ [q.char]) := by
      simp
    have hword : ∀ t : Bool, ∀ d ∈ ("import " : Text) ++ word t "type", isUnquoted d = true := by
      decide
    rw [htext]
    refine idle_append.2 ⟨?_, bareImportPattern_opens.idle hclause⟩
    refine idle_bare_of_unquoted (List.forall_mem_append.2 ⟨List.forall_mem_append.2 ⟨hword t, ?_⟩,
      by decide⟩) (by decide)
    exact List.forall_mem_append.2 ⟨unquoted_of_unsigned c.unsigned, by decide⟩
  | bare => exact absurd rfl hf
  | require b =>
    have htext : (require b).head ++ [q.char] = (("const " : Text) ++ (b.text ++ [' '])
        ++ ['=']) ++ ((" require(" : Text) ++ [q.char]) := by
      simp
    have hword : ∀ d ∈ ("const " : Text), isUnquoted d = true := by decide
    rw [htext]
    refine idle_append.2 ⟨?_, bareImportPattern_opens.idle hrequire⟩
    refine idle_bare_of_unquoted (List.forall_mem_append.2 ⟨List.forall_mem_append.2 ⟨hword, ?_⟩,
      by decide⟩) (by decide)
    exact List.forall_mem_append.2 ⟨unquoted_of_unsigned b.unsigned, by decide⟩

theorem idle_require_head (f : ImportForm) (hf : ∀ b, f ≠ require b) :
    requirePattern.Idle before (f.head ++ [q.char]) rest := by
  cases f with
  | clause t c =>
    have htext : (clause t c).head ++ [q.char] =
        (("import " : Text) ++ word t "type") ++ (c.text ++ ((" from " : Text) ++ [q.char])) := by
      simp
    have hword : ∀ t : Bool,
        Text.avoids ["const", "let", "var"] (("import " : Text) ++ word t "type") = true := by
      decide
    have hbinder : ∀ q : QuoteMark, ∀ w ∈ [("const" : Text), "let", "var"],
        w.getLast?.any endsKeyword = true ∧ q.char ∉ w := by
      rintro (_ | _) <;> decide
    have hequals : ∀ d ∈ c.text ++ ((" from " : Text) ++ [q.char]), d ≠ '=' := by
      have hfrom : ∀ q : QuoteMark, ∀ d ∈ (" from " : Text) ++ [q.char], d ≠ '=' := by
        rintro (_ | _) <;> decide
      exact List.forall_mem_append.2
        ⟨fun d hd h => absurd (h ▸ c.unsigned d hd) (by decide), hfrom q⟩
    have hend : Clear endsKeyword ['f', 'a', '}'] ((" from " : Text) ++ [q.char]) := by
      have hm : Clear endsKeyword ['f', 'a', '}'] ['o', 'm', ' ', q.char] :=
        clear_cons_of_sign (by decide)
          (clear_cons_of_sign (by decide) (clear_cons_of_sign (by decide) trivial))
      have hr := Follows.clear_cons (.inl (Text.halts_cons.2 (by decide))) hm 'r'
      exact clear_cons_of_sign (by decide) (clear_cons_of_sign (by decide) hr)
    have hclear := c.clear (by decide) (by decide) (.inr ⟨_, rfl, begins_cons (by decide)⟩) hend
    rw [htext]
    refine idle_append.2 ⟨requirePattern_opens.idle (hword t), ?_⟩
    simp only [requirePattern, idle_append_assoc]
    exact idle_of_clear among_binder (shunsIn_target q hequals (by simp)) (hbinder q) hclear
      (by simp) q.isBlank_char (by decide)
  | bare =>
    have hquote : ∀ q : QuoteMark,
        Text.avoids ["const", "let", "var"] (("import " : Text) ++ [q.char]) = true := by
      rintro (_ | _) <;> decide
    exact requirePattern_opens.idle (hquote q)
  | require b => exact absurd rfl (hf b)

end ImportForm

end Heads

namespace ImportStatement

variable (s : ImportStatement)

def ending : Text := s.form.tail ++ (terminator s.isClosed ++ ['\n'])

def keywords : List Text := ["import", "const", "let", "var"]

theorem ending_spec : Text.avoids keywords (s.mark.char :: s.ending) = true ∧
    Text.avoids keywords s.ending = true ∧ ∀ c ∈ s.ending, isUnquoted c = true := by
  have hspec : ∀ (q : QuoteMark) (isClosed : Bool), ∀ t ∈ [[], [')']],
      let ending := t ++ (terminator isClosed ++ ['\n'])
      Text.avoids keywords (q.char :: ending) = true ∧ Text.avoids keywords ending = true ∧
        ∀ c ∈ ending, isUnquoted c = true := by
    rintro (_ | _) (_ | _) <;> decide
  obtain ⟨form, mark, source, isClosed⟩ := s
  cases form <;> exact hspec _ _ _ (by simp [ImportForm.tail])

theorem block_eq : s.text ++ ['\n'] = (s.form.head ++ s.mark.enclose s.source) ++ s.ending := by
  simp [text, ending]

theorem block_eq_source : s.text ++ ['\n'] =
    (s.form.head ++ [s.mark.char]) ++ (s.source.text ++ s.mark.char :: s.ending) := by
  simp [text, QuoteMark.enclose, ending]

section Absence

variable {s}

/-- A pattern of another form finds nothing in a statement: nothing before the name of the module,
nothing in it unless the name holds a word of the pattern and another quotation mark follows, and
nothing behind it. -/
theorem idle_of_head {ws : List Text} (ha : a.Opens ws) (hws : ws ⊆ keywords)
    (hneeds : NeedsQuotation a) (hhead : ∀ rest, a.Idle before (s.form.head ++ [s.mark.char]) rest)
    (hsource : s.isContained = true → ∀ before rest, before.head?.any Text.isWord = false →
      a.Idle before s.source.text (s.mark.char :: rest))
    (hrest : s.isContained = true ∨ ∀ c ∈ rest, isUnquoted c = true) :
    a.Idle before (s.text ++ ['\n']) rest := by
  obtain ⟨havoids, -, hending⟩ := s.ending_spec
  have hmark : Text.isWord s.mark.char = false := by cases s.mark <;> decide
  rw [block_eq_source]
  refine idle_append.2 ⟨hhead _, idle_append.2 ⟨?_, ha.idle (Text.avoids_of_subset hws havoids)⟩⟩
  rcases hrest with hcontained | hrest
  · exact hsource hcontained _ _ (by simpa using hmark)
  · exact hneeds.idle s.source.unquoted (List.forall_mem_append.2 ⟨hending, hrest⟩)

variable (hrest : s.isContained = true ∨ ∀ c ∈ rest, isUnquoted c = true)
include hrest

theorem idle_clause (hf : ∀ t c, s.form ≠ .clause t c) :
    importPattern.Idle before (s.text ++ ['\n']) rest := by
  refine idle_of_head importPattern_opens (by decide) needsQuotation_importPattern
    (fun _ => s.form.idle_clause_head _ hf) (fun hcontained before rest hb => ?_) hrest
  refine idle_clause_of_opensClause s.source s.mark.not_unquoted hb ?_
  unfold isContained at hcontained
  split at hcontained <;> simp_all

theorem idle_bare (hf : s.form ≠ .bare) :
    bareImportPattern.Idle before (s.text ++ ['\n']) rest := by
  refine idle_of_head bareImportPattern_opens (by decide) needsQuotation_bareImportPattern
    (fun _ => s.form.idle_bare_head _ hf) (fun hcontained before rest hb => ?_) hrest
  refine idle_bare_of_opensBare s.source s.mark.not_unquoted hb ?_
  unfold isContained at hcontained
  split at hcontained <;> simp_all

theorem idle_require (hf : ∀ b, s.form ≠ .require b) :
    requirePattern.Idle before (s.text ++ ['\n']) rest := by
  refine idle_of_head requirePattern_opens (by decide) needsQuotation_requirePattern
    (fun _ => s.form.idle_require_head _ hf) (fun hcontained before rest hb => ?_) hrest
  refine idle_require_of_opensRequire s.source s.mark.not_unquoted hb ?_
  unfold isContained at hcontained
  split at hcontained <;> simp_all

end Absence

section Presence

def clauseImports (s : ImportStatement) : List ImportRecord :=
  match s.form with
  | .clause _ _ => [s.declared]
  | _ => []

def bareImports (s : ImportStatement) : List ImportRecord :=
  match s.form with
  | .bare => [s.declared]
  | _ => []

def requireImports (s : ImportStatement) : List ImportRecord :=
  match s.form with
  | .require _ => [s.declared]
  | _ => []

theorem flatMap_imports :
    [clauseImports, bareImports, requireImports].flatMap (fun find => find s) = [s.declared] := by
  obtain ⟨form, _, _, _⟩ := s
  cases form <;> rfl

variable {s} {ws : List Text} {l r : Text} {texts : List (Part × Text)}
variable {record : Match → ImportRecord}

/-- What a pattern reads at the beginning of a line is the record of the line, if nothing is found
behind it. -/
theorem yields_of_reads (ha : a.Opens ws) (hr : Text.avoids ws r = true) (hl : l ≠ [])
    (hread : a.Reads before l (r ++ rest) [] texts) {x : ImportRecord}
    (hx : ∀ m : Match, m.marks.texts = texts → record m = x) :
    a.Yields (fun m => [placed record m]) before (l ++ r) rest [(before.length, x)] := by
  have hyields : a.Yields (fun m => [placed record m]) before l (r ++ rest)
      [(before.length, x)] := by
    refine hread.yields hl fun m hfirst htexts => ?_
    rw [placed, hx m htexts, Match.position, hfirst]
    rfl
  simpa using hyields.append (yields_of_idle (ha.idle hr))

variable (hrest : s.isContained = true ∨ ∀ c ∈ rest, isUnquoted c = true)
  (hb : (Cursor.mk before []).atLineStart = true)
include hrest hb

theorem yields_clause (hplain : s.form.isAmbiguous = false) :
    importPattern.Yields (fun m => [placed importOf m]) before (s.text ++ ['\n']) rest
      (placedAt clauseImports (before.length, s)) := by
  have hstart : Text.Halts Text.isWord before := Cursor.halts_isWord_append hb (t := []) rfl
  have hending : Text.avoids ["import"] s.ending = true :=
    Text.avoids_of_subset (by decide) s.ending_spec.2.1
  obtain ⟨form, q, n, isClosed⟩ := s
  cases form with
  | clause t c =>
    rw [block_eq]
    exact yields_of_reads importPattern_opens hending (by simp [QuoteMark.enclose])
      (reads_clauseImport t c q n hplain hstart) fun _ => importOf_eq
  | bare => exact yields_of_idle (idle_clause hrest (by simp))
  | require b => exact yields_of_idle (idle_clause hrest (by simp))

theorem yields_bare :
    bareImportPattern.Yields (fun m => [placed bareImportOf m]) before (s.text ++ ['\n']) rest
      (placedAt bareImports (before.length, s)) := by
  have hstart : Text.Halts Text.isWord before := Cursor.halts_isWord_append hb (t := []) rfl
  have hending : Text.avoids ["import"] s.ending = true :=
    Text.avoids_of_subset (by decide) s.ending_spec.2.1
  obtain ⟨form, q, n, isClosed⟩ := s
  cases form with
  | bare =>
    rw [block_eq]
    refine yields_of_reads bareImportPattern_opens hending (by simp [QuoteMark.enclose])
      (reads_bareImport q n hstart) fun m htexts => ?_
    rw [bareImportOf, m.part_eq, htexts]
    rfl
  | clause t c => exact yields_of_idle (idle_bare hrest (by simp))
  | require b => exact yields_of_idle (idle_bare hrest (by simp))

theorem yields_require :
    requirePattern.Yields (fun m => [placed requireOf m]) before (s.text ++ ['\n']) rest
      (placedAt requireImports (before.length, s)) := by
  have hstart : Text.Halts Text.isWord before := Cursor.halts_isWord_append hb (t := []) rfl
  obtain ⟨form, q, n, isClosed⟩ := s
  cases form with
  | require b =>
    -- The bracket behind the name of the module belongs to the reading.
    have hending : Text.avoids ["const", "let", "var"] (terminator isClosed ++ ['\n']) = true := by
      cases isClosed <;> decide
    have htext : (mk (.require b) q n isClosed).text ++ ['\n'] =
        ((ImportForm.require b).head ++ q.enclose n ++ [')'])
          ++ (terminator isClosed ++ ['\n']) := by
      simp [text, ImportForm.tail]
    rw [htext]
    exact yields_of_reads requirePattern_opens hending (by simp) (reads_require b q n hstart)
      fun _ => requireOf_eq
  | clause t c => exact yields_of_idle (idle_require hrest (by simp))
  | bare => exact yields_of_idle (idle_require hrest (by simp))

end Presence

end ImportStatement

section Files

variable {ss : List ImportStatement}

/-- Of the names of modules only those count that another import follows. -/
theorem contained_or_unquoted (h : ∀ s ∈ ss.dropLast, s.isContained = true) {s : ImportStatement}
    {ts : List ImportStatement} (hs : s :: ts <:+ ss) :
    s.isContained = true ∨ ∀ c ∈ blocks ImportStatement.text ts, isUnquoted c = true := by
  cases ts with
  | nil => exact .inr (by simp [blocks])
  | cons t ts =>
    obtain ⟨us, rfl⟩ := hs
    exact .inl (h s (by simp))

theorem imports_eq_map_declared (hplain : ∀ s ∈ ss, s.form.isAmbiguous = false)
    (hcontained : ∀ s ∈ ss.dropLast, s.isContained = true) :
    imports (importsText ss) = ss.map ImportStatement.declared := by
  have hstart : (Cursor.mk [] []).atLineStart = true := rfl
  have hclause := flatMap_findFrom_blocks_of_suffix
    (fun before s => placedAt ImportStatement.clauseImports (before.length, s)) hstart
    fun s ts (hs : s :: ts <:+ ss) before hb => ImportStatement.yields_clause
      (contained_or_unquoted hcontained hs) hb (hplain s (hs.mem (.head _)))
  have hbare := flatMap_findFrom_blocks_of_suffix
    (fun before s => placedAt ImportStatement.bareImports (before.length, s)) hstart
    fun s ts (hs : s :: ts <:+ ss) before hb => ImportStatement.yields_bare
      (contained_or_unquoted hcontained hs) hb
  have hrequire := flatMap_findFrom_blocks_of_suffix
    (fun before s => placedAt ImportStatement.requireImports (before.length, s)) hstart
    fun s ts (hs : s :: ts <:+ ss) before hb => ImportStatement.yields_require
      (contained_or_unquoted hcontained hs) hb
  have horder := inOrder_flatMap (pairwise_length_placesFrom ImportStatement.text [] ss)
    [ImportStatement.clauseImports, ImportStatement.bareImports, ImportStatement.requireImports]
  have hall : (((placesFrom ImportStatement.text [] ss).map fun p => (p.1.length, p.2)).flatMap
      fun p => [p.2.declared]) = ss.map ImportStatement.declared := by
    have hsnd : (placesFrom ImportStatement.text [] ss).map Prod.snd = ss :=
      map_snd_placesFrom [] ss
    rw [List.flatMap_map, ← List.map_eq_flatMap]
    exact List.map_map.symm.trans (congrArg (List.map ImportStatement.declared) hsnd)
  simp only [ImportStatement.flatMap_imports, hall] at horder
  simp only [List.flatMap_map, List.flatMap_cons, List.flatMap_nil, List.append_nil] at horder
  rw [imports, List.map_eq_flatMap, List.map_eq_flatMap, List.map_eq_flatMap, List.append_assoc]
  have hfound := congrArg₂ (· ++ ·) hclause (congrArg₂ (· ++ ·) hbare hrequire)
  exact (congrArg inOrder hfound).trans horder

/-- Scanning the text of a list of imports gives one dependency for each, in their order, with the
module and the names that it states. Left out are a default that is called `type` and stands alone,
and the name of a module, before another import, in which an import of another form may begin. -/
theorem scan_importsText (path : Text) {language : Text}
    (h : Language.family? (Language.normalize language path) = Option.some .ecmaScript)
    (hplain : ∀ s ∈ ss, s.form.isAmbiguous = false)
    (hcontained : ∀ s ∈ ss.dropLast, s.isContained = true) :
    (Scan.of path language (Option.some (importsText ss))).file.imports =
      ss.map ImportStatement.declared := by
  have hscan : (scan path language (importsText ss)).imports = ss.map ImportStatement.declared :=
    imports_eq_map_declared hplain hcontained
  simp only [Scan.of, h, hscan]

/-- Imports of all forms: one of types under another name, one of a default called `type` besides a
namespace, one of nothing, one by a call, and one of a module with a keyword in its name. -/
def sampleImports : List ImportStatement :=
  let n : Name := ⟨"from", by decide, by decide, by decide⟩
  let d : Ident := ⟨'t', "ype", by decide, by decide⟩
  let source : ModuleName := ⟨"./a b", by decide, by decide⟩
  [⟨.clause true (.others (.named [⟨n, none⟩, ⟨n, Option.some n⟩])), .single, source, true⟩,
    ⟨.clause false (.both d (.star d)), .double, ⟨"let it be", by decide, by decide⟩, false⟩,
    ⟨.bare, .double, source, true⟩, ⟨.require (.parts [n]), .single, source, false⟩,
    ⟨.require (.whole d), .double, ⟨"./import", by decide, by decide⟩, true⟩]

theorem scan_importsText_sample :
    (Scan.of "m.ts" "tsx" (Option.some (importsText sampleImports))).file.imports =
      sampleImports.map ImportStatement.declared :=
  scan_importsText "m.ts" (family?_normalize _ (by decide) _) (by decide) (by decide)

/-- A default called `type` that stands alone is read as the word for imports of types. -/
example : imports "import type from 's'\n" = [⟨"s", [], true⟩] := by decide +kernel

/-- The quotation marks on either side of the line break are taken for those around a name. -/
example : (bareImportPattern.findAll "import a from './import'\nimport b from './b'\n").map
    bareImportOf = [⟨"\nimport b from ", [], false⟩] := by decide +kernel

/-- A default may begin with any letter, and one that does not begin with an ASCII letter is not
found. -/
theorem imports_of_accented_default :
    (Scan.of "m.ts" "typescript" (Option.some "import \u00e9 from 's'\n")).file.imports = [] := by
  decide +kernel

end Files

end CodeAtlas.Script
