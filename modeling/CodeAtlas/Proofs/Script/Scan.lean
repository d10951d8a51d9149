import CodeAtlas.Proofs.Script.Elsewhere
import CodeAtlas.Proofs.Script.Reading
import CodeAtlas.Source.Scan

set_option autoImplicit false

namespace CodeAtlas

namespace Script

open Pattern

variable {before : List Char} {rest : Text} {a : Pattern}

def foreign : List Char := ['\n', '\'', '"']

theorem idle_head {ws : List Text} {lead signature : Text} (ha : a.Opens ws)
    (hclosing : Text.avoids ws closing = true)
    (hlead : a.Idle before lead (signature ++ closing ++ rest))
    (hsignature : a.Idle (lead.reverse ++ before) signature (closing ++ rest)) :
    a.Idle before (lead ++ (signature ++ closing)) rest :=
  idle_append.2 ⟨hlead, idle_append.2 ⟨hsignature, ha.idle hclosing⟩⟩

section Functions

variable (f : FunctionHead)

namespace FunctionHead

theorem modifiers_spec : (∀ d ∈ foreign, d ∉ f.modifiers) ∧
    f.modifiers.getLast?.all (fun c => !Text.isWord c) = true ∧
    Text.avoids ["function"] f.modifiers = true ∧
    hasWord "export" f.modifiers = f.isExported ∧ hasWord "async" f.modifiers = f.isAsync := by
  obtain ⟨isExported, isDefault, isAsync, _, _, _, _⟩ := f
  have hspec : ∀ e d a : Bool,
      let t := Text.concat [word e "export", word d "default", word a "async"]
      (∀ d ∈ foreign, d ∉ t) ∧ t.getLast?.all (fun c => !Text.isWord c) = true ∧
        Text.avoids ["function"] t = true ∧ hasWord "export" t = e ∧ hasWord "async" t = a := by
    decide +kernel
  exact hspec _ _ _

theorem not_mem_text : ∀ d ∈ foreign, d ∉ f.text := by
  intro d hd
  have hkeyword : ∀ g : Bool, ∀ d ∈ foreign,
      d ∉ Text.concat ["function", if g then ['*'] else [], [' ']] := by decide
  have hsigns : ∀ d ∈ foreign, isIdentPart d = false ∧
      d ∉ [',', ' ', '<', '>', '[', ']', '?', ':', '=', '.', '+', '-'] ∧ d ∉ ['(', ')', '{'] := by
    decide
  obtain ⟨hpart, hsign, hround⟩ := hsigns d hd
  simp only [text, Text.concat_cons, Text.concat_nil, List.append_nil, List.mem_append, not_or]
  exact ⟨f.modifiers_spec.1 d hd, hkeyword _ d hd, f.not_mem_signature hpart hsign hround⟩

theorem block_eq : (Declaration.function f).text ++ ['\n'] =
    word f.isExported "export" ++ f.lead ++ (f.signature ++ closing) := by
  simp [Declaration.text, text, modifiers, lead, closing]

theorem block_eq' : (Declaration.function f).text ++ ['\n'] =
    f.modifiers ++ ((f.keyword ++ f.signature) ++ closing) := by
  simp [Declaration.text, text, closing]

theorem functionOf_eq {m : Match} (hb : (Cursor.mk before []).atLineStart = true)
    (hfirst : m.first = ⟨f.modifiers.reverse ++ before, f.keyword ++ f.signature ++ rest⟩)
    (htexts : m.marks.texts = [(.parameters, f.parameterText), (.name, f.name.text)]) :
    functionOf m = f.declared (before.count '\n' + 1) := by
  obtain ⟨hforeign, -, -, hexport, hasync⟩ := f.modifiers_spec
  have hline := hforeign '\n' (by decide)
  have hname : m.part .name = f.name.text := by rw [m.part_eq, htexts]; rfl
  have hparams : m.part .parameters = f.parameterText := by rw [m.part_eq, htexts]; rfl
  have hhead : m.first.lineHead = f.modifiers := by rw [hfirst, Cursor.lineHead_append hb hline]
  have hnumber : m.line = before.count '\n' + 1 := by
    rw [Match.line, hfirst, Cursor.lineNumber_append hline]
  simp only [functionOf, saidBefore, hname, hparams, hhead, hexport, hasync, hnumber, parameterText,
    Param.parse_joinWith]
  rfl

theorem yields_function (hb : (Cursor.mk before []).atLineStart = true) :
    functionPattern.Yields (fun m => [functionOf m]) before ((Declaration.function f).text ++ ['\n'])
      rest [f.declared (before.count '\n' + 1)] := by
  obtain ⟨-, hlast, havoids, -, -⟩ := f.modifiers_spec
  have hb' := Cursor.halts_isWord_append hb hlast
  rw [f.block_eq']
  refine .enclosed (functionPattern_opens.idle havoids) ?_ (functionPattern_opens.idle (by decide))
  exact (reads_function f hb').yields (by simp [keyword]) fun m hfirst htexts =>
    congrArg (· :: []) (f.functionOf_eq hb hfirst htexts)

theorem idle_class : classPattern.Idle before ((Declaration.function f).text ++ ['\n']) rest := by
  rw [f.block_eq]
  exact idle_head classPattern_opens (by decide)
    (classPattern_opens.idle (Text.avoids_of_subset (by simp) f.avoids_lead)) f.idle_class_signature

theorem idle_arrow : arrowPattern.Idle before ((Declaration.function f).text ++ ['\n']) rest := by
  rw [f.block_eq]
  exact idle_head arrowPattern_opens (by decide)
    (arrowPattern_opens.idle (Text.avoids_of_subset (by simp) f.avoids_lead)) f.idle_arrow_signature

theorem idle_exportVariable :
    exportVariablePattern.Idle before ((Declaration.function f).text ++ ['\n']) rest := by
  rw [f.block_eq]
  exact idle_head exportVariablePattern_opens (by decide) (f.leads.idle_exportVariable _ _)
    f.idle_exportVariable_signature

theorem idle_exportDefault :
    exportDefaultPattern.Idle before ((Declaration.function f).text ++ ['\n']) rest := by
  rw [f.block_eq]
  exact idle_head exportDefaultPattern_opens (by decide) (f.leads.idle_exportDefault _ _)
    f.idle_exportDefault_signature

end FunctionHead

end Functions

section Classes

variable (c : ClassHead)

namespace ClassHead

theorem modifiers_spec : (∀ d ∈ foreign, d ∉ c.modifiers) ∧
    c.modifiers.getLast?.all (fun c => !Text.isWord c) = true ∧
    Text.avoids ["class"] c.modifiers = true ∧ hasWord "export" c.modifiers = c.isExported := by
  obtain ⟨isExported, isDefault, isAbstract, _, _, _, _⟩ := c
  have hspec : ∀ e d a : Bool,
      let t := Text.concat [word e "export", word d "default", word a "abstract"]
      (∀ d ∈ foreign, d ∉ t) ∧ t.getLast?.all (fun c => !Text.isWord c) = true ∧
        Text.avoids ["class"] t = true ∧ hasWord "export" t = e := by
    decide +kernel
  exact hspec _ _ _

theorem not_mem_text : ∀ d ∈ foreign, d ∉ c.text := by
  intro d hd
  have hkeyword : ∀ d ∈ foreign, d ∉ ("class " : Text) := by decide
  have hsigns : ∀ d ∈ foreign, isIdentPart d = false ∧ d ∉ [',', ' ', '<', '>', '[', ']'] ∧
      d ≠ '.' ∧ d ≠ '{' := by decide
  obtain ⟨hpart, hsign, hdot, hopen⟩ := hsigns d hd
  simp only [text, Text.concat_cons, Text.concat_nil, List.append_nil, List.mem_append, not_or]
  exact ⟨c.modifiers_spec.1 d hd, hkeyword d hd, c.not_mem_signature hpart hsign hdot hopen⟩

theorem block_eq : (Declaration.type c).text ++ ['\n'] =
    word c.isExported "export" ++ c.lead ++ (c.signature ++ closing) := by
  simp [Declaration.text, text, modifiers, lead, closing]

theorem block_eq' : (Declaration.type c).text ++ ['\n'] =
    c.modifiers ++ ((("class" : Text) ++ ([' '] ++ c.signature)) ++ closing) := by
  simp [Declaration.text, text, closing]

theorem classOf_eq {m : Match} (hb : (Cursor.mk before []).atLineStart = true)
    (hfirst : m.first = ⟨c.modifiers.reverse ++ before, ("class" : Text) ++ ([' '] ++ c.signature) ++ rest⟩)
    (htexts : m.marks.texts = c.interfaceMark ++ (c.parentMark ++ [(.name, c.name.text)])) :
    classOf m = c.declared (before.count '\n' + 1) := by
  obtain ⟨hforeign, -, -, hexport⟩ := c.modifiers_spec
  have hline := hforeign '\n' (by decide)
  have hname : m.part .name = c.name.text := by
    rw [m.part_eq, htexts, interfaceMark, parentMark]
    split <;> split <;> rfl
  have hparent : m.part? .parent = c.parent.map fun p => p.1.text := by
    rw [m.part?_eq_lookup, htexts, interfaceMark, parentMark]
    rcases c.parent with _ | ⟨d, a⟩ <;> split <;> rfl
  have hinterfaces : (m.part? .interfaces).map (fun t => (splitNames t).map typeName) =
      (c.declared (before.count '\n' + 1)).interfaces := by
    rw [m.part?_eq_lookup, htexts, interfaceMark, parentMark, declared]
    rcases c.interfaces with _ | ⟨t, ts⟩
    · rcases c.parent with _ | p <;> rfl
    · exact congrArg Option.some (TypeExpr.typeNames (t :: ts))
  have hhead : m.first.lineHead = c.modifiers := by rw [hfirst, Cursor.lineHead_append hb hline]
  have hnumber : m.line = before.count '\n' + 1 := by
    rw [Match.line, hfirst, Cursor.lineNumber_append hline]
  simp only [classOf, saidBefore, hname, hparent, hinterfaces, hhead, hexport, hnumber]
  rfl

theorem yields_class (hb : (Cursor.mk before []).atLineStart = true) :
    classPattern.Yields (fun m => [classOf m]) before ((Declaration.type c).text ++ ['\n'])
      rest [c.declared (before.count '\n' + 1)] := by
  obtain ⟨-, hlast, havoids, -⟩ := c.modifiers_spec
  have hb' := Cursor.halts_isWord_append hb hlast
  rw [c.block_eq']
  refine .enclosed (classPattern_opens.idle havoids) ?_ (classPattern_opens.idle (by decide))
  exact (reads_class c hb').yields (by simp) fun m hfirst htexts =>
    congrArg (· :: []) (c.classOf_eq hb hfirst htexts)

theorem idle_function : functionPattern.Idle before ((Declaration.type c).text ++ ['\n']) rest := by
  rw [c.block_eq]
  exact idle_head functionPattern_opens (by decide)
    (functionPattern_opens.idle (Text.avoids_of_subset (by simp) c.avoids_lead))
    c.idle_function_signature

theorem idle_arrow : arrowPattern.Idle before ((Declaration.type c).text ++ ['\n']) rest := by
  rw [c.block_eq]
  exact idle_head arrowPattern_opens (by decide)
    (arrowPattern_opens.idle (Text.avoids_of_subset (by simp) c.avoids_lead)) c.idle_arrow_signature

theorem idle_exportVariable :
    exportVariablePattern.Idle before ((Declaration.type c).text ++ ['\n']) rest := by
  rw [c.block_eq]
  exact idle_head exportVariablePattern_opens (by decide) (c.leads.idle_exportVariable _ _)
    c.idle_exportVariable_signature

theorem idle_exportDefault :
    exportDefaultPattern.Idle before ((Declaration.type c).text ++ ['\n']) rest := by
  rw [c.block_eq]
  exact idle_head exportDefaultPattern_opens (by decide) (c.leads.idle_exportDefault _ _)
    c.idle_exportDefault_signature

end ClassHead

end Classes

namespace Declaration

variable (d : Declaration)

theorem yields_function (hb : (Cursor.mk before []).atLineStart = true) :
    functionPattern.Yields (fun m => [functionOf m]) before (d.text ++ ['\n']) rest
      (d.function? (before.count '\n' + 1)).toList := by
  cases d with
  | function f => exact f.yields_function hb
  | type c => exact yields_of_idle c.idle_function

theorem yields_class (hb : (Cursor.mk before []).atLineStart = true) :
    classPattern.Yields (fun m => [classOf m]) before (d.text ++ ['\n']) rest
      (d.class? (before.count '\n' + 1)).toList := by
  cases d with
  | function f => exact yields_of_idle f.idle_class
  | type c => exact c.yields_class hb

theorem idle_arrow : arrowPattern.Idle before (d.text ++ ['\n']) rest := by
  cases d with
  | function f => exact f.idle_arrow
  | type c => exact c.idle_arrow

theorem idle_exportVariable : exportVariablePattern.Idle before (d.text ++ ['\n']) rest := by
  cases d with
  | function f => exact f.idle_exportVariable
  | type c => exact c.idle_exportVariable

theorem idle_exportDefault : exportDefaultPattern.Idle before (d.text ++ ['\n']) rest := by
  cases d with
  | function f => exact f.idle_exportDefault
  | type c => exact c.idle_exportDefault

theorem count_text : d.text.count '\n' = 1 := by
  have hcount : ∀ t : Text, '\n' ∉ t → (t ++ ['\n', '}']).count '\n' = 1 := by
    intro t ht
    rw [List.count_append, List.count_eq_zero.2 ht]
    rfl
  cases d with
  | function f => exact hcount _ (f.not_mem_text _ (by decide))
  | type c => exact hcount _ (c.not_mem_text _ (by decide))

theorem quote_not_mem : '\'' ∉ d.text ∧ '"' ∉ d.text := by
  have hclosing : ∀ t : Text, (∀ c ∈ foreign, c ∉ t) →
      '\'' ∉ t ++ ['\n', '}'] ∧ '"' ∉ t ++ ['\n', '}'] := by
    intro t ht
    simp [ht '\'' (by decide), ht '"' (by decide)]
  cases d with
  | function f => exact hclosing _ f.not_mem_text
  | type c => exact hclosing _ c.not_mem_text

end Declaration

section Files

variable (path language : Text) (ds : List Declaration)

theorem functions_scriptText : functions (scriptText ds) = scriptFunctions ds := by
  have hfind := flatMap_findAll_blocks (fun line d => (Declaration.function? line d).toList)
    (fun d (_ : d ∈ ds) => d.count_text) fun d _ before rest hb => d.yields_function hb
  have harrows := findAll_blocks_eq_nil fun d (_ : d ∈ ds) before rest => d.idle_arrow
  rw [functions, scriptFunctions, List.map_eq_flatMap, scriptText, hfind, harrows,
    List.filterMap_eq_flatMap_toList]
  simp

theorem classes_scriptText : classes (scriptText ds) = scriptClasses ds := by
  have hfind := flatMap_findAll_blocks (fun line d => (Declaration.class? line d).toList)
    (fun d (_ : d ∈ ds) => d.count_text) fun d _ before rest hb => d.yields_class hb
  rw [classes, scriptClasses, List.map_eq_flatMap, scriptText, hfind,
    List.filterMap_eq_flatMap_toList]

theorem imports_scriptText : imports (scriptText ds) = [] := by
  have hquote : ∀ c ∈ scriptText ds, (c == '\'' || c == '"') = false := by
    intro c hc
    obtain ⟨d, _, hd⟩ := List.mem_flatMap.1 hc
    obtain ⟨hsingle, hdouble⟩ := d.quote_not_mem
    rcases List.mem_append.1 hd with hd | hd
    · simpa using ⟨fun h : c = '\'' => hsingle (h ▸ hd), fun h : c = '"' => hdouble (h ▸ hd)⟩
    · rw [List.mem_singleton.1 hd]
      rfl
  have hquoted : quoted.Demands fun c => c == '\'' || c == '"' := .inl (.inl fun _ h => h)
  have himport : importPattern.Demands fun c => c == '\'' || c == '"' := .inr hquoted
  have hbare : bareImportPattern.Demands fun c => c == '\'' || c == '"' := .inr hquoted
  have hrequire : requirePattern.Demands fun c => c == '\'' || c == '"' :=
    .inl (.inl (.inr hquoted))
  rw [imports, findAll_eq_nil_of_demands himport hquote, findAll_eq_nil_of_demands hbare hquote,
    findAll_eq_nil_of_demands hrequire hquote]
  simp [inOrder]

theorem exports_scriptText :
    exports (scriptText ds) (scriptFunctions ds) (scriptClasses ds) = (scriptFile path language ds).exports := by
  have hvariables := findAll_blocks_eq_nil fun d (_ : d ∈ ds) before rest => d.idle_exportVariable
  have hdefaults := findAll_blocks_eq_nil fun d (_ : d ∈ ds) before rest => d.idle_exportDefault
  rw [exports, scriptText, hvariables, hdefaults]
  simp [scriptFile]

/-- Scanning the text of a file gives what its declarations declare and nothing else. -/
theorem scan_scriptText (h : Language.family? (Language.normalize language path) = Option.some .ecmaScript) :
    Scan.of path language (Option.some (scriptText ds)) = ⟨scriptFile path language ds, none⟩ := by
  have hscan : scan path language (scriptText ds) = scriptFile path language ds := by
    rw [scan, functions_scriptText, classes_scriptText, imports_scriptText,
      exports_scriptText path language]
    rfl
  simp only [Scan.of, h, hscan]

theorem family?_normalize : ∀ language ∈ [("javascript" : Text), "typescript", "tsx"], ∀ path,
    Language.family? (Language.normalize language path) = Option.some .ecmaScript := by
  have hnames : ∀ language ∈ [("javascript" : Text), "typescript", "tsx"],
      Text.lower (Text.strip language) = language ∧ language.isEmpty = false ∧
        (Language.aliases.lookup language).getD language = language ∧
        Language.family? language = Option.some .ecmaScript := by decide +kernel
  intro language hl path
  obtain ⟨hlower, hempty, halias, hfamily⟩ := hnames language hl
  have hfull : Language.normalize language path = language := by
    simp only [Language.normalize, hlower, hempty, halias, Bool.false_and]
    rfl
  rw [hfull, hfamily]

def sampleDeclarations : List Declaration :=
  let n : Ident := .single 'n' (by decide)
  let c : Ident := .single 'C' (by decide)
  [.function ⟨true, false, true, true, n, [⟨n, true, Option.some ⟨c, []⟩, none⟩], none⟩,
    .type ⟨true, true, false, c, none, Option.some (⟨n, [c]⟩, none), [⟨c, [(.angle, .name n .done)]⟩]⟩]

theorem scan_scriptText_sample :
    Scan.of "m.ts" "tsx" (Option.some (scriptText sampleDeclarations)) =
      ⟨scriptFile "m.ts" "tsx" sampleDeclarations, none⟩ :=
  scan_scriptText "m.ts" "tsx" sampleDeclarations (family?_normalize _ (by decide) _)

/-- An identifier may begin with any letter, and one that does not begin with an ASCII letter is not
found. -/
theorem functions_of_accented_letter :
    (Scan.of "m.ts" "typescript" (Option.some "function \u00e9t\u00e9() \x7b\n\x7d\n")).file.functions = [] := by
  decide +kernel

end Files

end Script

end CodeAtlas
