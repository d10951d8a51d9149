import CodeAtlas.Proofs.Pattern.Absence
import CodeAtlas.Proofs.Pattern.Readings
import CodeAtlas.Proofs.Python.Module
import CodeAtlas.Proofs.Source.Order

set_option autoImplicit false

namespace CodeAtlas.Python

open Pattern
open Item (enclosed sourceText)

variable {before : List Char} {rest : Text} {us : List (Part × Text)}

theorem isGap_of_isWord {c : Char} (h : Text.isWord c = true) : (c == ' ' || c == '\t') = false := by
  rw [Bool.eq_false_iff]
  intro hc
  simp only [Bool.or_eq_true, beq_iff_eq] at hc
  rcases hc with rfl | rfl <;> revert h <;> decide

theorem reads_gap (hr : Text.Halts (fun c => c == ' ' || c == '\t') rest) :
    gap.Reads before [' '] rest us us := reads_some (by simp) (by simp) hr

theorem reads_gap_name (n : Name) (rest : Text) :
    gap.Reads before [' '] (n.text ++ rest) us us := reads_gap (n.halts (fun _ => isGap_of_isWord) rest)

section Functions

theorem reads_async (isAsync : Bool) (rest : Text) :
    (optional (mark .asynchronous (text "async" ++ gap))).Reads before
      (if isAsync then ("async" : Text) ++ [' '] else []) (("def" : Text) ++ rest)
      [] (if isAsync then [(.asynchronous, "async ")] else []) := by
  cases isAsync with
  | true => exact (((reads_text _).append (reads_gap (by simp))).mark .asynchronous).optional
  | false =>
    refine reads_optional_nil fun m k => ?_
    rw [run_mark, run_append]
    exact run_text_eq_none (x := 'a') rfl (by simp)

theorem reads_function (rest : Text) (isAsync : Bool) (n : Name) {ps : Text} (hps : ')' ∉ ps)
    (hb : (Cursor.mk before []).atLineStart = true) :
    functionPattern.Reads before
      ((if isAsync then ("async" : Text) ++ [' '] else [])
        ++ (("def" : Text) ++ ([' '] ++ (n.text ++ (['('] ++ (ps ++ [')'])))))) rest
      [] ((.parameters, ps) :: (.name, n.text) ::
        if isAsync then [(.asynchronous, "async ")] else []) := by
  have hin : ∀ c ∈ ps, (c != ')') = true := by simpa using fun c hc (h : c = ')') => hps (h ▸ hc)
  simp only [functionPattern, reads_append_assoc]
  refine (reads_lineStart hb).append ?_
  refine .append (List.append_assoc .. ▸ reads_async isAsync _) ?_
  refine (reads_text _).append ?_
  refine .append (List.append_assoc .. ▸ reads_gap_name n _) ?_
  refine ((reads_some n.ne_nil n.word (Text.halts_cons.2 (by decide))).mark .name).append ?_
  refine (reads_many_nil (by simp)).append ?_
  refine (reads_char '(').append ?_
  refine ((reads_many hin (by simp)).mark .parameters).append ?_
  exact reads_char ')'

end Functions

section Classes

theorem flat_bases (bases : List Base) : Flat (Text.joinWith ", " (bases.map Base.text)) :=
  flat_joinWith (by simp) (List.forall_mem_map.2 fun b _ => b.flat)

theorem reads_bases (bases : List Base) (rest : Text) :
    (optional (char '(' ++ mark .bases (many (· != ')')) ++ char ')')).Reads before
      (enclosed bases) (':' :: rest) us
      (if bases = [] then us else (.bases, Text.joinWith ", " (bases.map Base.text)) :: us) := by
  cases bases with
  | nil =>
    refine reads_optional_nil fun m k => ?_
    rw [run_append, run_append]
    exact run_char_eq_none (by simp)
  | cons b bs =>
    have hin : ∀ c ∈ Text.joinWith ", " ((b :: bs).map Base.text), (c != ')') = true := by
      intro c hc
      simpa using (flat_bases (b :: bs) c hc).2.1
    exact (((reads_char '(').append ((reads_many hin (by simp)).mark .bases)).append
      (reads_char ')')).optional

theorem reads_class (rest : Text) (n : Name) (bases : List Base)
    (hb : (Cursor.mk before []).atLineStart = true) :
    classPattern.Reads before
      (("class" : Text) ++ ([' '] ++ (n.text ++ (enclosed bases ++ [':'])))) rest []
      (if bases = [] then [(.name, n.text)]
        else [(.bases, Text.joinWith ", " (bases.map Base.text)), (.name, n.text)]) := by
  have hstop : ∀ p : Text.Class, p '(' = false → p ':' = false → ∀ rest,
      Text.Halts p (enclosed bases ++ ':' :: rest) := by
    intro p hopen hcolon rest
    cases bases with
    | nil => simpa [enclosed] using hcolon
    | cons b bs => simpa [enclosed] using hopen
  simp only [classPattern, reads_append_assoc]
  refine (reads_lineStart hb).append ?_
  refine (reads_text _).append ?_
  refine .append (List.append_assoc .. ▸ reads_gap_name n _) ?_
  refine ((reads_some n.ne_nil n.word (by simpa using hstop _ (by decide) (by decide) _)).mark
    .name).append ?_
  refine (reads_many_nil (by simpa using hstop _ (by decide) (by decide) _)).append ?_
  refine (reads_bases bases rest).append ?_
  refine (reads_many_nil (by simp)).append ?_
  exact reads_char ':'

end Classes

section Imports

theorem reads_toLineEnd {t : Text} (hne : t ≠ []) (ht : ∀ c ∈ t, Text.noneOf ['\n', '#', ';'] c = true) :
    toLineEnd.Reads before t ('\n' :: rest) us us :=
  reads_some hne ht (by simp [Text.noneOf])

theorem reads_import (rest : Text) {t : Text} (hne : t ≠ []) (ht : ∀ c ∈ t, Text.noneOf ['\n', '#', ';'] c = true)
    (hgap : Text.Halts (fun c => c == ' ' || c == '\t') t)
    (hb : (Cursor.mk before []).atLineStart = true) :
    importPattern.Reads before (("import" : Text) ++ ([' '] ++ t)) ('\n' :: rest) [] [(.names, t)] := by
  simp only [importPattern, reads_append_assoc]
  refine (reads_lineStart hb).append ?_
  refine (reads_text _).append ?_
  refine (reads_gap ((Text.halts_append hne _).2 hgap)).append ?_
  exact (reads_toLineEnd hne ht).mark .names

theorem halts_source (dots : Nat) (d : Dotted) (rest : Text) :
    Text.Halts (fun c => c == ' ' || c == '\t') (sourceText dots d ++ rest) := by
  have hne : sourceText dots d ≠ [] := by simp [sourceText, d.ne_nil]
  refine (Text.halts_append hne _).2 (Text.halts_of_forall fun c hc => ?_)
  rcases List.mem_append.1 hc with hc | hc
  · rw [List.eq_of_mem_replicate hc]
    rfl
  · rcases d.word_or_dot c hc with h | rfl
    · exact isGap_of_isWord h
    · rfl

theorem reads_fromImport (rest : Text) (dots : Nat) (d : Dotted) {t : Text} (hne : t ≠ [])
    (ht : ∀ c ∈ t, Text.noneOf ['\n', '#', ';'] c = true)
    (hgap : Text.Halts (fun c => c == ' ' || c == '\t') t) (hopen : '(' ∉ t)
    (hb : (Cursor.mk before []).atLineStart = true) :
    fromImportPattern.Reads before
      (("from" : Text) ++ ([' '] ++ (sourceText dots d ++ ([' '] ++ (("import" : Text) ++ ([' '] ++ t))))))
      ('\n' :: rest) [] [(.names, t), (.source, sourceText dots d)] := by
  have hdots : ∀ c ∈ List.replicate dots '.', (c == '.') = true := by
    intro c hc
    simp [List.eq_of_mem_replicate hc]
  have hdotted : ∀ c ∈ d.text, (Text.isWord c || c == '.') = true := by
    intro c hc
    simpa using d.word_or_dot c hc
  simp only [fromImportPattern, reads_append_assoc]
  refine (reads_lineStart hb).append ?_
  refine (reads_text _).append ?_
  refine .append (reads_gap ?_) ?_
  · rw [List.append_assoc]
    exact halts_source dots d _
  refine .append ((Reads.append (reads_many hdots ?_) (reads_many hdotted ?_)).mark .source) ?_
  · refine (Text.halts_append d.ne_nil _).2 (d.halts fun c hc => ?_)
    rw [Bool.eq_false_iff]
    simpa using fun h : c = '.' => absurd (h ▸ hc) (by decide)
  · exact Text.halts_cons.2 (by decide)
  refine (reads_gap (by simp)).append ?_
  refine (reads_text _).append ?_
  refine (reads_gap ((Text.halts_append hne _).2 hgap)).append ?_
  refine (Reads.either_right (reads_toLineEnd hne ht) fun m k => ?_).mark .names
  rw [run_append, run_append]
  refine run_char_eq_none fun hc => ?_
  rw [List.head?_append_of_ne_nil _ hne] at hc
  exact hopen (List.mem_of_mem_head? hc)

end Imports

namespace Item

def initial? : Item → Option Char
  | function isAsync _ _ => if isAsync then some 'a' else some 'd'
  | type _ _ => some 'c'
  | imports _ _ => some 'i'
  | names _ _ _ _ => some 'f'
  | blank _ _ | indented _ _ => none

theorem initial?_of_head? (x : Item) {c : Char} (hc : (x.text ++ '\n' :: rest).head? = some c)
    (hb : Text.isBlank c = false) : x.initial? = some c := by
  cases x with
  | function isAsync n ps => cases isAsync <;> simpa [text, functionText, initial?] using hc
  | type n bases => simpa [text, typeText, initial?] using hc
  | imports i is => simpa [text, importsText, initial?] using hc
  | names dots d n ns => simpa [text, namesText, initial?] using hc
  | blank t ht =>
    exfalso
    cases t with
    | nil => cases hc; cases hb
    | cons x t =>
      cases hc
      rw [(ht _ (.head _)).1] at hb
      cases hb
  | indented t ht => cases hc; cases hb

def shuns (x : Item) (ws : List Text) : Bool :=
  ws.all fun w => w.head?.any fun c => !Text.isBlank c && x.initial? != some c

theorem ne_append_of_shuns {x : Item} {ws : List Text} (hx : x.shuns ws = true) {w : Text}
    (hw : w ∈ ws) (r : Text) : x.text ++ '\n' :: rest ≠ w ++ r := by
  intro heq
  obtain ⟨c, hc, hclash⟩ := (Option.any_eq_true _ _).1 (List.all_eq_true.1 hx w hw)
  simp only [Bool.and_eq_true, Bool.not_eq_true', bne_iff_ne] at hclash
  have hhead : (x.text ++ '\n' :: rest).head? = some c := by
    rw [heq, List.head?_append, hc]
    rfl
  exact hclash.2 (x.initial?_of_head? hhead hclash.1)

theorem not_mem_text (x : Item) : '\n' ∉ x.text := by
  cases x with
  | function isAsync n ps =>
    have hps : Flat (Text.joinWith ", " (ps.map Param.text)) :=
      flat_joinWith (by simp) (List.forall_mem_map.2 fun p _ => p.flat)
    have hjoin := hps.not_mem.2.2
    cases isAsync <;> simpa [text, functionText, n.flat.not_mem] using hjoin
  | type n bases =>
    have hjoin := (flat_bases bases).not_mem.2.2
    by_cases hb : bases = []
    · simp [text, typeText, enclosed, hb, n.flat.not_mem]
    · simpa [text, typeText, enclosed, hb, n.flat.not_mem] using hjoin
  | imports i is =>
    have his : Flat (Text.joinWith ", " ((i :: is).map Imported.text)) :=
      flat_joinWith (by simp) (List.forall_mem_map.2 fun i _ => i.flat)
    simpa [text, importsText] using his.not_mem.2.2
  | names dots d n ns =>
    have hns : Flat (Text.joinWith ", " ((n :: ns).map Name.text)) :=
      flat_joinWith (by simp) (List.forall_mem_map.2 fun n _ => n.flat)
    simpa [text, namesText, sourceText, d.flat.not_mem] using hns.not_mem.2.2
  | blank t ht => exact fun hm => (ht _ hm).2 rfl
  | indented t ht => simpa [text] using ht

def importedNames : Item → List ImportRecord
  | names dots module first more =>
    [{ source := sourceText dots module, names := (first :: more).map Name.text }]
  | _ => []

def importedModules : Item → List ImportRecord
  | imports first more => (first :: more).map Imported.declared
  | _ => []

theorem imported_eq (x : Item) : x.imported = x.importedNames ++ x.importedModules := by
  cases x <;> simp [imported, importedNames, importedModules]

end Item

/-- A pattern that begins with other words finds nothing on the line of an item. -/
theorem yields_nothing {α : Type} {record : Match → List α} {a : Pattern} {x : Item}
    (ha : a.isBound = true) (hx : x.shuns (a.openers [[]]) = true) :
    a.Yields record before (x.text ++ ['\n']) rest [] := by
  refine yields_line (first?_of_isBound ha) x.not_mem_text ?_
  refine Option.eq_none_iff_forall_ne_some.2 fun m hm => ?_
  obtain ⟨w, hw, r, hr⟩ := opens_openers a hm
  exact Item.ne_append_of_shuns hx hw r hr

section Items

variable (x : Item) (hb : (Cursor.mk before []).atLineStart = true)
include hb

theorem yields_function :
    functionPattern.Yields (fun m => [functionOf m]) before (x.text ++ ['\n']) rest
      (x.function? (before.count '\n' + 1)).toList := by
  cases x with
  | function isAsync n ps =>
    have hflat : Flat (Text.joinWith ", " (ps.map Param.text)) :=
      flat_joinWith (by simp) (List.forall_mem_map.2 fun p _ => p.flat)
    have hread := reads_function ([':'] ++ '\n' :: rest) isAsync n hflat.not_mem.2.1 hb
    refine hread.yields_line (first?_of_isBound rfl)
      (List.append_ne_nil_of_right_ne_nil _ (by simp)) ?_ (Item.not_mem_text _) ?_
    · cases isAsync <;> simp [Item.text, Item.functionText]
    · intro m hfirst htexts
      have hname : m.part .name = n.text := by rw [m.part_eq, htexts]; rfl
      have hparams : m.part .parameters = Text.joinWith ", " (ps.map Param.text) := by
        rw [m.part_eq, htexts]; rfl
      have hasync : m.has .asynchronous = isAsync := by
        rw [m.has_eq, htexts]; cases isAsync <;> rfl
      have hline : m.line = before.count '\n' + 1 := by rw [Match.line, hfirst]; rfl
      simp only [functionOf, hname, hparams, hasync, hline, Param.parse_joinWith]
      rfl
  | _ => exact yields_nothing rfl rfl

theorem yields_class :
    classPattern.Yields (fun m => [classOf m]) before (x.text ++ ['\n']) rest
      (x.class? (before.count '\n' + 1)).toList := by
  cases x with
  | type n bases =>
    have hread := reads_class ('\n' :: rest) n bases hb
    refine hread.yields_line (t := []) (first?_of_isBound rfl) (by simp) ?_ (Item.not_mem_text _) ?_
    · simp [Item.text, Item.typeText]
    · intro m hfirst htexts
      have hname : m.part .name = n.text := by
        rw [m.part_eq, htexts]; split <;> rfl
      have hbases : m.part .bases = Text.joinWith ", " (bases.map Base.text) := by
        rw [m.part_eq, htexts]
        split
        · rename_i hnil; rw [hnil]; rfl
        · rfl
      have hline : m.line = before.count '\n' + 1 := by rw [Match.line, hfirst]; rfl
      have hbasesOf : basesOf m = bases.map fun b => b.name.text := by
        rw [basesOf, hbases]
        exact Base.typeNames bases
      simp only [classOf, hname, hline, hbasesOf]
      rcases bases with _ | ⟨b, _ | ⟨b', bs⟩⟩ <;> rfl
  | function isAsync => cases isAsync <;> exact yields_nothing rfl rfl
  | _ => exact yields_nothing rfl rfl

theorem yields_fromImport :
    fromImportPattern.Yields (fun m => [Script.placed fromImportOf m]) before (x.text ++ ['\n']) rest
      (Script.placedAt Item.importedNames (before.length, x)) := by
  cases x with
  | names dots d n ns =>
    have hflat : Flat (Text.joinWith ", " ((n :: ns).map Name.text)) :=
      flat_joinWith (by simp) (List.forall_mem_map.2 fun n _ => n.flat)
    have hline : ∀ c ∈ Text.joinWith ", " ((n :: ns).map Name.text),
        Text.noneOf ['\n', '#', ';'] c = true :=
      Text.forall_mem_joinWith (by decide) (List.forall_mem_map.2 fun n _ => n.noneOf_lineEnd)
    have hgap : Text.Halts (fun c => c == ' ' || c == '\t') n.text := by
      simpa using n.halts (fun _ => isGap_of_isWord) []
    have hread := reads_fromImport rest dots d (Text.joinWith_ne_nil n.ne_nil _) hline
      (Text.halts_joinWith n.ne_nil hgap _) hflat.not_mem.1 hb
    refine hread.yields_line (t := []) (first?_of_isBound rfl) (by simp) ?_ (Item.not_mem_text _) ?_
    · simp [Item.text, Item.namesText]
    · intro m hfirst htexts
      have hsource : m.part .source = sourceText dots d := by rw [m.part_eq, htexts]; rfl
      have hnames : m.part .names = Text.joinWith ", " ((n :: ns).map Name.text) := by
        rw [m.part_eq, htexts]; rfl
      have hposition : m.position = before.length := by rw [Match.position, hfirst]; rfl
      simp only [Script.placed, fromImportOf, hposition, hsource, hnames, Name.splitNames_joinWith]
      rfl
  | function isAsync => cases isAsync <;> exact yields_nothing rfl rfl
  | _ => exact yields_nothing rfl rfl

theorem yields_import :
    importPattern.Yields
      (fun m => (splitNames (m.part .names)).map fun item => (m.position, importOf item))
      before (x.text ++ ['\n']) rest (Script.placedAt Item.importedModules (before.length, x)) := by
  cases x with
  | imports i is =>
    have hline : ∀ c ∈ Text.joinWith ", " ((i :: is).map Imported.text),
        Text.noneOf ['\n', '#', ';'] c = true :=
      Text.forall_mem_joinWith (by decide) (List.forall_mem_map.2 fun i _ => i.noneOf_lineEnd)
    have hread := reads_import rest (Text.joinWith_ne_nil i.phrase.ne_nil _) hline
      (Text.halts_joinWith i.phrase.ne_nil (i.halts fun _ => isGap_of_isWord) _) hb
    refine hread.yields_line (t := []) (first?_of_isBound rfl) (by simp) ?_ (Item.not_mem_text _) ?_
    · simp [Item.text, Item.importsText]
    · intro m hfirst htexts
      have hnames : m.part .names = Text.joinWith ", " ((i :: is).map Imported.text) := by
        rw [m.part_eq, htexts]; rfl
      have hposition : m.position = before.length := by rw [Match.position, hfirst]; rfl
      have hphrase : ∀ t ∈ (i :: is).map Imported.text, Phrase t :=
        List.forall_mem_map.2 fun i _ => i.phrase
      have himport : (fun t => (before.length, importOf t)) ∘ Imported.text =
          Prod.mk before.length ∘ Imported.declared :=
        funext fun i => congrArg (Prod.mk before.length) i.importOf_text
      rw [hposition, hnames, splitNames_joinWith fun t ht => (hphrase t ht).listable,
        map_collapse_eq hphrase, List.map_map, himport, ← List.map_map]
      rfl
  | function isAsync => cases isAsync <;> exact yields_nothing rfl rfl
  | _ => exact yields_nothing rfl rfl

end Items

section Modules

variable (items : List Item)

theorem count_text (x : Item) : x.text.count '\n' = 0 := List.count_eq_zero.2 x.not_mem_text

theorem functions_moduleText : functions (moduleText items) = moduleFunctions items := by
  have hfind := flatMap_findAll_blocks (fun line x => (x.function? line).toList)
    (fun x (_ : x ∈ items) => count_text x) fun x _ before rest hb => yields_function x hb
  rw [functions, moduleFunctions, List.map_eq_flatMap, moduleText, hfind,
    List.filterMap_eq_flatMap_toList]
  simp only [Nat.zero_add, Nat.one_mul]

theorem classes_moduleText : classes (moduleText items) = moduleClasses items := by
  have hfind := flatMap_findAll_blocks (fun line x => (x.class? line).toList)
    (fun x (_ : x ∈ items) => count_text x) fun x _ before rest hb => yields_class x hb
  rw [classes, moduleClasses, List.map_eq_flatMap, moduleText, hfind,
    List.filterMap_eq_flatMap_toList]
  simp only [Nat.zero_add, Nat.one_mul]

/-- Both kinds of imports are found at the places of the items, so the order of the places is that
of the items. -/
theorem imports_moduleText : imports (moduleText items) = items.flatMap Item.imported := by
  have hstart : (Cursor.mk [] []).atLineStart = true := rfl
  have hfrom := flatMap_findFrom_blocks
    (fun before x => Script.placedAt Item.importedNames (before.length, x)) hstart
    fun x (_ : x ∈ items) before rest hb => yields_fromImport x hb
  have himport := flatMap_findFrom_blocks
    (fun before x => Script.placedAt Item.importedModules (before.length, x)) hstart
    fun x (_ : x ∈ items) before rest hb => yields_import x hb
  have hplaces := pairwise_length_placesFrom Item.text [] items
  have horder := Script.inOrder_flatMap hplaces [Item.importedNames, Item.importedModules]
  simp only [List.flatMap_cons, List.flatMap_nil, List.append_nil, List.flatMap_map] at horder
  have hitems : (placesFrom Item.text [] items).flatMap (fun p => p.2.imported) =
      items.flatMap Item.imported := by
    rw [← List.flatMap_map Prod.snd, map_snd_placesFrom]
  rw [imports, List.map_eq_flatMap, moduleText]
  refine (congrArg Script.inOrder (congrArg₂ (· ++ ·) hfrom himport)).trans (horder.trans ?_)
  simp only [← Item.imported_eq]
  exact hitems

theorem isExported_of_mem_moduleFunctions {f : FunctionRecord} (h : f ∈ moduleFunctions items) :
    f.isExported = isPublic f.name := by
  obtain ⟨⟨x, n⟩, _, hx⟩ := List.mem_filterMap.1 h
  cases x <;> cases hx
  rfl

theorem isExported_of_mem_moduleClasses {c : ClassRecord} (h : c ∈ moduleClasses items) :
    c.isExported = isPublic c.name := by
  obtain ⟨⟨x, n⟩, _, hx⟩ := List.mem_filterMap.1 h
  cases x <;> cases hx
  rfl

/-- Scanning the text of a module gives what its items declare and nothing else. -/
theorem scan_moduleText (path : Text) :
    Scan.of path "python" (some (moduleText items)) = ⟨moduleFile path items, none⟩ := by
  have hfamily : Language.family? (Language.normalize "python" path) = some .python := by
    have hname : Text.lower (Text.strip "python") = "python" := by decide +kernel
    have halias : (Language.aliases.lookup ("python" : Text)).getD "python" = "python" := by
      decide +kernel
    have hfull : Language.normalize "python" path = "python" := by
      simp only [Language.normalize, hname, halias]
      exact if_neg (by simp)
    rw [hfull]
    decide +kernel
  have hscan : scan path "python" (moduleText items) = moduleFile path items := by
    have hpublic := List.filter_congr fun f => isExported_of_mem_moduleFunctions items (f := f)
    have hpublic' := List.filter_congr fun c => isExported_of_mem_moduleClasses items (c := c)
    rw [scan, moduleFile]
    simp only [functions_moduleText, classes_moduleText, imports_moduleText, hpublic, hpublic']
  simp only [Scan.of, hfamily, hscan]

/-- Both kinds of imports, a function with an annotation, a default value and marked parameters, a
line inside it, a class with bases, and a private function. -/
def sampleModule : List Item :=
  let name (t : Text) (h : t ≠ [] ∧ ∀ c ∈ t, Text.isWord c = true) : Name := ⟨t, h.1, h.2⟩
  let url := name "url" (by decide)
  let os : Dotted := ⟨name "os" (by decide), [name "path" (by decide)]⟩
  [.imports ⟨os, some (name "p" (by decide))⟩ [⟨⟨name "sys" (by decide), []⟩, none⟩],
    .names 2 ⟨name "pkg" (by decide), []⟩ (name "a" (by decide)) [name "b" (by decide)],
    .blank [] (by simp),
    .function true (name "fetch" (by decide))
      [⟨.none, url, some ⟨"dict[str, int]", by decide, by decide, by decide⟩,
          some ⟨"\x7b\x7d", by decide, by decide⟩⟩,
        ⟨.positional, name "args" (by decide), none, none⟩],
    .indented "   return url" (by decide),
    .type (name "Dog" (by decide))
      [⟨name "Pet" (by decide), some ⟨"str", rfl, by decide, by decide⟩⟩,
        ⟨name "Noisy" (by decide), none⟩],
    .function false (name "_bark" (by decide)) []]

theorem scan_moduleText_sample :
    moduleText sampleModule =
        "import os.path as p, sys\nfrom ..pkg import a, b\n\n" ++
        "async def fetch(url: dict[str, int] = \x7b\x7d, *args):\n    return url\n" ++
        "class Dog(Pet[str], Noisy):\ndef _bark():\n" ∧
    Scan.of "m.py" "python" (some (moduleText sampleModule)) =
      ⟨moduleFile "m.py" sampleModule, none⟩ :=
  ⟨by decide +kernel, scan_moduleText sampleModule "m.py"⟩

/-- A combining mark is no word character, so a name that has one is not found. -/
theorem functions_of_combining_mark :
    (Scan.of "m.py" "python" (some "def \u0928\u093e\u092e():\n")).file.functions = [] := by
  decide +kernel

end Modules

end CodeAtlas.Python
