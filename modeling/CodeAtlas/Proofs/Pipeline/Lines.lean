import CodeAtlas.Pipeline.Prompt
import CodeAtlas.Proofs.Path.Segments
import CodeAtlas.Proofs.Source.Lines

/-!
The layout of the section about the structure of a codebase. Main statement: it has a heading, one
line for each record and an empty line for each kind of records that there are, if and only if no
ECMAScript file imports from a source with a line break. Nothing else that is shown of a file can
break a line, whatever its content.
-/

set_option autoImplicit false

namespace CodeAtlas

open Text (OneLine)

namespace Prompt

def lines (t : Text) : List Text := (Text.splitAt '\n' t).dropLast

theorem splitAt_unlines {ls : List Text} (h : ∀ l ∈ ls, l.OneLine) :
    Text.splitAt '\n' (unlines ls) = ls ++ [[]] := by
  induction ls with
  | nil => rfl
  | cons l ls ih =>
    obtain ⟨hl, hls⟩ := List.forall_mem_cons.1 h
    rw [unlines, List.flatMap_cons, List.append_assoc, List.singleton_append,
      Text.splitAt_append hl]
    exact congrArg (l :: ·) (ih hls)

/-- Lines are read back if and only if none of them holds a line break. -/
theorem lines_unlines_iff {ls : List Text} : lines (unlines ls) = ls ↔ ∀ l ∈ ls, l.OneLine := by
  constructor
  · intro h l hl
    rw [← h] at hl
    exact Text.not_mem_of_mem_splitAt (List.dropLast_subset _ hl)
  · intro h
    rw [lines, splitAt_unlines h, List.dropLast_concat]

def sections (c : Codebase) : List (Text × List Text) :=
  [("### Files Analyzed", c.files.map fileLine),
   ("### Functions", c.files.flatMap fun f => f.functions.map (functionLine f.path)),
   ("### Classes", c.files.flatMap fun f => f.classes.map (classLine f.path)),
   ("### Dependencies", c.dependencies.map dependencyLine)]

/-- For each kind with records its heading, one line for each record, and an empty line. -/
def outline (c : Codebase) : List Text :=
  ((sections c).filter fun s => !s.2.isEmpty).flatMap fun s => s.1 :: (s.2 ++ [[]])

theorem flatMap_titled (ss : List (Text × List Text)) :
    (ss.flatMap fun s => titled s.1 s.2) =
      (ss.filter fun s => !s.2.isEmpty).flatMap fun s => s.1 :: (s.2 ++ [[]]) := by
  induction ss with
  | nil => rfl
  | cons s ss ih =>
    obtain ⟨title, records⟩ := s
    rw [List.flatMap_cons, ih]
    cases records with
    | nil => rfl
    | cons l ls => rfl

theorem structureLines_eq_outline (c : Codebase) : structureLines c none = outline c := by
  rw [outline, ← flatMap_titled, structureLines]
  simp only [sections, List.flatMap_cons, List.flatMap_nil, List.append_nil, List.append_assoc]

theorem forall_mem_outline {c : Codebase} :
    (∀ l ∈ outline c, l.OneLine) ↔ ∀ s ∈ sections c, ∀ l ∈ s.2, l.OneLine := by
  constructor
  · intro h s hs l hl
    have hkept : s ∈ (sections c).filter fun s => !s.2.isEmpty :=
      List.mem_filter.2 ⟨hs, by simpa using List.ne_nil_of_mem hl⟩
    exact h l (List.mem_flatMap.2 ⟨s, hkept, .tail _ (List.mem_append_left _ hl)⟩)
  · intro h l hl
    obtain ⟨s, hs, hl⟩ := List.mem_flatMap.1 hl
    have hmem := (List.mem_filter.1 hs).1
    rcases List.mem_cons.1 hl with rfl | hl
    · have hheadings : ∀ s ∈ sections c, s.1.OneLine := by
        simp only [sections, List.forall_mem_cons]
        exact ⟨by decide, by decide, by decide, by decide, by simp⟩
      exact hheadings s hmem
    · rcases List.mem_append.1 hl with hl | hl
      · exact h s hmem l hl
      · rw [List.mem_singleton.1 hl]
        exact Text.oneLine_nil

section Records

variable {path : Text}

theorem oneLine_fileLine {f : ParsedFile} (hpath : f.path.OneLine) (hlanguage : f.language.OneLine) :
    (fileLine f).OneLine := by
  rw [fileLine, Text.oneLine_concat]
  simp only [List.forall_mem_cons]
  exact ⟨by decide, hpath, by decide, hlanguage, by decide, by simp⟩

theorem oneLine_signature_parameter {p : Parameter} (h : p.OneLine) : p.signature.OneLine := by
  rw [Parameter.signature, Text.oneLine_append, Text.oneLine_append]
  refine ⟨⟨h.name, ?_⟩, ?_⟩
  · split <;> decide
  · split
    · rename_i t ht
      split
      · exact Text.oneLine_nil
      · exact Text.oneLine_append.2 ⟨by decide, h.type t ht⟩
    · exact Text.oneLine_nil

theorem oneLine_signature {f : FunctionRecord} (h : f.OneLine) : f.signature.OneLine := by
  have hparameters : (Text.joinWith ", " (f.parameters.map Parameter.signature)).OneLine := by
    refine Text.oneLine_joinWith (by decide) ?_
    rw [List.forall_mem_map]
    exact fun p hp => oneLine_signature_parameter (h.parameters p hp)
  rw [FunctionRecord.signature, Text.oneLine_append, Text.oneLine_append, Text.oneLine_append,
    Text.oneLine_cons]
  exact ⟨⟨⟨by split <;> decide, h.name⟩, by decide, hparameters⟩, by decide⟩

theorem oneLine_functionLine (hpath : path.OneLine) {f : FunctionRecord} (h : f.OneLine) :
    (functionLine path f).OneLine := by
  rw [functionLine, Text.oneLine_concat]
  simp only [List.forall_mem_cons]
  exact ⟨by decide, oneLine_signature h, by decide, hpath, by decide, by simp⟩

theorem oneLine_classLine (hpath : path.OneLine) {c : ClassRecord} (h : c.OneLine) :
    (classLine path c).OneLine := by
  rw [classLine, Text.oneLine_concat]
  simp only [List.forall_mem_cons]
  have hparent : (c.parent.getD []).OneLine := by
    cases hp : c.parent with
    | none => exact Text.oneLine_nil
    | some t => exact h.parent t hp
  have hnote : (parentNote c).OneLine := by
    unfold parentNote
    simp only
    split
    · exact Text.oneLine_nil
    · exact Text.oneLine_append.2 ⟨by decide, hparent⟩
  exact ⟨by decide, h.name, hnote, by decide, hpath, by decide, by simp⟩

theorem oneLine_dependencyLine_iff {d : Dependency} (himporter : d.importer.OneLine)
    (hlink : d.link.label.OneLine) : (dependencyLine d).OneLine ↔ d.target.OneLine := by
  rw [dependencyLine, Text.oneLine_concat]
  simp only [List.forall_mem_cons]
  constructor
  · exact fun h => h.2.2.2.1
  · exact fun h => ⟨by decide, himporter, by decide, h, by decide, hlink, by decide, by simp⟩

end Records

/-- The layout of what is shown of a codebase depends on its dependencies alone, once the rest of it
stands on one line each. -/
theorem lines_describe_iff {c : Codebase}
    (hfiles : ∀ f ∈ c.files, f.path.OneLine ∧ f.language.OneLine ∧ f.OneLine)
    (hdependencies : ∀ d ∈ c.dependencies, d.importer.OneLine ∧ d.link.label.OneLine) :
    lines (describe c none) = outline c ↔ ∀ d ∈ c.dependencies, d.target.OneLine := by
  rw [describe, structureLines_eq_outline, lines_unlines_iff, forall_mem_outline]
  simp only [sections, List.forall_mem_cons, List.forall_mem_map]
  constructor
  · intro h d hd
    obtain ⟨himporter, hlink⟩ := hdependencies d hd
    exact (oneLine_dependencyLine_iff himporter hlink).1 (h.2.2.2.1 d hd)
  · intro h
    refine ⟨?_, ?_, ?_, ?_, by simp⟩
    · intro f hf
      obtain ⟨hpath, hlanguage, -⟩ := hfiles f hf
      exact oneLine_fileLine hpath hlanguage
    · intro l hl
      obtain ⟨f, hf, hl⟩ := List.mem_flatMap.1 hl
      obtain ⟨g, hg, rfl⟩ := List.mem_map.1 hl
      obtain ⟨hpath, -, hfile⟩ := hfiles f hf
      exact oneLine_functionLine hpath (hfile.functions g hg)
    · intro l hl
      obtain ⟨f, hf, hl⟩ := List.mem_flatMap.1 hl
      obtain ⟨k, hk, rfl⟩ := List.mem_map.1 hl
      obtain ⟨hpath, -, hfile⟩ := hfiles f hf
      exact oneLine_classLine hpath (hfile.classes k hk)
    · intro d hd
      obtain ⟨himporter, hlink⟩ := hdependencies d hd
      exact (oneLine_dependencyLine_iff himporter hlink).2 (h d hd)

end Prompt

namespace Codebase

open Prompt (lines describe outline)

variable {files : List SourceFile}

theorem exists_of_mem_files {p : ParsedFile} (h : p ∈ (ofFiles files).files) :
    ∃ f ∈ files, p.path = f.path ∧ p.language = f.language ∧ p.OneLine := by
  obtain ⟨f, hf, rfl⟩ := List.mem_map.1 h
  exact ⟨f, hf, Scan.path_of .., Scan.language_of .., Scan.oneLine_ofFile f⟩

theorem mem_dependencies_ofFiles {d : Dependency} :
    d ∈ (ofFiles files).dependencies ↔ ∃ f ∈ files, ∃ i ∈ (Scan.ofFile f).file.imports,
      d = { importer := f.path, target := i.source,
            relationship := Text.joinWith ", " i.names } := by
  have hpath : ∀ f, (Scan.ofFile f).file.path = f.path := fun f => Scan.path_of ..
  constructor
  · intro h
    obtain ⟨p, hp, hd⟩ := List.mem_flatMap.1 h
    obtain ⟨f, hf, rfl⟩ := List.mem_map.1 hp
    obtain ⟨i, hi, rfl⟩ := List.mem_map.1 hd
    exact ⟨f, hf, i, hi, by rw [hpath]⟩
  · rintro ⟨f, hf, i, hi, rfl⟩
    exact List.mem_flatMap.2 ⟨_, List.mem_map_of_mem hf, List.mem_map.2 ⟨i, hi, by rw [hpath]⟩⟩

theorem oneLine_targets_iff :
    (∀ d ∈ (ofFiles files).dependencies, d.target.OneLine) ↔
      ∀ f ∈ files, f.IsScript → ∀ i ∈ Script.imports f.content, i.source.OneLine := by
  constructor
  · intro h f hf hscript i hi
    rw [← Scan.imports_of_isScript hscript] at hi
    exact h _ (mem_dependencies_ofFiles.2 ⟨f, hf, i, hi, rfl⟩)
  · intro h d hd
    obtain ⟨f, hf, i, hi, rfl⟩ := mem_dependencies_ofFiles.1 hd
    rcases Decidable.em f.IsScript with hscript | hother
    · rw [Scan.imports_of_isScript hscript] at hi
      exact h f hf hscript i hi
    · exact Scan.oneLine_source hother hi

theorem lines_describe_ofFiles_iff (h : ∀ f ∈ files, f.path.OneLine ∧ f.language.OneLine) :
    lines (describe (ofFiles files) none) = outline (ofFiles files) ↔
      ∀ f ∈ files, f.IsScript → ∀ i ∈ Script.imports f.content, i.source.OneLine := by
  rw [← oneLine_targets_iff]
  refine Prompt.lines_describe_iff ?_ ?_
  · intro p hp
    obtain ⟨f, hf, hpath, hlanguage, hline⟩ := exists_of_mem_files hp
    rw [hpath, hlanguage]
    exact ⟨(h f hf).1, (h f hf).2, hline⟩
  · intro d hd
    obtain ⟨f, hf, i, -, rfl⟩ := mem_dependencies_ofFiles.1 hd
    exact ⟨(h f hf).1, show Text.OneLine "import" by decide⟩

/-- The structure section has its layout, whatever the contents of the files, if and only if no
ECMAScript file imports from a source with a line break. All other texts that a scan finds and the
section shows are free of line breaks. -/
theorem describe_outlined_iff (h : ∀ f ∈ files, f.path.OneLine ∧ f.language.OneLine) :
    (lines (describe (ofFiles files) none) = outline (ofFiles files) ↔
      ∀ f ∈ files, f.IsScript → ∀ i ∈ Script.imports f.content, i.source.OneLine) ∧
    ∀ f ∈ files, (Scan.ofFile f).file.OneLine ∧
      (¬ f.IsScript → ∀ i ∈ (Scan.ofFile f).file.imports, i.source.OneLine) :=
  ⟨lines_describe_ofFiles_iff h, fun f _ =>
    ⟨Scan.oneLine_ofFile f, fun hother _ => Scan.oneLine_source hother⟩⟩

def spreadFiles : List SourceFile :=
  [⟨"a.ts", "typescript", "import 'b'\nfunction f(x,\n  y) \x7b\n\x7d\n"⟩,
   ⟨"m.py", "python", "class A(B,\n  C):\n  pass\n"⟩]

theorem describe_outlined_spreadFiles :
    (∀ f ∈ spreadFiles, f.path.OneLine ∧ f.language.OneLine) ∧
    lines (describe (ofFiles spreadFiles) none) = outline (ofFiles spreadFiles) := by
  have h : ∀ f ∈ spreadFiles, f.path.OneLine ∧ f.language.OneLine := by decide
  refine ⟨h, (describe_outlined_iff h).1.2 fun f hf _ => Script.forall_source_iff.2 ?_⟩
  revert f
  decide +kernel

def brokenFiles : List SourceFile := [⟨"a.ts", "typescript", "import 'a\nb'\n"⟩]

theorem not_outlined_brokenFiles :
    (∀ f ∈ brokenFiles, f.path.OneLine ∧ f.language.OneLine) ∧
    lines (describe (ofFiles brokenFiles) none) ≠ outline (ofFiles brokenFiles) := by
  have h : ∀ f ∈ brokenFiles, f.path.OneLine ∧ f.language.OneLine := by decide
  refine ⟨h, fun hlines => ?_⟩
  have hone := (lines_describe_ofFiles_iff h).1 hlines _ (.head _) (by decide +kernel)
  rw [Script.forall_source_iff] at hone
  revert hone
  decide +kernel

end Codebase

end CodeAtlas
