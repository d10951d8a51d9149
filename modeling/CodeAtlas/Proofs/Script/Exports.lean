import CodeAtlas.Proofs.Script.Scan

set_option autoImplicit false

namespace CodeAtlas.Script

open Pattern

def functionMatches (content : Text) : List Match :=
  functionPattern.findAll content ++ arrowPattern.findAll content

/-- The entry due to an exported variable: it is that of a function if one of its name is
exported. -/
def variableEntry (functions : List FunctionRecord) (name : Text) : ExportRecord :=
  ⟨name, if ∃ f ∈ functions, f.isExported = true ∧ f.name = name then .function else .variable⟩

section Entries

variable {content name : Text} {functions : List FunctionRecord} {classes : List ClassRecord}

theorem function_mem_exports :
    ⟨name, .function⟩ ∈ exports content functions classes ↔
      ∃ f ∈ functions, f.isExported = true ∧ f.name = name := by
  simp only [exports, mem_distinct, List.mem_append, List.mem_map, List.mem_filter]
  constructor
  · rintro (((⟨f, ⟨hf, hexported⟩, ⟨⟩⟩ | ⟨c, -, ⟨⟩⟩) | ⟨n, -, ⟨⟩⟩) | ⟨m, -, ⟨⟩⟩)
    exact ⟨f, hf, hexported, rfl⟩
  · rintro ⟨f, hf, hexported, rfl⟩
    exact .inl (.inl (.inl ⟨f, ⟨hf, hexported⟩, rfl⟩))

theorem variable_mem_exports :
    ⟨name, .variable⟩ ∈ exports content functions classes ↔
      (∃ m ∈ exportVariablePattern.findAll content, m.part .name = name) ∧
        ∀ f ∈ functions, f.name ≠ name := by
  simp only [exports, mem_distinct, List.mem_append, List.mem_map, List.mem_filter]
  constructor
  · rintro (((⟨f, -, ⟨⟩⟩ | ⟨c, -, ⟨⟩⟩) | ⟨n, ⟨hm, hfree⟩, ⟨⟩⟩) | ⟨m, -, ⟨⟩⟩)
    exact ⟨hm, fun f hf hname => of_decide_eq_true hfree ⟨f, hf, hname⟩⟩
  · rintro ⟨hm, hfree⟩
    have hnot : ¬ ∃ f ∈ functions, f.name = name := fun ⟨f, hf, hname⟩ => hfree f hf hname
    exact .inl (.inr ⟨name, ⟨hm, decide_eq_true hnot⟩, rfl⟩)

/-- An exported variable has its entry unless it shares its name with functions of which none is
exported. -/
theorem variableEntry_mem_iff {m : Match} (hm : m ∈ exportVariablePattern.findAll content) :
    variableEntry functions (m.part .name) ∈ exports content functions classes ↔
      ((∃ f ∈ functions, f.name = m.part .name) →
        ∃ f ∈ functions, f.isExported = true ∧ f.name = m.part .name) := by
  unfold variableEntry
  split
  case isTrue hexported =>
    rw [function_mem_exports]
    exact ⟨fun h _ => h, fun _ => hexported⟩
  case isFalse hexported =>
    rw [variable_mem_exports]
    constructor
    · rintro ⟨-, hfree⟩ ⟨f, hf, hname⟩
      exact absurd hname (hfree f hf)
    · intro h
      exact ⟨⟨m, hm, rfl⟩, fun f hf hname => hexported (h ⟨f, hf, hname⟩)⟩

end Entries

theorem exists_mem_functions {content : Text} {P : Text → Bool → Prop} :
    (∃ f ∈ functions content, P f.name f.isExported) ↔
      ∃ k ∈ functionMatches content, P (k.part .name) (saidBefore "export" k) := by
  simp only [functions, functionMatches, List.mem_append, or_and_right, exists_or, List.mem_map,
    exists_exists_and_eq_and]
  rfl

/-- The exports of a file have an entry for an exported variable, as a function if an exported
function has its name and as a variable otherwise, if and only if no function of that name stands in
the file or one of them stands behind the word `export` on its line. -/
theorem exported_variable_iff {path language content : Text}
    (h : Language.family? (Language.normalize language path) = Option.some .ecmaScript) {m : Match}
    (hm : m ∈ exportVariablePattern.findAll content) :
    variableEntry (Scan.of path language (Option.some content)).file.functions (m.part .name) ∈
        (Scan.of path language (Option.some content)).file.exports ↔
      ((∃ k ∈ functionMatches content, k.part .name = m.part .name) →
        ∃ k ∈ functionMatches content,
          saidBefore "export" k = true ∧ k.part .name = m.part .name) := by
  have hname := @exists_mem_functions content fun name _ => name = m.part .name
  have hexported := @exists_mem_functions content fun name exported =>
    exported = true ∧ name = m.part .name
  have hscan : (Scan.of path language (Option.some content)).file =
      scan path language content := by simp only [Scan.of, h]
  rw [hscan, ← hname, ← hexported]
  exact variableEntry_mem_iff hm

def exportingText : Text := "export const run = () => 1;\nexport let size = 2;\n"

theorem exported_variables_kept :
    ∃ run ∈ exportVariablePattern.findAll exportingText,
      ∃ size ∈ exportVariablePattern.findAll exportingText,
        let file := (Scan.of "m.ts" "tsx" (Option.some exportingText)).file
        run.part .name = "run" ∧ variableEntry file.functions (run.part .name) ∈ file.exports ∧
          size.part .name = "size" ∧
            variableEntry file.functions (size.part .name) ∈ file.exports := by
  have hfamily := family?_normalize "tsx" (by decide) "m.ts"
  obtain ⟨run, hrun, size, hsize, ⟨hnamed, hkept⟩, hnamed', hfree⟩ :
      ∃ run ∈ exportVariablePattern.findAll exportingText,
        ∃ size ∈ exportVariablePattern.findAll exportingText,
          (run.part .name = "run" ∧ ∃ k ∈ functionMatches exportingText,
            saidBefore "export" k = true ∧ k.part .name = run.part .name) ∧
          size.part .name = "size" ∧
            ∀ k ∈ functionMatches exportingText, k.part .name ≠ size.part .name := by
    decide +kernel
  have hentry := (exported_variable_iff hfamily hrun).2 fun _ => hkept
  have hentry' := (exported_variable_iff hfamily hsize).2
    fun ⟨k, hk, hname⟩ => absurd hname (hfree k hk)
  exact ⟨run, hrun, size, hsize, hnamed, hentry, hnamed', hentry'⟩

def namesakeText : Text :=
  "export const run = 1;\nfunction outer() \x7b\n  function run() \x7b\x7d\n\x7d\n"

theorem exports_of_namesake :
    (exportVariablePattern.findAll namesakeText).map (·.part .name) = ["run"] ∧
      (Scan.of "m.ts" "typescript" (Option.some namesakeText)).file.exports = [] := by
  decide +kernel

end CodeAtlas.Script
