import CodeAtlas.Proofs.Pattern.Concatenation
import CodeAtlas.Proofs.Source.Order
import CodeAtlas.Source.Scan

set_option autoImplicit false

namespace CodeAtlas

def FunctionRecord.lower (lines : Nat) (f : FunctionRecord) : FunctionRecord :=
  { f with startLine := f.startLine + lines, endLine := f.endLine + lines }

def ClassRecord.lower (lines : Nat) (c : ClassRecord) : ClassRecord :=
  { c with startLine := c.startLine + lines, endLine := c.endLine + lines }

/-- A file that has what one file has, and then what another one has, some lines further down. Of
the exports this is said kind by kind, as functions come before classes. -/
structure ParsedFile.Joins (lines : Nat) (first second whole : ParsedFile) : Prop where
  functions : whole.functions = first.functions ++ second.functions.map (·.lower lines)
  classes : whole.classes = first.classes ++ second.classes.map (·.lower lines)
  imports : whole.imports = first.imports ++ second.imports
  exportedFunctions : whole.exports.filter (·.kind = .function) =
    first.exports.filter (·.kind = .function) ++ second.exports.filter (·.kind = .function)
  exportedClasses : whole.exports.filter (·.kind = .type) =
    first.exports.filter (·.kind = .type) ++ second.exports.filter (·.kind = .type)

namespace Python

open Pattern
open Cursor (extend behind)

variable {s t : Text}

-- No pattern leads over the end of a sealed text: it stays on its line but for brackets, and these
-- close in the text.

theorem moves_functionPattern : functionPattern.Moves (extend t) AtSealed AtSealed := by
  have hline : (lineStart ++ optional (mark .asynchronous (text "async" ++ gap)) ++ text "def"
      ++ gap ++ mark .name (Pattern.some Text.isWord) ++ indent).Moves (extend t) AtSealed AtSealed :=
    moves_extend (by decide)
  exact ((hline.append moves_opening).append (moves_inside.mark .parameters)).append moves_closing

theorem moves_classPattern : classPattern.Moves (extend t) AtSealed AtSealed := by
  have hname : (lineStart ++ text "class" ++ gap ++ mark .name (Pattern.some Text.isWord)
      ++ indent).Moves (extend t) AtSealed AtSealed := moves_extend (by decide)
  have hbases := (moves_opening (t := t)).append (moves_inside.mark .bases) |>.append moves_closing
  have hindent : indent.Moves (extend t) AtSealed AtSealed := moves_extend (by decide)
  have hcolon : (char ':').Moves (extend t) AtSealed AtSealed := moves_extend (by decide)
  exact ((hname.append hbases.optional).append hindent).append hcolon

theorem moves_fromImportPattern : fromImportPattern.Moves (extend t) AtSealed AtSealed := by
  have hsource : (lineStart ++ text "from" ++ gap
      ++ mark .source (many (· == '.') ++ many fun c => Text.isWord c || c == '.') ++ gap
      ++ text "import" ++ gap).Moves (extend t) AtSealed AtSealed := moves_extend (by decide)
  have hnames := (moves_opening (t := t)).append moves_inside |>.append moves_closing
  exact hsource.append ((hnames.either (moves_extend (by decide))).mark .names)

theorem moves_importPattern : importPattern.Moves (extend t) AtSealed AtSealed :=
  moves_extend (by decide)

section Records

variable (t : Text) (m : Match) (passed : List Char)

theorem functionOf_extend : functionOf (m.move (extend t)) = functionOf m := by
  simp [functionOf]

theorem functionOf_behind :
    functionOf (m.move (behind passed)) = (functionOf m).lower (passed.count '\n') := by
  simp [functionOf, FunctionRecord.lower, Nat.add_right_comm]

theorem classOf_extend : classOf (m.move (extend t)) = classOf m := by
  simp [classOf, basesOf]

theorem classOf_behind :
    classOf (m.move (behind passed)) = (classOf m).lower (passed.count '\n') := by
  simp [classOf, basesOf, ClassRecord.lower, Nat.add_right_comm]

end Records

section Places

def fromFound (s : Text) : List (Nat × ImportRecord) :=
  (fromImportPattern.findAll s).map (Script.placed fromImportOf)

def modulesFound (s : Text) : List (Nat × ImportRecord) :=
  (importPattern.findAll s).flatMap fun m =>
    (splitNames (m.part .names)).map fun item => (m.position, importOf item)

def further (n : Nat) (x : Nat × ImportRecord) : Nat × ImportRecord := (x.1 + n, x.2)

variable {x : Nat × ImportRecord}

theorem place_lt_of_mem_fromFound (h : x ∈ fromFound s) : x.1 < s.length := by
  obtain ⟨m, hm, rfl⟩ := List.mem_map.1 h
  exact position_lt_of_mem_findAll hm

theorem place_lt_of_mem_modulesFound (h : x ∈ modulesFound s) : x.1 < s.length := by
  obtain ⟨m, hm, hx⟩ := List.mem_flatMap.1 h
  obtain ⟨item, -, rfl⟩ := List.mem_map.1 hx
  exact position_lt_of_mem_findAll hm

end Places

section Texts

variable (t) (hs : s = [] ∨ Sealed s)
include hs

theorem functions_append :
    functions (s ++ t) = functions s ++ (functions t).map (·.lower (s.count '\n')) :=
  map_findAll_append moves_functionPattern (by decide) hs (functionOf_extend t) fun m => by
    rw [functionOf_behind, List.count_reverse]

theorem classes_append :
    classes (s ++ t) = classes s ++ (classes t).map (·.lower (s.count '\n')) :=
  map_findAll_append moves_classPattern (by decide) hs (classOf_extend t) fun m => by
    rw [classOf_behind, List.count_reverse]

theorem fromFound_append :
    fromFound (s ++ t) = fromFound s ++ (fromFound t).map (further s.length) :=
  map_findAll_append moves_fromImportPattern (by decide) hs
    (fun m => by simp [Script.placed, fromImportOf])
    fun m => by simp [Script.placed, fromImportOf, further]

theorem modulesFound_append :
    modulesFound (s ++ t) = modulesFound s ++ (modulesFound t).map (further s.length) :=
  flatMap_findAll_append moves_importPattern (by decide) hs (fun m => by simp)
    fun m => by simp [further, Function.comp_def]

/-- Imports are put into the order of their places, and all places of the first text come before
those of the second. -/
theorem imports_append : imports (s ++ t) = imports s ++ imports t := by
  have hbefore : ∀ x ∈ fromFound s ++ modulesFound s, x.1 < s.length := fun x hx =>
    (List.mem_append.1 hx).elim place_lt_of_mem_fromFound place_lt_of_mem_modulesFound
  have hbehind : ∀ x ∈ (fromFound t).map (further s.length) ++
      (modulesFound t).map (further s.length), s.length ≤ x.1 := by
    intro x hx
    rw [← List.map_append] at hx
    obtain ⟨y, -, rfl⟩ := List.mem_map.1 hx
    exact Nat.le_add_left _ _
  calc imports (s ++ t)
      = Script.inOrder (fromFound (s ++ t) ++ modulesFound (s ++ t)) := rfl
    _ = imports s ++ Script.inOrder ((fromFound t).map (further s.length) ++
          (modulesFound t).map (further s.length)) := by
        rw [fromFound_append t hs, modulesFound_append t hs,
          Script.inOrder_append hbefore hbehind]
        rfl
    _ = imports s ++ imports t := by
        rw [← List.map_append]
        exact congrArg (imports s ++ ·) (Script.inOrder_map_add s.length _)

theorem scan_joins (path language : Text) :
    ParsedFile.Joins (s.count '\n') (scan path language s) (scan path language t)
      (scan path language (s ++ t)) where
  functions := functions_append t hs
  classes := classes_append t hs
  imports := imports_append t hs
  exportedFunctions := by
    simp [scan, functions_append t hs, List.filter_map, Function.comp_def, FunctionRecord.lower]
  exportedClasses := by
    simp [scan, classes_append t hs, List.filter_map, Function.comp_def, ClassRecord.lower]

end Texts

/-- Scanning is compositional: a text that ends with a line, and in which a round bracket closes
behind each that opens, is scanned as if nothing followed it, and what follows as if it stood alone
further down. -/
theorem scan_append {path language s t : Text} (hends : s = [] ∨ s.getLast? = some '\n')
    (hcloses : ∀ u v, s = u ++ '(' :: v → ')' ∈ v)
    (hpython : Language.family? (Language.normalize language path) = some .python) :
    ParsedFile.Joins (s.count '\n') (Scan.of path language (some s)).file
      (Scan.of path language (some t)).file (Scan.of path language (some (s ++ t))).file := by
  have hs : s = [] ∨ Sealed s := hends.imp_right fun hlast => ⟨hlast, hcloses⟩
  simpa only [Scan.of, hpython] using scan_joins t hs path language

theorem mem_of_closed_last {u v a b : Text} (hb : '(' ∉ b)
    (h : a ++ ')' :: b = u ++ '(' :: v) : ')' ∈ v := by
  rcases List.append_eq_append_iff.1 h with ⟨w, -, hw⟩ | ⟨w, -, hw⟩
  · cases w with
    | nil => cases hw
    | cons x w =>
      obtain ⟨-, rfl⟩ := List.cons.inj hw
      simp at hb
  · cases w with
    | nil => cases hw
    | cons x w =>
      obtain ⟨-, rfl⟩ := List.cons.inj hw
      simp

theorem scan_append_two_modules :
    ParsedFile.Joins 3
      (Scan.of "m.py" "py" (some "import os, re as r\ndef run(a,\n    b=1): pass\n")).file
      (Scan.of "m.py" "py" (some "class Box(Base):\n    pass\nfrom .a import (b")).file
      (Scan.of "m.py" "py" (some ("import os, re as r\ndef run(a,\n    b=1): pass\n" ++
        "class Box(Base):\n    pass\nfrom .a import (b"))).file := by
  have hends : ("import os, re as r\ndef run(a,\n    b=1): pass\n" : Text).getLast? =
      some '\n' := by decide
  have hpython : Language.family? (Language.normalize "py" "m.py") = some .python := by
    decide +kernel
  exact scan_append (.inr hends)
    (fun u v => mem_of_closed_last (a := "import os, re as r\ndef run(a,\n    b=1")
      (b := ": pass\n") (by decide)) hpython

end Python

end CodeAtlas
