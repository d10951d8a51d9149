import CodeAtlas.Proofs.Pattern.Parts
import CodeAtlas.Source.Scan

set_option autoImplicit false

namespace CodeAtlas

open Pattern (Within Confines mem_part_of_mem_findAll)
open Script (isIdentPart)

def IsName (t : Text) : Prop := ∀ x ∈ t, isIdentPart x = true

theorem IsName.colon_not_mem {t : Text} (h : IsName t) : ':' ∉ t := by
  intro hx
  have hc := h ':' hx
  exact absurd hc (by decide)

theorem isIdentPart_of_isWord {x : Char} (h : Text.isWord x = true) : isIdentPart x = true := by
  simp [isIdentPart, h]

theorem isIdentPart_of_isIdentStart {x : Char} (h : Script.isIdentStart x = true) :
    isIdentPart x = true := by
  simp only [Script.isIdentStart, Bool.or_eq_true, beq_iff_eq] at h
  rcases h with (h | rfl) | rfl
  · refine isIdentPart_of_isWord (Text.isWord_of_isAlphanum ?_ ?_)
    · have hcase : (x.isUpper || x.isLower) = true := h
      have hv : x.toNat = x.val.toNat := rfl
      rcases Bool.or_eq_true_iff.1 hcase with hu | hl
      · have hle : x.val.toNat ≤ 90 := (of_decide_eq_true hu).2
        omega
      · have hle : x.val.toNat ≤ 122 := of_decide_eq_true (Bool.and_eq_true_iff.1 hl).2
        omega
    · exact Bool.or_eq_true_iff.2 (.inl h)
  · decide
  · decide

theorem within_ident : Script.ident.Within isIdentPart :=
  ⟨fun _ => isIdentPart_of_isIdentStart, fun _ hx => hx⟩

@[simp] theorem confines_ident (part : Part) (p : Text.Class) : Script.ident.Confines part p :=
  ⟨trivial, trivial⟩

theorem within_some_isWord : (Pattern.some Text.isWord).Within isIdentPart :=
  ⟨fun _ => isIdentPart_of_isWord, fun _ => isIdentPart_of_isWord⟩

namespace Script

theorem isName_of_mem_functions {content : Text} {f : FunctionRecord} (h : f ∈ functions content) :
    IsName f.name := by
  have hf : functionPattern.Confines .name isIdentPart := by
    simp [functionPattern, typeArguments, parameterList, Confines, within_ident]
  have ha : arrowPattern.Confines .name isIdentPart := by
    simp [arrowPattern, binder, typeArguments, parameterList, Confines, within_ident]
  rcases List.mem_append.1 h with h | h
  · obtain ⟨m, hm, rfl⟩ := List.mem_map.1 h
    exact fun x hx => mem_part_of_mem_findAll hf hm hx
  · obtain ⟨m, hm, rfl⟩ := List.mem_map.1 h
    exact fun x hx => mem_part_of_mem_findAll ha hm hx

theorem isName_of_mem_classes {content : Text} {c : ClassRecord} (h : c ∈ classes content) :
    IsName c.name := by
  have hc : classPattern.Confines .name isIdentPart := by
    simp [classPattern, typeArguments, Confines, within_ident]
  obtain ⟨m, hm, rfl⟩ := List.mem_map.1 h
  exact fun x hx => mem_part_of_mem_findAll hc hm hx

end Script

namespace Python

theorem isName_of_mem_functions {content : Text} {f : FunctionRecord} (h : f ∈ functions content) :
    IsName f.name := by
  have hf : functionPattern.Confines .name isIdentPart := by
    simp [functionPattern, gap, indent, Confines, within_some_isWord]
  obtain ⟨m, hm, rfl⟩ := List.mem_map.1 h
  exact fun x hx => mem_part_of_mem_findAll hf hm hx

theorem isName_of_mem_classes {content : Text} {c : ClassRecord} (h : c ∈ classes content) :
    IsName c.name := by
  have hc : classPattern.Confines .name isIdentPart := by
    simp [classPattern, gap, indent, Confines, within_some_isWord]
  obtain ⟨m, hm, rfl⟩ := List.mem_map.1 h
  exact fun x hx => mem_part_of_mem_findAll hc hm hx

end Python

namespace Scan

theorem isName_of_mem_functions {path language : Text} {content : Option Text}
    {f : FunctionRecord} (h : f ∈ (of path language content).file.functions) : IsName f.name := by
  unfold of at h
  split at h
  · simp at h
  · simp at h
  · exact Script.isName_of_mem_functions h
  · exact Python.isName_of_mem_functions h

theorem isName_of_mem_classes {path language : Text} {content : Option Text}
    {c : ClassRecord} (h : c ∈ (of path language content).file.classes) : IsName c.name := by
  unfold of at h
  split at h
  · simp at h
  · simp at h
  · exact Script.isName_of_mem_classes h
  · exact Python.isName_of_mem_classes h

end Scan

end CodeAtlas
