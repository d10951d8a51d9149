import CodeAtlas.Proofs.Source.Names
import CodeAtlas.Proofs.Text.Lines

set_option autoImplicit false

namespace CodeAtlas

open Text (OneLine)

theorem oneLine_of_mem_splitNames {t item : Text} (h : item ∈ splitNames t) : item.OneLine := by
  obtain ⟨part, -, rfl⟩ := List.mem_map.1 h
  exact Text.oneLine_collapse part

theorem sublist_typeName (t : Text) : (typeName t).Sublist t := by
  unfold typeName
  simp only
  split
  · exact (Text.sublist_dropRight _ _).trans (List.takeWhile_sublist _)
  · exact .refl t

theorem sublist_cutTopLevel {target : Char} {t head : Text} {value : Option Text}
    (h : cutTopLevel target t = (head, value)) :
    head.Sublist t ∧ ∀ v ∈ value, v.Sublist t := by
  unfold cutTopLevel at h
  split at h
  · cases h
    exact ⟨.refl t, by simp⟩
  · rename_i i hi
    cases h
    refine ⟨(Text.sublist_strip _).trans (List.take_sublist _ _), fun v hv => ?_⟩
    cases hv
    exact (Text.sublist_strip _).trans (List.drop_sublist _ _)

structure Parameter.OneLine (p : Parameter) : Prop where
  name : p.name.OneLine
  type : ∀ t ∈ p.type, t.OneLine
  defaultValue : ∀ v ∈ p.defaultValue, v.OneLine

structure FunctionRecord.OneLine (f : FunctionRecord) : Prop where
  name : f.name.OneLine
  parameters : ∀ p ∈ f.parameters, p.OneLine

structure ClassRecord.OneLine (c : ClassRecord) : Prop where
  name : c.name.OneLine
  parent : ∀ t ∈ c.parent, t.OneLine
  interfaces : ∀ ts ∈ c.interfaces, ∀ t ∈ ts, t.OneLine

namespace Parameter

theorem oneLine_of_ofItem? {mark : Bool} {item : Text} (hitem : item.OneLine) {p : Parameter}
    (h : ofItem? mark item = some p) : p.OneLine := by
  rw [ofItem?] at h
  split at h
  · cases h
  · rcases hvalue : cutTopLevel '=' item with ⟨typed, value⟩
    rcases htype : cutTopLevel ':' typed with ⟨head, type⟩
    obtain ⟨htyped, hv⟩ := sublist_cutTopLevel hvalue
    obtain ⟨hhead, ht⟩ := sublist_cutTopLevel htype
    simp only [hvalue, htype] at h
    split at h
    · cases h
    · cases h
      constructor
      case name =>
        refine (hitem.sublist htyped).sublist (.trans ?_ hhead)
        exact (Text.sublist_strip _).trans
          ((List.dropWhile_sublist _).trans (Text.sublist_dropRight _ _))
      case type =>
        intro t hmem
        exact (hitem.sublist htyped).sublist (ht t (Option.mem_filter_iff.1 hmem).1)
      case defaultValue => exact fun v hmem => hitem.sublist (hv v hmem)

theorem oneLine_of_mem_parse {mark : Bool} {t : Text} {p : Parameter} (h : p ∈ parse mark t) :
    p.OneLine := by
  obtain ⟨item, -, hitem⟩ := List.mem_filterMap.1 h
  exact oneLine_of_ofItem? (Text.oneLine_collapse item) hitem

end Parameter

theorem Script.mem_inOrder {α : Type} {found : List (Nat × α)} {x : α} :
    x ∈ inOrder found ↔ ∃ place, (place, x) ∈ found := by
  simp only [inOrder, List.mem_map, List.mem_mergeSort, Prod.exists, exists_eq_right]

theorem IsName.oneLine {t : Text} (h : IsName t) : t.OneLine :=
  Text.oneLine_of_class (by decide) h

namespace Script

open Pattern (Within Confines again char mem_part_of_mem_findAll)

theorem oneLine_of_mem_functions {content : Text} {f : FunctionRecord}
    (h : f ∈ functions content) : f.OneLine where
  name := (isName_of_mem_functions h).oneLine
  parameters := by
    intro p hp
    rcases List.mem_append.1 h with h | h
    · obtain ⟨m, -, rfl⟩ := List.mem_map.1 h
      exact Parameter.oneLine_of_mem_parse hp
    · obtain ⟨m, -, rfl⟩ := List.mem_map.1 h
      exact Parameter.oneLine_of_mem_parse hp

theorem oneLine_of_mem_classes {content : Text} {c : ClassRecord} (h : c ∈ classes content) :
    c.OneLine where
  name := (isName_of_mem_classes h).oneLine
  parent := by
    obtain ⟨m, hm, rfl⟩ := List.mem_map.1 h
    have hident : ident.Within fun x => isIdentPart x || x == '.' :=
      ⟨fun x hx => by simp [isIdentPart_of_isIdentStart hx], fun x hx => by simp [hx]⟩
    have hclass : classPattern.Confines .parent fun x => isIdentPart x || x == '.' := by
      have hparent : (ident ++ again (char '.' ++ ident)).Within
          fun x => isIdentPart x || x == '.' :=
            ⟨hident, fun x hx => by simp [List.mem_singleton.1 hx], hident⟩
      simp [classPattern, typeArguments, Confines, hparent]
    intro t ht
    have hpart : t = m.part .parent := by
      rw [Match.part, show m.part? .parent = some t from ht]
      rfl
    exact Text.oneLine_of_class (by decide) fun x hx =>
      mem_part_of_mem_findAll hclass hm (hpart ▸ hx)
  interfaces := by
    obtain ⟨m, -, rfl⟩ := List.mem_map.1 h
    intro ts hts t ht
    obtain ⟨u, -, rfl⟩ := Option.map_eq_some_iff.1 hts
    obtain ⟨item, hitem, rfl⟩ := List.mem_map.1 ht
    exact (oneLine_of_mem_splitNames hitem).sublist (sublist_typeName item)

/-- The sources of imports are what the three patterns find between quotes. -/
theorem forall_source_iff {content : Text} {P : Text → Prop} :
    (∀ i ∈ imports content, P i.source) ↔
      ∀ a ∈ [importPattern, bareImportPattern, requirePattern],
        ∀ m ∈ a.findAll content, P (m.part .source) := by
  simp only [imports, mem_inOrder, List.forall_mem_cons, List.mem_append, List.mem_map, placed,
    Prod.mk.injEq]
  constructor
  · intro h
    exact ⟨fun m hm => h _ ⟨_, .inl (.inl ⟨m, hm, rfl, rfl⟩)⟩,
      fun m hm => h _ ⟨_, .inl (.inr ⟨m, hm, rfl, rfl⟩)⟩,
      fun m hm => h _ ⟨_, .inr ⟨m, hm, rfl, rfl⟩⟩, by simp⟩
  · rintro ⟨himport, hbare, hrequire, -⟩ i
      ⟨-, (⟨m, hm, -, rfl⟩ | ⟨m, hm, -, rfl⟩) | ⟨m, hm, -, rfl⟩⟩
    · exact himport m hm
    · exact hbare m hm
    · exact hrequire m hm

end Script

namespace Python

open Pattern (Within Confines many mem_part_of_mem_findAll)

theorem oneLine_of_mem_functions {content : Text} {f : FunctionRecord}
    (h : f ∈ functions content) : f.OneLine where
  name := (isName_of_mem_functions h).oneLine
  parameters := by
    obtain ⟨m, -, rfl⟩ := List.mem_map.1 h
    exact fun p hp => Parameter.oneLine_of_mem_parse hp

theorem oneLine_of_mem_basesOf {m : Match} {t : Text} (h : t ∈ basesOf m) : t.OneLine := by
  obtain ⟨item, hitem, rfl⟩ := List.mem_map.1 h
  exact (oneLine_of_mem_splitNames (List.mem_filter.1 hitem).1).sublist (sublist_typeName item)

theorem oneLine_of_mem_classes {content : Text} {c : ClassRecord} (h : c ∈ classes content) :
    c.OneLine where
  name := (isName_of_mem_classes h).oneLine
  parent := by
    obtain ⟨m, -, rfl⟩ := List.mem_map.1 h
    exact fun t ht => oneLine_of_mem_basesOf (List.mem_of_mem_head? ht)
  interfaces := by
    obtain ⟨m, -, rfl⟩ := List.mem_map.1 h
    intro ts hts t ht
    have hbases : t ∈ basesOf m := by
      simp only [classOf] at hts
      split at hts
      · rename_i heq
        cases hts
        rw [heq]
        exact .tail _ ht
      · cases hts
    exact oneLine_of_mem_basesOf hbases

theorem oneLine_of_mem_imports {content : Text} {i : ImportRecord} (h : i ∈ imports content) :
    i.source.OneLine := by
  obtain ⟨place, hplace⟩ := Script.mem_inOrder.1 h
  rcases List.mem_append.1 hplace with hfrom | himport
  · obtain ⟨m, hm, hrecord⟩ := List.mem_map.1 hfrom
    cases hrecord
    have hsource : fromImportPattern.Confines .source fun x => Text.isWord x || x == '.' := by
      have hdotted : (many (· == '.') ++ many fun x => Text.isWord x || x == '.').Within
          fun x => Text.isWord x || x == '.' :=
            ⟨fun x hx => by simp [show (x == '.') = true from hx], fun x hx => hx⟩
      simp [fromImportPattern, gap, toLineEnd, Confines, hdotted]
    exact Text.oneLine_of_class (by decide) fun x hx => mem_part_of_mem_findAll hsource hm hx
  · obtain ⟨m, -, himport⟩ := List.mem_flatMap.1 himport
    obtain ⟨item, hitem, hrecord⟩ := List.mem_map.1 himport
    cases hrecord
    have hline := oneLine_of_mem_splitNames hitem
    show (Text.strip _).OneLine
    cases hcut : Text.cutAt? " as " item with
    | none => exact hline.sublist (Text.sublist_strip item)
    | some parts =>
      obtain ⟨module, known⟩ := parts
      have hmodule : module.OneLine := by
        rw [Text.eq_append_of_cutAt? hcut] at hline
        exact (Text.oneLine_append.1 hline).1
      exact hmodule.sublist (Text.sublist_strip module)

end Python

structure ParsedFile.OneLine (f : ParsedFile) : Prop where
  functions : ∀ g ∈ f.functions, g.OneLine
  classes : ∀ c ∈ f.classes, c.OneLine

def SourceFile.IsScript (f : SourceFile) : Prop :=
  Language.family? (Language.normalize f.language f.path) = some .ecmaScript

instance (f : SourceFile) : Decidable f.IsScript :=
  inferInstanceAs (Decidable (Language.family? _ = _))

namespace Scan

theorem oneLine_ofFile (f : SourceFile) : (ofFile f).file.OneLine := by
  unfold ofFile of
  split
  · exact ⟨by simp, by simp⟩
  · exact ⟨by simp, by simp⟩
  · exact ⟨fun g => Script.oneLine_of_mem_functions, fun c => Script.oneLine_of_mem_classes⟩
  · exact ⟨fun g => Python.oneLine_of_mem_functions, fun c => Python.oneLine_of_mem_classes⟩

theorem imports_of_isScript {f : SourceFile} (h : f.IsScript) :
    (ofFile f).file.imports = Script.imports f.content := by
  rw [SourceFile.IsScript] at h
  unfold ofFile of
  rw [h]
  rfl

theorem oneLine_source {f : SourceFile} (h : ¬ f.IsScript) {i : ImportRecord}
    (hi : i ∈ (ofFile f).file.imports) : i.source.OneLine := by
  rw [SourceFile.IsScript] at h
  unfold ofFile of at hi
  split at hi
  · cases hi
  · cases hi
  · rename_i hscript _
    exact absurd hscript h
  · exact Python.oneLine_of_mem_imports hi

end Scan

end CodeAtlas
