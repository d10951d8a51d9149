import CodeAtlas.Fault
import CodeAtlas.Source.Basic

set_option autoImplicit false

namespace CodeAtlas

inductive SourceItem where
  | file (f : SourceFile)
  | value (v : Data)

namespace SourceFile

def givenText (fields : Fields) (name : Text) : Text :=
  match Fields.get? fields name with
  | some v => if v.isPresent then v.display else []
  | none => []

def ofData : Data → Except Fault SourceFile
  | .record fields =>
    match Fields.get? fields "path" with
    | some path =>
      .ok { path := path.display, language := givenText fields "language"
            content := givenText fields "content" }
    | none => .error (.missingField "path")
  | v => .error (.notIndexable v)

end SourceFile

namespace SourceItem

def read : SourceItem → Except Fault SourceFile
  | .file f => .ok f
  | .value v => SourceFile.ofData v

def readAll (items : List SourceItem) : Except Fault (List SourceFile) := items.mapM read

def ofData (v : Data) : Except Fault (List SourceItem) :=
  v.members.map fun items => items.map .value

theorem readAll_cons (item : SourceItem) (rest : List SourceItem) :
    readAll (item :: rest) =
      match item.read with
      | .error fault => .error fault
      | .ok f => (readAll rest).map (f :: ·) := by
  unfold readAll
  rw [List.mapM_cons]
  cases item.read with
  | error fault => rfl
  | ok f => cases rest.mapM read <;> rfl

theorem readAll_file (files : List SourceFile) : readAll (files.map .file) = .ok files := by
  induction files with
  | nil => rfl
  | cons f rest ih => rw [List.map_cons, readAll_cons, ih]; rfl

theorem ne_nil_of_readAll {items : List SourceItem} {files : List SourceFile}
    (h : readAll items = .ok files) (hne : items ≠ []) : files ≠ [] := by
  cases items with
  | nil => exact absurd rfl hne
  | cons item rest =>
    rw [readAll_cons] at h
    cases hf : item.read with
    | error fault => rw [hf] at h; cases h
    | ok f =>
      rw [hf] at h
      cases hr : readAll rest with
      | error fault => rw [hr] at h; cases h
      | ok fs => rw [hr] at h; cases h; exact List.cons_ne_nil f fs

theorem kind_of_read {item : SourceItem} {fault : Fault} (h : item.read = .error fault) :
    fault.kind = .missingKey ∨ fault.kind = .mismatch := by
  cases item with
  | file f => cases h
  | value v =>
    cases v with
    | record fields =>
      simp only [read, SourceFile.ofData] at h
      cases hp : Fields.get? fields "path" with
      | some path => rw [hp] at h; cases h
      | none => rw [hp] at h; cases h; exact .inl rfl
    | _ => cases h; exact .inr rfl

theorem kind_of_readAll {items : List SourceItem} {fault : Fault}
    (h : readAll items = .error fault) : fault.kind = .missingKey ∨ fault.kind = .mismatch := by
  induction items with
  | nil => cases h
  | cons item rest ih =>
    rw [readAll_cons] at h
    cases hf : item.read with
    | error other => rw [hf] at h; cases h; exact kind_of_read hf
    | ok f =>
      rw [hf] at h
      cases hr : readAll rest with
      | error other => rw [hr] at h; cases h; exact ih hr
      | ok fs => rw [hr] at h; cases h

end SourceItem

end CodeAtlas
