import CodeAtlas.Settings.Resolve

/-!
The settings file. How its sections are written as text is left to a format. What stands at its
place may be no readable file, which counts as a file without sections and is noticed; writing then
fails, and nothing is changed. What is noticed of an access stays noticed when the access ends with
a fault.
-/

set_option autoImplicit false

namespace CodeAtlas

/-- How sections are read from a text, if it has any, and written as one. Values that only the
format knows, such as dates, are represented in whatever way it chooses. -/
structure SettingsFormat where
  read : Text → Option Fields
  write : Fields → Text

inductive SettingsPlace where
  | absent
  | file (content : Text)
  | directory
  | blocked
  deriving DecidableEq, Repr

namespace SettingsPlace

def content? : SettingsPlace → Option Text
  | .file content => some content
  | _ => none

def isWritable : SettingsPlace → Bool
  | .absent | .file _ => true
  | .directory | .blocked => false

def sections? (format : SettingsFormat) : SettingsPlace → Option Fields
  | .absent | .blocked => some []
  | .file content => format.read content
  | .directory => none

end SettingsPlace

inductive SettingsNotice where
  | unreadable
  | notWritten
  deriving DecidableEq, Repr

structure SettingsStore where
  format : SettingsFormat
  place : SettingsPlace := .absent
  environment : Environment := []
  notices : List SettingsNotice := []

abbrev SettingsAccess := ExceptT Fault (StateM SettingsStore)

namespace SettingsStore

variable {α : Type}

def exec (access : SettingsAccess α) (s : SettingsStore) : Except Fault α × SettingsStore :=
  (ExceptT.run access).run s

def notice (n : SettingsNotice) : SettingsAccess Unit :=
  modifyThe SettingsStore fun s => { s with notices := s.notices ++ [n] }

def load : SettingsAccess Fields := do
  let s ← getThe SettingsStore
  match s.place.sections? s.format with
  | some fields => return fields
  | none =>
    notice .unreadable
    return []

def store (file : Fields) : SettingsAccess Bool := do
  let s ← getThe SettingsStore
  if s.place.isWritable then
    set { s with place := .file (s.format.write file) }
    return true
  else
    notice .notWritten
    return false

def change (c : SettingsChange) : SettingsAccess Bool := do
  let file ← load
  store (c.apply file)

def service : SettingsAccess Fields := do
  let file ← load
  liftM (Sections.effectiveService file)

def generation : SettingsAccess Data := do
  let file ← load
  return Sections.generationValue file

/-- The settings of a process. The file is read twice, for the service and for the generation. -/
def settings (asked : Overrides) : SettingsAccess Settings := do
  let chosen : Fields ← liftM (Settings.chooseService asked.provider (← load))
  let generation ← generation
  let s ← getThe SettingsStore
  liftM (Settings.ofSections asked chosen generation s.environment)

theorem exec_load_of_sections {s : SettingsStore} {fields : Fields}
    (h : s.place.sections? s.format = some fields) : exec load s = (.ok fields, s) := by
  have hget : exec load s = exec (match s.place.sections? s.format with
      | some fields => return fields
      | none => do
        notice .unreadable
        return []) s := rfl
  rw [hget, h]
  rfl

end SettingsStore

end CodeAtlas
