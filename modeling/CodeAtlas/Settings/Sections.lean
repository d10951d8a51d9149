import CodeAtlas.Fault
import CodeAtlas.Service.Provider

set_option autoImplicit false

namespace CodeAtlas

namespace Sections

def service : Text := "llm"

def generation : Text := "generation"

def serviceFields (file : Fields) : Except Fault Fields :=
  ((Fields.get? file service).getD (.record [])).fields

def generationValue (file : Fields) : Data := (Fields.get? file generation).getD (.record [])

def providerOf (fields : Fields) : Text :=
  Text.lower ((Fields.get? fields "provider").getD (.text Provider.standard.name)).display

/-- Whether a value counts as set; only the empty text does not. -/
def isSet : Data → Bool
  | .null => false
  | .text t => !t.isEmpty
  | _ => true

def setAll (fields : Fields) (more : Fields) : Fields :=
  more.foldl (fun fs (name, v) => Fields.set name v fs) fields

/-- The service that a file asks for: the fields set in its section over those of the provider. -/
def effectiveService (file : Fields) : Except Fault Fields := do
  let fields ← serviceFields file
  let provider := providerOf fields
  let base := (Provider.ofName provider).defaults
  return Fields.set "provider" (.text provider)
    (setAll base (fields.filter fun (_, v) => isSet v))

end Sections

inductive SettingsChange where
  | save (provider model apiKey endpoint : Data)
  | clear

namespace SettingsChange

/-- The section of the service that a change leaves. Keys and endpoints that are not given are left
out. -/
def section? : SettingsChange → Option Fields
  | .clear => none
  | .save provider model apiKey endpoint =>
    let chosen : Fields := [("provider", provider), ("model", model)]
    let optional : Fields := [("api_key", apiKey), ("endpoint", endpoint)]
    some (chosen ++ optional.filter fun (_, v) => v.isPresent)

def apply (change : SettingsChange) (file : Fields) : Fields :=
  match change.section? with
  | some fields => Fields.set Sections.service (.record fields) file
  | none => Fields.erase Sections.service file

theorem get?_apply_of_ne {name : Text} (h : name ≠ Sections.service) (change : SettingsChange)
    (file : Fields) : Fields.get? (change.apply file) name = Fields.get? file name := by
  unfold apply
  split
  · exact Fields.get?_set_of_ne h _ file
  · exact Fields.get?_erase_of_ne h file

theorem get?_apply_self (change : SettingsChange) (file : Fields) :
    Fields.get? (change.apply file) Sections.service = change.section?.map .record := by
  unfold apply
  split
  · next fields h => rw [Fields.get?_set_self, h]; rfl
  · next h => rw [Fields.get?_erase_self, h]; rfl

end SettingsChange

end CodeAtlas
