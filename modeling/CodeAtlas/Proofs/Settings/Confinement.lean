import CodeAtlas.Proofs.Data.Equality
import CodeAtlas.Proofs.Settings.Resolution
import CodeAtlas.Service.Connection
import CodeAtlas.Toml.Format

set_option autoImplicit false

namespace CodeAtlas

/-- The section of the service names a provider other than a given one, in any letter case. One that
names none means the standard provider. -/
def Sections.NamesOther (file : Fields) (q : Text) : Prop :=
  ∃ fields, serviceFields file = .ok fields ∧ providerOf fields ≠ Text.lower q

namespace Settings

def forProvider (asked : Overrides) (q : Text) (env : Environment) (l : Limits) : Settings where
  provider := Text.lower q
  model := asked.model.orElse (.text (Provider.ofName (Text.lower q)).model)
  apiKey := asked.apiKey.orElse (.text (env.apiKey (Text.lower q)))
  endpoint := asked.endpoint.orElse (.text (Provider.ofName (Text.lower q)).endpoint)
  maxOutputTokens := l.maxOutputTokens
  timeout := l.timeout
  relatedDepth := l.relatedDepth
  workers := l.workers

/-- Of the file, only that it names another provider matters. -/
theorem chooseService_of_namesOther {file : Fields} {q : Text} (hq : q ≠ [])
    (h : Sections.NamesOther file q) :
    chooseService (.text q) file = .ok
      (Fields.set "provider" (.text (Text.lower q)) (Provider.ofName (Text.lower q)).defaults) := by
  obtain ⟨fields, hfields, hother⟩ := h
  have hpresent : (Data.text q).isPresent = true := by
    simp [Data.isPresent_text, hq]
  obtain ⟨service, hservice, hname⟩ : ∃ service, Sections.effectiveService file = .ok service ∧
      fieldOf service "provider" = .text (Sections.providerOf fields) :=
    ⟨_, by rw [Sections.effectiveService, hfields]; rfl, by rw [fieldOf, Fields.get?_set_self]; rfl⟩
  have hprovider : askedProvider? (.text q) = .ok (some (Text.lower q)) := by
    rw [askedProvider?, if_pos hpresent]
  unfold chooseService
  rw [hservice, hprovider]
  simp only [bind, Except.bind, hname, Data.display_text, if_neg hother]
  rfl

theorem ofLimits_defaults (asked : Overrides) (q : Text) (env : Environment) :
    ofLimits asked (Fields.set "provider" (.text (Text.lower q))
      (Provider.ofName (Text.lower q)).defaults) env = forProvider asked q env := by
  rfl

end Settings

namespace SettingsStore

structure Confined (asked : Overrides) (q : Text) (s t : SettingsStore) : Prop where
  same : (exec (settings asked) s).1 = (exec (settings asked) t).1
  plain : (exec (settings asked) s).1 =
    Settings.forProvider asked q s.environment <$>
      Settings.limits asked (Sections.generationValue s.sections)
  requests : ∀ a b, (exec (settings asked) s).1 = .ok a → (exec (settings asked) t).1 = .ok b →
    ∀ prompt limit, (Connection.ofSettings a).request prompt limit =
      (Connection.ofSettings b).request prompt limit
  generated : ∀ a b, (exec (settings asked) s).1 = .ok a → (exec (settings asked) t).1 = .ok b →
    ∀ prompt limit transport, (Connection.ofSettings a).generate prompt limit transport =
      (Connection.ofSettings b).generate prompt limit transport

theorem exec_settings_of_namesOther {asked : Overrides} {q : Text}
    (hasked : asked.provider = .text q) (hq : q ≠ []) {s : SettingsStore}
    (h : Sections.NamesOther s.sections q) :
    (exec (settings asked) s).1 = Settings.forProvider asked q s.environment <$>
      Settings.limits asked (Sections.generationValue s.sections) := by
  rw [exec_settings, Settings.resolve, hasked, Settings.chooseService_of_namesOther hq h]
  exact (Settings.ofSections_eq ..).trans (by rw [Settings.ofLimits_defaults])

/-- What is stored for one provider is not used for another. -/
theorem settings_confined {asked : Overrides} {q : Text} (hasked : asked.provider = .text q)
    (hq : q ≠ []) {s t : SettingsStore} (hs : Sections.NamesOther s.sections q)
    (ht : Sections.NamesOther t.sections q)
    (hgeneration : Sections.generationValue s.sections = Sections.generationValue t.sections)
    (henv : s.environment = t.environment) : Confined asked q s t := by
  have hsettings := exec_settings_of_namesOther hasked hq hs
  have hsame : (exec (settings asked) s).1 = (exec (settings asked) t).1 := by
    rw [hsettings, exec_settings_of_namesOther hasked hq ht, hgeneration, henv]
  have hequal : ∀ a b, (exec (settings asked) s).1 = .ok a →
      (exec (settings asked) t).1 = .ok b → a = b := by
    intro a b ha hb
    exact Except.ok.inj (ha.symm.trans (hsame.trans hb))
  constructor
  case same => exact hsame
  case plain => exact hsettings
  case requests =>
    intro a b ha hb prompt limit
    rw [hequal a b ha hb]
  case generated =>
    intro a b ha hb prompt limit transport
    rw [hequal a b ha hb]

theorem sections_of_read {s : SettingsStore} {content : Text} {file : Fields}
    (hplace : s.place = .file content) (h : s.format.read content = some file) :
    s.sections = file := by
  rw [sections, hplace, SettingsPlace.sections?, h]
  rfl

def keySample : SettingsStore where
  format := Toml.format
  place := .file "[llm]\nprovider = \"openai\"\napi_key = \"a\"\n"

def endpointSample : SettingsStore where
  format := Toml.format
  place := .file "[llm]\nprovider = \"Ollama\"\nendpoint = \"b\"\n"

theorem settings_confined_sample :
    Sections.NamesOther keySample.sections "GROQ" ∧
    Sections.NamesOther endpointSample.sections "GROQ" ∧
    Confined { provider := .text "GROQ" } "GROQ" keySample endpointSample ∧
    ∃ a, (exec (settings { provider := .text "GROQ" }) keySample).1 = .ok a := by
  have hkey : keySample.sections =
      [(Sections.service, .record [("provider", .text "openai"), ("api_key", .text "a")])] :=
    sections_of_read rfl (by decide +kernel)
  have hendpoint : endpointSample.sections =
      [(Sections.service, .record [("provider", .text "Ollama"), ("endpoint", .text "b")])] :=
    sections_of_read rfl (by decide +kernel)
  have hs : Sections.NamesOther keySample.sections "GROQ" := by
    rw [hkey]
    exact ⟨_, rfl, by decide +kernel⟩
  have ht : Sections.NamesOther endpointSample.sections "GROQ" := by
    rw [hendpoint]
    exact ⟨_, rfl, by decide +kernel⟩
  have hnone : ∀ service, Sections.generationValue [(Sections.service, service)] = .record [] :=
    fun _ => rfl
  have hconfined : Confined { provider := .text "GROQ" } "GROQ" keySample endpointSample :=
    settings_confined rfl (by decide) hs ht (by rw [hkey, hendpoint, hnone, hnone]) rfl
  refine ⟨hs, ht, hconfined, ?_⟩
  rw [hconfined.plain, hkey, hnone, Settings.limits_of_limited rfl .nil]
  exact ⟨_, rfl⟩

end SettingsStore

end CodeAtlas
