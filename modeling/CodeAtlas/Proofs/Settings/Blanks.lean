import CodeAtlas.Proofs.Settings.Confinement

/-!
Blank entries of the section of the service. A blank model, key or endpoint counts as none, since
only what is set is put over what the provider has. The provider itself is put in last and is taken
as it stands. Main statement: without its blank entries a table gives the same settings, and the same
connection, for whatever is asked for, unless the blank entry is that of the provider.
-/

set_option autoImplicit false

namespace CodeAtlas

namespace Sections

def texts (table : List (Text × Text)) : Fields := table.map fun (name, t) => (name, .text t)

def filled (table : List (Text × Text)) : List (Text × Text) :=
  table.filter fun (_, t) => !t.isEmpty

def BlankProvider (table : List (Text × Text)) : Prop :=
  table.lookup ("provider" : Text) = some []

variable {table : List (Text × Text)}

theorem unique_texts (h : (table.map (·.1)).Nodup) : (texts table).Unique := by
  rw [Fields.Unique, texts, List.map_map]
  exact h

theorem texts_filled (table : List (Text × Text)) :
    texts (filled table) = (texts table).filter fun (_, v) => isSet v := by
  rw [texts, texts, filled, List.filter_map]
  rfl

theorem filter_isSet_filled (table : List (Text × Text)) :
    (texts (filled table)).filter (fun (_, v) => isSet v) =
      (texts table).filter fun (_, v) => isSet v := by
  rw [texts_filled, List.filter_filter]
  simp

theorem get?_filled (h : (table.map (·.1)).Nodup) (name : Text) :
    Fields.get? (texts (filled table)) name =
      (Fields.get? (texts table) name).filter isSet := by
  rw [texts_filled, Fields.get?_filter (unique_texts h)]

theorem get?_texts (table : List (Text × Text)) (name : Text) :
    Fields.get? (texts table) name = (table.lookup name).map .text := by
  induction table with
  | nil => rfl
  | cons entry rest ih =>
    obtain ⟨n, t⟩ := entry
    have hcons : texts ((n, t) :: rest) = (n, .text t) :: texts rest := rfl
    rw [hcons, Fields.get?_cons, ih, List.lookup_cons]
    by_cases hn : name = n
    · simp [hn]
    · simp [hn, beq_eq_false_iff_ne.2 hn]

theorem providerOf_filled (h : (table.map (·.1)).Nodup) (hprovider : ¬ BlankProvider table) :
    providerOf (texts (filled table)) = providerOf (texts table) := by
  rw [providerOf, providerOf, get?_filled h, get?_texts]
  cases hp : table.lookup ("provider" : Text) with
  | none => rfl
  | some p =>
    have hset : isSet (.text p) = true := by
      have hne : p ≠ [] := fun hnil => hprovider (by rw [BlankProvider, hp, hnil])
      simpa [isSet] using hne
    rw [Option.map_some, Option.filter_some, if_pos hset]

/-- A provider that is blank is the empty text in one table, and in the other it is missing and the
standard one is meant. -/
theorem providerOf_of_blank (h : (table.map (·.1)).Nodup) (hblank : BlankProvider table) :
    providerOf (texts table) = [] ∧ providerOf (texts (filled table)) = Provider.standard.name := by
  rw [providerOf, providerOf, get?_filled h, get?_texts, hblank]
  exact ⟨rfl, by decide +kernel⟩

theorem effectiveService_filled {file other : Fields} (h : (table.map (·.1)).Nodup)
    (hprovider : ¬ BlankProvider table)
    (hfile : serviceFields file = .ok (texts table))
    (hother : serviceFields other = .ok (texts (filled table))) :
    effectiveService file = effectiveService other := by
  rw [effectiveService, effectiveService, hfile, hother]
  simp only [bind, Except.bind, providerOf_filled h hprovider, filter_isSet_filled]

end Sections

namespace Settings

open Sections (texts filled)

section Service

variable {file service : Fields} {q : Text}

theorem chooseService_null (h : Sections.effectiveService file = .ok service) :
    chooseService .null file = .ok service := by
  rw [chooseService, h]
  rfl

theorem chooseService_of_same (hq : q ≠ []) (h : Sections.effectiveService file = .ok service)
    (hprovider : Fields.get? service "provider" = some (.text (Text.lower q))) :
    chooseService (.text q) file = .ok service := by
  have hasked : askedProvider? (.text q) = .ok (some (Text.lower q)) := by
    rw [askedProvider?, if_pos (by simp [Data.isPresent_text, hq])]
  have hfield : Data.display (fieldOf service "provider") = Text.lower q := by
    rw [fieldOf, hprovider]
    rfl
  rw [chooseService, h, hasked]
  simp only [bind, Except.bind, hfield]
  rfl

theorem chooseService_eq_error {asked : Data} {fault : Fault}
    (h : Sections.effectiveService file = .ok service)
    (hasked : askedProvider? asked = .error fault) : chooseService asked file = .error fault := by
  rw [chooseService, h, hasked]
  rfl

theorem exists_chooseService {asked : Data} {provider : Option Text}
    (h : Sections.effectiveService file = .ok service)
    (hasked : askedProvider? asked = .ok provider) :
    ∃ chosen, chooseService asked file = .ok chosen := by
  rw [chooseService, h, hasked]
  simp only [bind, Except.bind]
  split
  · exact ⟨_, rfl⟩
  · split
    · exact ⟨_, rfl⟩
    · exact ⟨_, rfl⟩

theorem resolve_of_chosen {asked : Overrides} {l : Limits}
    (hservice : chooseService asked.provider file = .ok service)
    (hlimits : limits asked (Sections.generationValue file) = .ok l) (env : Environment) :
    resolve asked file env = .ok (ofLimits asked service env l) := by
  rw [resolve, hservice]
  show ofSections asked service (Sections.generationValue file) env = _
  rw [ofSections_eq, hlimits]
  rfl

theorem exists_service {fields : Fields} (hfile : Sections.serviceFields file = .ok fields)
    (hunique : fields.Unique) :
    ∃ service, Sections.effectiveService file = .ok service ∧
      Fields.get? service "provider" = some (.text (Sections.providerOf fields)) ∧
      fieldOf service "api_key" =
        ((Fields.get? fields "api_key").filter Sections.isSet).getD (.text []) := by
  obtain ⟨service, hservice, hprovider, hfields⟩ :=
    Sections.get?_effectiveService hfile hunique
  have hnone : ∀ p : Provider, Fields.get? p.defaults "api_key" = none := by
    intro p
    cases p <;> decide +kernel
  exact ⟨service, hservice, hprovider, by rw [fieldOf, hfields _ (by decide), hnone, Option.or_none]⟩

end Service

end Settings

theorem Connection.apiKey_ofSettings {a : Settings}
    (h : Provider.ofName? (Text.lower a.provider) ≠ some .ollama) :
    (Connection.ofSettings a).apiKey = a.apiKey := by
  unfold ofSettings
  split
  · rfl
  · rename_i p hp
    cases p with
    | ollama => exact absurd hp h
    | _ => rfl

namespace SettingsStore

open Sections (texts filled)

/-- The same settings, whatever is asked for and whatever the environment holds. -/
def SameSettings (s t : SettingsStore) : Prop :=
  ∀ asked env, (exec (settings asked) { s with environment := env }).1 =
    (exec (settings asked) { t with environment := env }).1

def SameConnection (s t : SettingsStore) : Prop :=
  ∀ asked env, Connection.ofSettings <$> (exec (settings asked) { s with environment := env }).1 =
    Connection.ofSettings <$> (exec (settings asked) { t with environment := env }).1

/-- One store has a table as its section of the service, and the other has it without the blank
entries. -/
structure Blanked (table : List (Text × Text)) (s t : SettingsStore) : Prop where
  whole : Fields.get? s.sections Sections.service = some (.record (texts table))
  rest : Fields.get? t.sections Sections.service = some (.record (texts (filled table)))
  generation : Sections.generationValue s.sections = Sections.generationValue t.sections

def HasLimits (s : SettingsStore) : Prop :=
  ∃ tokens l, Settings.limits { maxOutputTokens := tokens }
    (Sections.generationValue s.sections) = .ok l

section Blanked

variable {table : List (Text × Text)} {s t : SettingsStore}

theorem serviceFields_of_get? {file fields : Fields}
    (h : Fields.get? file Sections.service = some (.record fields)) :
    Sections.serviceFields file = .ok fields := by
  rw [Sections.serviceFields, h]
  rfl

theorem exec_settings_eq (asked : Overrides) (s : SettingsStore) (env : Environment) :
    (exec (settings asked) { s with environment := env }).1 =
      Settings.resolve asked s.sections env := exec_settings asked _

theorem Blanked.sameSettings (h : Blanked table s t) (hunique : (table.map (·.1)).Nodup)
    (hprovider : ¬ Sections.BlankProvider table) : SameSettings s t := by
  intro asked env
  have hservice := Sections.effectiveService_filled hunique hprovider
    (serviceFields_of_get? h.whole) (serviceFields_of_get? h.rest)
  rw [exec_settings_eq, exec_settings_eq, Settings.resolve, Settings.resolve,
    Settings.chooseService, Settings.chooseService, hservice, h.generation]

/-- The services of two files differ in the name of the provider, which is blank in the first and
the standard one in the second, and have one key. -/
structure Apart (s t : SettingsStore) (v w : Fields) : Prop where
  left : Sections.effectiveService s.sections = .ok v
  right : Sections.effectiveService t.sections = .ok w
  blank : Fields.get? v "provider" = some (.text [])
  standard : Fields.get? w "provider" = some (.text Provider.standard.name)
  other : Sections.NamesOther s.sections Provider.standard.name
  key : Settings.fieldOf v "api_key" = Settings.fieldOf w "api_key"

theorem Blanked.apart (h : Blanked table s t) (hunique : (table.map (·.1)).Nodup)
    (hblank : Sections.BlankProvider table) : ∃ v w, Apart s t v w := by
  obtain ⟨hwhole, hrest⟩ := Sections.providerOf_of_blank hunique hblank
  have hfilled : ((filled table).map (·.1)).Nodup := hunique.sublist (List.filter_sublist.map _)
  obtain ⟨v, hv, hprovider, hkey⟩ := Settings.exists_service
    (serviceFields_of_get? h.whole) (Sections.unique_texts hunique)
  obtain ⟨w, hw, hprovider', hkey'⟩ := Settings.exists_service
    (serviceFields_of_get? h.rest) (Sections.unique_texts hfilled)
  have hother : Sections.NamesOther s.sections Provider.standard.name :=
    ⟨_, serviceFields_of_get? h.whole, by rw [hwhole]; decide⟩
  refine ⟨v, w, hv, hw, by rw [hprovider, hwhole], by rw [hprovider', hrest], hother, ?_⟩
  rw [hkey, hkey', Sections.get?_filled hunique, Option.filter_filter]
  simp

theorem apiKey_ofLimits {asked : Overrides} (hasked : asked.apiKey = .null) {service : Fields}
    {p : Text} (hprovider : Settings.fieldOf service "provider" = .text p)
    (hp : Provider.ofName? (Text.lower p) ≠ some .ollama) {env : Environment}
    {l : Settings.Limits} :
    (Connection.ofSettings (Settings.ofLimits asked service env l)).apiKey =
      (Settings.fieldOf service "api_key").orElse (.text (env.apiKey p)) := by
  rw [Connection.apiKey_ofSettings]
  · rw [Settings.ofLimits, hasked, hprovider]
    rfl
  · rw [Settings.ofLimits, hprovider]
    exact hp

section Apart

variable {v w : Fields} {tokens : Data} {l : Settings.Limits}

theorem exec_settings_null (hservice : Sections.effectiveService s.sections = .ok v)
    (hlimits : Settings.limits { maxOutputTokens := tokens }
      (Sections.generationValue s.sections) = .ok l) (env : Environment) :
    (exec (settings { maxOutputTokens := tokens }) { s with environment := env }).1 =
      .ok (Settings.ofLimits { maxOutputTokens := tokens } v env l) := by
  rw [exec_settings_eq]
  exact Settings.resolve_of_chosen (Settings.chooseService_null hservice) hlimits env

theorem Apart.not_sameSettings (h : Apart s t v w)
    (hs : Settings.limits { maxOutputTokens := tokens }
      (Sections.generationValue s.sections) = .ok l)
    (ht : Settings.limits { maxOutputTokens := tokens }
      (Sections.generationValue t.sections) = .ok l) : ¬ SameSettings s t := by
  intro hsame
  have hequal := hsame { maxOutputTokens := tokens } []
  rw [exec_settings_null h.left hs, exec_settings_null h.right ht] at hequal
  have hname := congrArg Settings.provider (Except.ok.inj hequal)
  simp only [Settings.ofLimits, Settings.fieldOf, h.blank, h.standard] at hname
  exact absurd hname (by decide)

/-- A key of the file is lost to whoever asks for the standard provider by name, and one of the
environment to whoever asks for none. -/
theorem Apart.not_sameConnection (h : Apart s t v w)
    (hs : Settings.limits { maxOutputTokens := tokens }
      (Sections.generationValue s.sections) = .ok l)
    (ht : Settings.limits { maxOutputTokens := tokens }
      (Sections.generationValue t.sections) = .ok l) : ¬ SameConnection s t := by
  intro hsame
  have hblank : Settings.fieldOf v "provider" = .text [] := by
    rw [Settings.fieldOf, h.blank]
    rfl
  have hstandard : Settings.fieldOf w "provider" = .text Provider.standard.name := by
    rw [Settings.fieldOf, h.standard]
    rfl
  cases hkey : (Settings.fieldOf w "api_key").isPresent with
  | false =>
    have hequal := hsame { maxOutputTokens := tokens } [("ANTHROPIC_API_KEY", "k")]
    rw [exec_settings_null h.left hs, exec_settings_null h.right ht] at hequal
    have happlied := congrArg Connection.apiKey (Except.ok.inj hequal)
    rw [apiKey_ofLimits rfl hblank (by decide), apiKey_ofLimits rfl hstandard (by decide),
      h.key, Data.orElse, Data.orElse, hkey] at happlied
    simp only [Bool.false_eq_true, if_false] at happlied
    exact absurd happlied (by decide)
  | true =>
    let asked : Overrides := { provider := .text Provider.standard.name, maxOutputTokens := tokens }
    have hleft : Settings.chooseService asked.provider s.sections = _ :=
      Settings.chooseService_of_namesOther (by decide) h.other
    have hright : Settings.chooseService asked.provider t.sections = .ok w :=
      Settings.chooseService_of_same (by decide) h.right h.standard
    have hequal := hsame asked []
    rw [exec_settings_eq, exec_settings_eq, Settings.resolve_of_chosen hleft hs [],
      Settings.resolve_of_chosen hright ht []] at hequal
    have happlied := congrArg Connection.apiKey (Except.ok.inj hequal)
    have hplain : Settings.fieldOf (Fields.set "provider" (.text (Text.lower Provider.standard.name))
        (Provider.ofName (Text.lower Provider.standard.name)).defaults) "provider" =
          .text (Text.lower Provider.standard.name) := by
      rw [Settings.fieldOf, Fields.get?_set_self]
      rfl
    rw [apiKey_ofLimits rfl hplain (by decide), apiKey_ofLimits rfl hstandard (by decide),
      Data.orElse_of_isPresent hkey] at happlied
    rw [← happlied] at hkey
    exact absurd hkey (by decide)

end Apart

theorem exists_effectiveService (h : Blanked table s t) :
    (∃ v, Sections.effectiveService s.sections = .ok v) ∧
      ∃ w, Sections.effectiveService t.sections = .ok w := by
  rw [Sections.effectiveService, serviceFields_of_get? h.whole, Sections.effectiveService,
    serviceFields_of_get? h.rest]
  exact ⟨⟨_, rfl⟩, _, rfl⟩

/-- Where the limits cannot be read there are no settings. -/
theorem Blanked.sameSettings_of_not_hasLimits (h : Blanked table s t) (hlimits : ¬ s.HasLimits) :
    SameSettings s t := by
  intro asked env
  obtain ⟨⟨v, hv⟩, w, hw⟩ := exists_effectiveService h
  rw [exec_settings_eq, exec_settings_eq]
  cases hasked : Settings.askedProvider? asked.provider with
  | error fault =>
    rw [Settings.resolve, Settings.resolve, Settings.chooseService_eq_error hv hasked,
      Settings.chooseService_eq_error hw hasked]
    rfl
  | ok provider =>
    obtain ⟨chosen, hchosen⟩ := Settings.exists_chooseService hv hasked
    obtain ⟨other, hother⟩ := Settings.exists_chooseService hw hasked
    cases hl : Settings.limits asked (Sections.generationValue s.sections) with
    | ok l => exact absurd ⟨asked.maxOutputTokens, l, hl⟩ hlimits
    | error fault =>
      rw [Settings.resolve_of_limits_eq_error hchosen hl,
        Settings.resolve_of_limits_eq_error hother (h.generation ▸ hl)]

/-- Blank entries count as absent, for whatever is asked for and in every environment, unless the
blank entry is that of the provider. With limits that cannot be read there are no settings at all. -/
theorem sameSettings_blanked_iff (h : Blanked table s t) (hunique : (table.map (·.1)).Nodup) :
    (SameSettings s t ↔ ¬ Sections.BlankProvider table ∨ ¬ s.HasLimits) ∧
      (SameConnection s t ↔ ¬ Sections.BlankProvider table ∨ ¬ s.HasLimits) := by
  have hkeep : ¬ Sections.BlankProvider table ∨ ¬ s.HasLimits → SameSettings s t := by
    rintro (hprovider | hlimits)
    · exact h.sameSettings hunique hprovider
    · exact h.sameSettings_of_not_hasLimits hlimits
  have hlose : Sections.BlankProvider table → s.HasLimits →
      ¬ SameSettings s t ∧ ¬ SameConnection s t := by
    rintro hblank ⟨tokens, l, hs⟩
    obtain ⟨v, w, hapart⟩ := h.apart hunique hblank
    have ht := h.generation ▸ hs
    exact ⟨hapart.not_sameSettings hs ht, hapart.not_sameConnection hs ht⟩
  constructor
  case left =>
    refine ⟨fun hsame => ?_, hkeep⟩
    rcases Classical.em (Sections.BlankProvider table) with hblank | hblank
    · exact .inr fun hlimits => (hlose hblank hlimits).1 hsame
    · exact .inl hblank
  case right =>
    refine ⟨fun hsame => ?_, fun hunless asked env => by rw [hkeep hunless asked env]⟩
    rcases Classical.em (Sections.BlankProvider table) with hblank | hblank
    · exact .inr fun hlimits => (hlose hblank hlimits).2 hsame
    · exact .inl hblank

def blankModel : List (Text × Text) := [("provider", "OpenAI"), ("model", ""), ("api_key", "k")]

def blankModelStore : SettingsStore where
  format := Toml.format
  place := .file "[llm]\nprovider = \"OpenAI\"\nmodel = \"\"\napi_key = \"k\"\n"

def noModelStore : SettingsStore where
  format := Toml.format
  place := .file "[llm]\nprovider = \"OpenAI\"\napi_key = \"k\"\n"

theorem sameSettings_blankModel :
    Blanked blankModel blankModelStore noModelStore ∧ (blankModel.map (·.1)).Nodup ∧
    SameSettings blankModelStore noModelStore ∧ SameConnection blankModelStore noModelStore := by
  have hblank : blankModelStore.sections = [(Sections.service, .record
      [("provider", .text "OpenAI"), ("model", .text ""), ("api_key", .text "k")])] :=
    sections_of_read rfl (by decide +kernel)
  have hnone : noModelStore.sections = [(Sections.service, .record
      [("provider", .text "OpenAI"), ("api_key", .text "k")])] :=
    sections_of_read rfl (by decide +kernel)
  have h : Blanked blankModel blankModelStore noModelStore :=
    ⟨by rw [hblank]; rfl, by rw [hnone]; rfl, by rw [hblank, hnone]; rfl⟩
  have hunless : ¬ Sections.BlankProvider blankModel := by
    rw [Sections.BlankProvider]
    decide
  have hsame := sameSettings_blanked_iff h (by decide)
  exact ⟨h, by decide, hsame.1.2 (.inl hunless), hsame.2.2 (.inl hunless)⟩

def blankProvider : List (Text × Text) := [("provider", ""), ("model", "m")]

def blankProviderStore : SettingsStore where
  format := Toml.format
  place := .file "[llm]\nprovider = \"\"\nmodel = \"m\"\n"

def noProviderStore : SettingsStore where
  format := Toml.format
  place := .file "[llm]\nmodel = \"m\"\n"

theorem not_sameSettings_blankProvider :
    Blanked blankProvider blankProviderStore noProviderStore ∧
    (blankProvider.map (·.1)).Nodup ∧
    ¬ SameSettings blankProviderStore noProviderStore ∧
    ¬ SameConnection blankProviderStore noProviderStore := by
  have hblank : blankProviderStore.sections =
      [(Sections.service, .record [("provider", .text ""), ("model", .text "m")])] :=
    sections_of_read rfl (by decide +kernel)
  have hnone : noProviderStore.sections =
      [(Sections.service, .record [("model", .text "m")])] :=
    sections_of_read rfl (by decide +kernel)
  have h : Blanked blankProvider blankProviderStore noProviderStore :=
    ⟨by rw [hblank]; rfl, by rw [hnone]; rfl, by rw [hblank, hnone]; rfl⟩
  have hlimits : ∀ service : Data, ∃ l, Settings.limits { maxOutputTokens := .null }
      (Sections.generationValue [(Sections.service, service)]) = .ok l :=
    fun _ => ⟨_, Settings.limits_of_limited rfl .nil⟩
  obtain ⟨l, hs⟩ := hlimits (.record [("provider", .text ""), ("model", .text "m")])
  rw [← hblank] at hs
  have ht := h.generation ▸ hs
  obtain ⟨v, w, hapart⟩ := h.apart (by decide) rfl
  exact ⟨h, by decide, hapart.not_sameSettings hs ht, hapart.not_sameConnection hs ht⟩

end Blanked

end SettingsStore

end CodeAtlas
