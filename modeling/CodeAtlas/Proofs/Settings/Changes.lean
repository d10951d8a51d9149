import CodeAtlas.Proofs.Data.Equality
import CodeAtlas.Proofs.Data.Sameness
import CodeAtlas.Proofs.Settings.Resolution
import CodeAtlas.Proofs.Toml.Names
import CodeAtlas.Toml.Format

/-!
Histories of changes of the settings file. A change replaces the section of the service and keeps
the others, so a history leaves what its last change alone would have left. The settings afterwards
follow from that change, the first section of the generation and the environment.
-/

set_option autoImplicit false

namespace CodeAtlas

open Data (Same)

namespace SettingsFormat

/-- Nothing is read but tables, in which every name stands once, at every depth. -/
def Keyed (format : SettingsFormat) : Prop :=
  ∀ t fields, format.read t = some fields → fields.Keyed

end SettingsFormat

theorem Toml.keyed_format : Toml.format.Keyed := fun _ _ => keyed_read

namespace SettingsChange

theorem same_apply {file other : Fields} (h : Same (.record file) (.record other))
    (change : SettingsChange) :
    Same (.record (change.apply file)) (.record (change.apply other)) := by
  refine Data.same_record fun name path => ?_
  by_cases hname : name = Sections.service
  · rw [Data.at?_field, Data.at?_field, hname, get?_apply_self, get?_apply_self]
  · rw [Data.at?_field, Data.at?_field, get?_apply_of_ne hname, get?_apply_of_ne hname,
      ← Data.at?_field, ← Data.at?_field]
    exact h _

theorem same_apply_apply (change earlier : SettingsChange) (file : Fields) :
    Same (.record (change.apply (earlier.apply file))) (.record (change.apply file)) := by
  refine Data.same_record fun name path => ?_
  by_cases hname : name = Sections.service
  · rw [Data.at?_field, Data.at?_field, hname, get?_apply_self, get?_apply_self]
  · rw [Data.at?_field, Data.at?_field, get?_apply_of_ne hname, get?_apply_of_ne hname,
      get?_apply_of_ne hname]

/-- Every file that changes write, one after the other, is read back as it was, but for the order
of fields. -/
def Lossless (format : SettingsFormat) : List SettingsChange → Fields → Prop
  | [], _ => True
  | change :: rest, file => ∃ back, format.read (format.write (change.apply file)) = some back ∧
      Same (.record back) (.record (change.apply file)) ∧ Lossless format rest back

theorem Lossless.cons {format : SettingsFormat} {change : SettingsChange}
    {rest : List SettingsChange} {file : Fields}
    (h : format.read (format.write (change.apply file)) = some (change.apply file))
    (hrest : Lossless format rest (change.apply file)) : Lossless format (change :: rest) file :=
  ⟨_, h, Same.refl _, hrest⟩

theorem Lossless.of_prefix {format : SettingsFormat} {changes steps : List SettingsChange}
    {file : Fields} (h : Lossless format changes file) (hsteps : steps <+: changes) :
    Lossless format steps file := by
  induction steps generalizing changes file with
  | nil => trivial
  | cons step rest ih =>
    obtain ⟨more, rfl⟩ := hsteps
    obtain ⟨back, hback, hsame, hrest⟩ := h
    exact ⟨back, hback, hsame, ih hrest (List.prefix_append rest more)⟩

end SettingsChange

namespace SettingsStore

open SettingsChange (Lossless)

def afterChanges (changes : List SettingsChange) (s : SettingsStore) : SettingsStore :=
  changes.foldl (fun s c => (exec (change c) s).2) s

structure Serves (s : SettingsStore) (file : Fields) : Prop where
  sections : s.place.sections? s.format = some file
  writable : s.place.isWritable = true

theorem exec_change {s : SettingsStore} {file : Fields} (h : s.Serves file) (c : SettingsChange) :
    exec (change c) s = (.ok true, { s with place := .file (s.format.write (c.apply file)) }) := by
  have hstore : ∀ file, exec (store file) s =
      exec (if s.place.isWritable then do
          set { s with place := .file (s.format.write file) }
          return true
        else do
          notice .notWritten
          return false) s := fun _ => rfl
  rw [change, exec_bind, exec_load_of_sections h.sections]
  simp only [hstore, h.writable, if_true]
  rfl

theorem sections_change {s : SettingsStore} {file back : Fields} (h : s.Serves file)
    {c : SettingsChange} (hback : s.format.read (s.format.write (c.apply file)) = some back) :
    (exec (change c) s).2.sections = back := by
  rw [exec_change h, sections, SettingsPlace.sections?, hback]
  rfl

/-- What a history leaves: the sections as its last change alone would leave them, each name once. -/
structure Leaves (s t : SettingsStore) (file : Fields) : Prop where
  format : t.format = s.format
  environment : t.environment = s.environment
  sections : ∃ now, t.Serves now ∧ now.Keyed ∧ Same (.record now) (.record file)

theorem leaves_afterChanges {s : SettingsStore} (hkeyed : s.format.Keyed) {initial : Fields}
    (h : s.Serves initial) {steps : List SettingsChange} {last : SettingsChange}
    (hlossless : Lossless s.format (steps ++ [last]) initial) :
    Leaves s (afterChanges (steps ++ [last]) s) (last.apply initial) := by
  induction steps generalizing s initial with
  | nil =>
    obtain ⟨back, hback, hsame, -⟩ := hlossless
    rw [List.nil_append, afterChanges, List.foldl_cons, List.foldl_nil, exec_change h]
    exact ⟨rfl, rfl, back, ⟨hback, rfl⟩, hkeyed _ _ hback, hsame⟩
  | cons step rest ih =>
    obtain ⟨back, hback, hsame, hrest⟩ := hlossless
    have hstep := exec_change h step
    have hnext : (exec (change step) s).2.Serves back := by
      rw [hstep]
      exact ⟨hback, rfl⟩
    have hformat : (exec (change step) s).2.format = s.format := by rw [hstep]
    rw [← hformat] at hkeyed hrest
    obtain ⟨hleft, henv, now, hserves, hunique, hnow⟩ := ih hkeyed hnext hrest
    -- The last change meets the file that was read back, and drops what the first step wrote.
    refine ⟨hleft.trans hformat, henv.trans (by rw [hstep]), now, hserves, hunique, ?_⟩
    exact hnow.trans ((SettingsChange.same_apply hsame last).trans
      (SettingsChange.same_apply_apply last step initial))

end SettingsStore

namespace Settings

def chosen (provider model apiKey endpoint : Text) (generation : Fields) (env : Environment) :
    Settings where
  provider := Text.lower provider
  model := .text (if model = [] then (Provider.ofName (Text.lower provider)).model else model)
  apiKey := .text (if apiKey = [] then
      ((Provider.keyVariables (Text.lower provider)).findSome? env.value?).getD []
    else apiKey)
  endpoint := .text
    (if endpoint = [] then (Provider.ofName (Text.lower provider)).endpoint else endpoint)
  maxOutputTokens := (limitOf generation "max_output_tokens" (.int 4096)).whole
  timeout := (limitOf generation "timeout" (.float 120.0)).real
  relatedDepth := (limitOf generation "related_depth" (.int 2)).whole
  workers := (limitOf generation "workers" (.int 1)).whole

theorem isLeaf_of_isFinite {v : Data} (h : v.IsFinite) : v.IsLeaf := by
  cases v with
  | int n => trivial
  | float x => trivial
  | _ => cases h

theorem Limited.get?_same {f generation : Fields} (h : Same (.record f) (.record generation))
    (hlimited : Limited generation) {name : Text} (hname : name ∈ limitNames) :
    Fields.get? f name = Fields.get? generation name :=
  h.get?_eq fun v hv => isLeaf_of_isFinite (hlimited.finite name hname v hv)

theorem limitOf_same {f generation : Fields} (h : Same (.record f) (.record generation))
    (hlimited : Limited generation) {name : Text} (hname : name ∈ limitNames) (standard : Data) :
    limitOf f name standard = limitOf generation name standard := by
  rw [limitOf, limitOf, hlimited.get?_same h hname]

theorem Limited.of_same {f generation : Fields} (h : Same (.record f) (.record generation))
    (hlimited : Limited generation) : Limited f := by
  constructor
  case finite =>
    intro name hname v hv
    exact hlimited.finite name hname v ((hlimited.get?_same h hname).symm.trans hv)
  case timeout =>
    intro n hn
    exact hlimited.timeout n ((hlimited.get?_same h (by decide)).symm.trans hn)

theorem chosen_same {f generation : Fields} (h : Same (.record f) (.record generation))
    (hlimited : Limited generation) (provider model apiKey endpoint : Text) (env : Environment) :
    chosen provider model apiKey endpoint f env =
      chosen provider model apiKey endpoint generation env := by
  unfold chosen
  rw [limitOf_same h hlimited (by decide), limitOf_same h hlimited (by decide),
    limitOf_same h hlimited (by decide), limitOf_same h hlimited (by decide)]

end Settings

namespace Sections

def given (t : Text) : Option Data := if t = [] then none else some (.text t)

structure Holds (fields : Fields) (provider model apiKey endpoint : Text) : Prop where
  provider : providerOf fields = Text.lower provider
  model : (Fields.get? fields "model").filter isSet = given model
  apiKey : (Fields.get? fields "api_key").filter isSet = given apiKey
  endpoint : (Fields.get? fields "endpoint").filter isSet = given endpoint

theorem filter_isSet_text (t : Text) : (some (Data.text t)).filter isSet = given t := by
  cases t <;> rfl

theorem filter_isSet_given (t : Text) : (given t).filter isSet = given t := by
  cases t <;> rfl

/-- What a change writes for texts. -/
theorem get?_save {written : Fields} {provider model apiKey endpoint : Text}
    (h : (SettingsChange.save (.text provider) (.text model) (.text apiKey)
      (.text endpoint)).section? = some written) :
    (∀ name v, Fields.get? written name = some v → v.IsLeaf) ∧
    Fields.get? written "provider" = some (.text provider) ∧
    Fields.get? written "model" = some (.text model) ∧
    Fields.get? written "api_key" = given apiKey ∧
    Fields.get? written "endpoint" = given endpoint := by
  cases h
  refine ⟨fun name v hv => ?_, rfl, rfl, ?_, ?_⟩
  · have hmem := Fields.mem_of_get? hv
    simp only [List.cons_append, List.nil_append, List.mem_cons, List.mem_filter, List.not_mem_nil,
      or_false, Prod.mk.injEq] at hmem
    obtain ⟨-, rfl⟩ | ⟨-, rfl⟩ | ⟨⟨-, rfl⟩ | ⟨-, rfl⟩, -⟩ := hmem <;> trivial
  · cases apiKey <;> cases endpoint <;> rfl
  · cases apiKey <;> cases endpoint <;> rfl

theorem holds_of_save {fields written : Fields} {provider model apiKey endpoint : Text}
    (hwritten : (SettingsChange.save (.text provider) (.text model) (.text apiKey)
      (.text endpoint)).section? = some written)
    (h : Same (.record fields) (.record written)) :
    Holds fields provider model apiKey endpoint := by
  obtain ⟨hleaf, hprovider, hmodel, hkey, hendpoint⟩ := get?_save hwritten
  have hget := fun name => h.get?_eq (hleaf name)
  constructor
  case provider => rw [providerOf, hget, hprovider]; rfl
  case model => rw [hget, hmodel, filter_isSet_text]
  case apiKey => rw [hget, hkey, filter_isSet_given]
  case endpoint => rw [hget, hendpoint, filter_isSet_given]

theorem holds_nil {fields : Fields} (h : Same (.record fields) (.record [])) :
    Holds fields Provider.standard.name [] [] [] := by
  have hget := fun name => h.get?_eq_none (Fields.get?_nil name)
  constructor
  case provider => rw [providerOf, hget]; rfl
  case model => rw [hget]; rfl
  case apiKey => rw [hget]; rfl
  case endpoint => rw [hget]; rfl

theorem exists_serviceFields {now initial : Fields} {change : SettingsChange} (hkeyed : now.Keyed)
    (h : Same (.record now) (.record (change.apply initial))) :
    ∃ fields, serviceFields now = .ok fields ∧ fields.Unique ∧
      Same (.record fields) (.record (change.section?.getD [])) := by
  have hself := change.get?_apply_self initial
  cases hwritten : change.section? with
  | none =>
    rw [hwritten] at hself
    refine ⟨[], ?_, List.nodup_nil, Same.refl _⟩
    rw [serviceFields, h.get?_eq_none hself]
    rfl
  | some written =>
    rw [hwritten] at hself
    obtain ⟨v, hv, hsame⟩ := h.exists_get? hself
    obtain ⟨fields, rfl⟩ := hsame.exists_record
    refine ⟨fields, ?_, (hkeyed.get? hv).1, hsame⟩
    rw [serviceFields, hv]
    rfl

theorem exists_generation {now initial generation : Fields} {change : SettingsChange}
    (h : Same (.record now) (.record (change.apply initial)))
    (hgeneration : generationValue initial = .record generation) :
    ∃ fields, generationValue now = .record fields ∧ Same (.record fields) (.record generation) := by
  have hother := SettingsChange.get?_apply_of_ne (show Sections.generation ≠ service by decide)
    change initial
  unfold generationValue at hgeneration ⊢
  cases hinitial : Fields.get? initial Sections.generation with
  | none =>
    rw [hinitial] at hgeneration hother
    cases hgeneration
    exact ⟨[], by rw [h.get?_eq_none hother]; rfl, Same.refl _⟩
  | some v =>
    rw [hinitial] at hgeneration hother
    cases hgeneration
    obtain ⟨w, hw, hsame⟩ := h.exists_get? hother
    obtain ⟨fields, rfl⟩ := hsame.exists_record
    exact ⟨fields, by rw [hw]; rfl, hsame⟩

end Sections

namespace Settings

theorem resolve_of_holds {now fields generation : Fields} {provider model apiKey endpoint : Text}
    (hservice : Sections.serviceFields now = .ok fields) (hunique : fields.Unique)
    (h : Sections.Holds fields provider model apiKey endpoint)
    (hgeneration : Sections.generationValue now = .record generation)
    (hlimited : Limited generation) (env : Environment) :
    resolve {} now env = .ok (chosen provider model apiKey endpoint generation env) := by
  obtain ⟨service, heffective, hname, hother⟩ := Sections.get?_effectiveService hservice hunique
  have hchosen : chooseService .null now = .ok service := by
    rw [chooseService, heffective]
    rfl
  rw [h.provider] at hname hother
  have hprovider : fieldOf service "provider" = .text (Text.lower provider) := by
    rw [fieldOf, hname]
    rfl
  have hmodel : fieldOf service "model" = .text (if model = [] then
      (Provider.ofName (Text.lower provider)).model else model) := by
    rw [fieldOf, hother _ (by decide), h.model]
    cases model <;> rfl
  have hkey : fieldOf service "api_key" = .text apiKey := by
    rw [fieldOf, hother _ (by decide), h.apiKey]
    cases apiKey <;> rfl
  have hendpoint : fieldOf service "endpoint" = .text (if endpoint = [] then
      (Provider.ofName (Text.lower provider)).endpoint else endpoint) := by
    rw [fieldOf, hother _ (by decide), h.endpoint]
    cases endpoint <;> rfl
  -- A key that is not set leaves the choice to the environment.
  have hsettings : ofLimits {} service env (.finite generation) =
      chosen provider model apiKey endpoint generation env := by
    rw [ofLimits, hprovider, hmodel, hkey, hendpoint, Data.display_text, Environment.apiKey_eq]
    cases apiKey <;> rfl
  rw [resolve, hchosen, hgeneration]
  show ofSections {} service (.record generation) env = _
  rw [ofSections_eq, limits_of_limited rfl hlimited, ← hsettings]
  rfl

end Settings

namespace SettingsStore

open SettingsChange (Lossless)

structure Kept (changes : List SettingsChange) (s : SettingsStore) (initial generation : Fields) :
    Prop where
  others : ∀ steps, steps <+: changes →
    ∃ now, (afterChanges steps s).place.sections? s.format = some now ∧
      ∀ name ≠ Sections.service, ∀ path, (Data.record now).at? (.field name :: path) =
        (Data.record initial).at? (.field name :: path)
  service : ∀ steps last, steps ++ [last] <+: changes →
    ∃ now, (afterChanges (steps ++ [last]) s).place.sections? s.format = some now ∧
      ∀ path, (Data.record now).at? (.field Sections.service :: path) =
        last.section?.bind fun fields => (Data.record fields).at? path
  saved : ∀ steps provider model apiKey endpoint,
    steps ++ [.save (.text provider) (.text model) (.text apiKey) (.text endpoint)] <+: changes →
    (exec (settings {}) (afterChanges (steps ++
      [.save (.text provider) (.text model) (.text apiKey) (.text endpoint)]) s)).1 =
        .ok (Settings.chosen provider model apiKey endpoint generation s.environment)
  cleared : ∀ steps, steps ++ [.clear] <+: changes →
    (exec (settings {}) (afterChanges (steps ++ [.clear]) s)).1 =
      .ok (Settings.chosen Provider.standard.name [] [] [] generation s.environment)

theorem settings_of_leaves {s t : SettingsStore} {initial generation : Fields}
    {last : SettingsChange} (h : Leaves s t (last.apply initial))
    (hgeneration : Sections.generationValue initial = .record generation)
    (hlimited : Settings.Limited generation) {provider model apiKey endpoint : Text}
    (hlast : ∀ fields, Same (.record fields) (.record (last.section?.getD [])) →
      Sections.Holds fields provider model apiKey endpoint) :
    (exec (settings {}) t).1 =
      .ok (Settings.chosen provider model apiKey endpoint generation s.environment) := by
  obtain ⟨-, henv, now, hserves, hkeyed, hsame⟩ := h
  obtain ⟨fields, hfields, hunique, hsection⟩ := Sections.exists_serviceFields hkeyed hsame
  obtain ⟨limits, hlimits, hsameLimits⟩ := Sections.exists_generation hsame hgeneration
  have hsections : t.sections = now := by
    rw [sections, hserves.sections]
    rfl
  rw [exec_settings, hsections, henv, Settings.resolve_of_holds hfields hunique
    (hlast fields hsection) hlimits (hlimited.of_same hsameLimits),
    Settings.chosen_same hsameLimits hlimited]

/-- Whatever the history, the file keeps its other sections, and its last change alone decides on
the service. -/
theorem kept_afterChanges {changes : List SettingsChange} {s : SettingsStore}
    (hkeyed : s.format.Keyed) {initial generation : Fields}
    (hsections : s.place.sections? s.format = some initial)
    (hwritable : s.place.isWritable = true)
    (hgeneration : Sections.generationValue initial = .record generation)
    (hlimited : Settings.Limited generation) (hlossless : Lossless s.format changes initial) :
    Kept changes s initial generation := by
  have hleaves := fun (steps : List SettingsChange) (last : SettingsChange)
      (hsteps : steps ++ [last] <+: changes) =>
    leaves_afterChanges hkeyed ⟨hsections, hwritable⟩ (hlossless.of_prefix hsteps)
  constructor
  case others =>
    intro steps hsteps
    rcases List.eq_nil_or_concat steps with rfl | ⟨steps, last, rfl⟩
    · exact ⟨initial, hsections, fun _ _ _ => rfl⟩
    · rw [List.concat_eq_append] at hsteps ⊢
      obtain ⟨hformat, -, now, hserves, -, hsame⟩ := hleaves steps last hsteps
      refine ⟨now, hformat ▸ hserves.sections, fun name hname path => ?_⟩
      rw [hsame, Data.at?_field, SettingsChange.get?_apply_of_ne hname, Data.at?_field]
  case service =>
    intro steps last hsteps
    obtain ⟨hformat, -, now, hserves, -, hsame⟩ := hleaves steps last hsteps
    refine ⟨now, hformat ▸ hserves.sections, fun path => ?_⟩
    rw [hsame, Data.at?_field, SettingsChange.get?_apply_self]
    cases last.section? <;> rfl
  case saved =>
    intro steps provider model apiKey endpoint hsteps
    refine settings_of_leaves (hleaves steps _ hsteps) hgeneration hlimited fun fields hfields => ?_
    exact Sections.holds_of_save rfl hfields
  case cleared =>
    intro steps hsteps
    refine settings_of_leaves (hleaves steps _ hsteps) hgeneration hlimited fun fields hfields => ?_
    exact Sections.holds_nil hfields

def toolSample : SettingsStore where
  format := Toml.format
  place := .file "[generation]\nworkers = 3\n\n[tool]\nname = \"x\"\n"

def toolSections : Fields :=
  [("generation", .record [("workers", .int 3)]), ("tool", .record [("name", .text "x")])]

def saves : List SettingsChange :=
  [.save (.text "openai") (.text "m") (.text "k") (.text []),
    .save (.text "Groq") (.text []) (.text []) (.text "e")]

theorem kept_afterChanges_sample :
    Toml.format.Keyed ∧ toolSample.place.sections? Toml.format = some toolSections ∧
    Lossless Toml.format saves toolSections ∧
    Kept saves toolSample toolSections [("workers", .int 3)] ∧
    (exec (settings {}) (afterChanges saves toolSample)).1 =
      .ok (Settings.chosen "Groq" [] [] "e" [("workers", .int 3)] []) := by
  have hsections : toolSample.place.sections? Toml.format = some toolSections := by decide +kernel
  have hlossless : Lossless Toml.format saves toolSections :=
    .cons (by decide +kernel) (.cons (by decide +kernel) trivial)
  have hlimited : Settings.Limited [("workers", .int 3)] := by
    constructor
    case finite =>
      intro name _ v hv
      obtain ⟨-, rfl⟩ := Prod.mk.inj (List.mem_singleton.1 (Fields.mem_of_get? hv))
      trivial
    case timeout =>
      intro n hn
      cases hn
  have hkept : Kept saves toolSample toolSections [("workers", .int 3)] :=
    kept_afterChanges Toml.keyed_format hsections rfl rfl hlimited hlossless
  exact ⟨Toml.keyed_format, hsections, hlossless, hkept,
    hkept.saved [_] _ _ _ _ (List.prefix_refl _)⟩

@[irreducible] def endlessTimeout : Int := Int.ofNat (Nat.pow 10 400)

def endlessSample : SettingsStore where
  format := Toml.format
  place := .file ("[generation]\ntimeout = 1" ++ List.replicate 400 '0' ++ "\n")

def endlessSections : Fields := [("generation", .record [("timeout", .int endlessTimeout)])]

theorem limits_endless : Settings.limits {} (.record [("timeout", .int endlessTimeout)]) =
    .error (.notFinite (.int endlessTimeout)) := by
  have hinf : (Numeral.ofInt endlessTimeout).isInf = true := by decide +kernel
  have hfloat : (Data.int endlessTimeout).toFloat = .error (.notFinite (.int endlessTimeout)) := by
    simp only [Data.toFloat, hinf, if_true]
  have htimeout : Settings.limit (.record [("timeout", .int endlessTimeout)]) "timeout"
      (.float 120.0) = .ok (.int endlessTimeout) := rfl
  have htokens : Settings.limit (.record [("timeout", .int endlessTimeout)]) "max_output_tokens"
      (.int 4096) = .ok (.int 4096) := rfl
  unfold Settings.limits
  rw [htokens, htimeout]
  simp only [bind, Except.bind, hfloat]
  rfl

def bareSave : SettingsChange := .save (.text "openai") (.text []) (.text []) (.text [])

/-- With such a timeout there are no settings. -/
theorem settings_of_endlessTimeout :
    endlessSample.Serves endlessSections ∧ endlessSample.format.Keyed ∧
    (Data.int endlessTimeout).IsFinite ∧ endlessTimeout ≠ 0 ∧
    Lossless endlessSample.format [bareSave] endlessSections ∧
    (exec (settings {}) (afterChanges [bareSave] endlessSample)).1 =
      .error (.notFinite (.int endlessTimeout)) := by
  have hsections : endlessSample.place.sections? Toml.format = some endlessSections := by
    decide +kernel
  have hserves : endlessSample.Serves endlessSections := ⟨hsections, rfl⟩
  have hread : endlessSample.format.read (endlessSample.format.write
      (bareSave.apply endlessSections)) = some (bareSave.apply endlessSections) := by
    decide +kernel
  refine ⟨hserves, Toml.keyed_format, trivial, by decide +kernel, .cons hread trivial, ?_⟩
  rw [afterChanges, List.foldl_cons, List.foldl_nil, exec_settings, sections_change hserves hread]
  exact Settings.resolve_of_limits_eq_error rfl limits_endless _

end SettingsStore

end CodeAtlas
