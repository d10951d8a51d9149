import CodeAtlas.Settings.Store

set_option autoImplicit false

namespace CodeAtlas

def Fields.Unique (fields : Fields) : Prop := (fields.map (·.1)).Nodup

namespace Fields

theorem get?_eq_none_of_not_mem {fields : Fields} {name : Text} (h : name ∉ fields.map (·.1)) :
    get? fields name = none := by
  induction fields with
  | nil => rfl
  | cons f rest ih =>
    obtain ⟨n, v⟩ := f
    simp only [List.map_cons, List.mem_cons, not_or] at h
    rw [get?_cons, if_neg h.1, ih h.2]

theorem get?_filter {fields : Fields} (h : fields.Unique) (p : Data → Bool) (name : Text) :
    get? (fields.filter fun (_, v) => p v) name = (get? fields name).filter p := by
  induction fields with
  | nil => rfl
  | cons f rest ih =>
    obtain ⟨n, v⟩ := f
    obtain ⟨hn, hrest⟩ := List.nodup_cons.1 h
    have hih := ih hrest
    by_cases hname : name = n
    · subst hname
      rw [get?_eq_none_of_not_mem hn] at hih
      cases hv : p v <;> simp [Option.filter, hv, get?_cons, hih]
    · cases hv : p v <;> simp [hv, get?_cons, hname, hih]

theorem Unique.filter {fields : Fields} (h : fields.Unique) (p : Text × Data → Bool) :
    Unique (fields.filter p) := h.sublist (List.filter_sublist.map _)

end Fields

namespace Sections

theorem get?_setAll (fields : Fields) {more : Fields} (h : more.Unique) (name : Text) :
    Fields.get? (setAll fields more) name =
      (Fields.get? more name).or (Fields.get? fields name) := by
  induction more generalizing fields with
  | nil => rfl
  | cons f rest ih =>
    obtain ⟨n, v⟩ := f
    obtain ⟨hn, hrest⟩ := List.nodup_cons.1 h
    have hstep : setAll fields ((n, v) :: rest) = setAll (Fields.set n v fields) rest := rfl
    rw [hstep, ih _ hrest, Fields.get?_cons]
    by_cases hname : name = n
    · subst hname
      rw [Fields.get?_eq_none_of_not_mem hn, Fields.get?_set_self, if_pos rfl]
      rfl
    · rw [Fields.get?_set_of_ne hname, if_neg hname]

/-- A field of the service is that of the section, if it is set there, or else that of the
provider. -/
theorem get?_effectiveService {file fields : Fields} (h : serviceFields file = .ok fields)
    (hunique : fields.Unique) :
    ∃ service, effectiveService file = .ok service ∧
      Fields.get? service "provider" = some (.text (providerOf fields)) ∧
      ∀ name ≠ ("provider" : Text), Fields.get? service name =
        ((Fields.get? fields name).filter isSet).or
          (Fields.get? (Provider.ofName (providerOf fields)).defaults name) := by
  refine ⟨_, by rw [effectiveService, h]; rfl, Fields.get?_set_self .., fun name hname => ?_⟩
  rw [Fields.get?_set_of_ne hname, get?_setAll _ (hunique.filter _), Fields.get?_filter hunique]

end Sections

namespace Numeral

open Float.Model in
theorem unpackExponent_ne {bits : BitVec Format.binary64.numBits}
    (h : (UnpackedFloat.unpack Format.binary64 bits).isFinite = true) :
    UnpackedFloat.unpackExponent bits ≠ -BitVec.ofNat Format.binary64.exponentBits 1 := by
  intro hlast
  unfold UnpackedFloat.unpack at h
  dsimp only at h
  rw [if_pos hlast] at h
  split at h <;> cases h

theorem exists_truncate? {x : Float} (h : x.isFinite = true) : ∃ n, truncate? x = some n := by
  have hfield : x.toBits.toNat / Nat.pow 2 52 % Nat.pow 2 11 ≠ 2047 := by
    intro hfield
    refine unpackExponent_ne h (BitVec.eq_of_toNat_eq ?_)
    simp only [Float.Model.UnpackedFloat.unpackExponent, BitVec.toNat_cast, BitVec.extractLsb_toNat,
      Nat.shiftRight_eq_div_pow]
    exact hfield
  obtain ⟨b, hb⟩ : ∃ b, Decimal.Binary.ofBits? x.toBits.toNat = some b := by
    unfold Decimal.Binary.ofBits?
    simp only [if_neg hfield]
    split
    · exact ⟨_, rfl⟩
    · exact ⟨_, rfl⟩
  exact ⟨_, by rw [truncate?, hb]; rfl⟩

end Numeral

namespace Data

def IsFinite : Data → Prop
  | .int _ => True
  | .float x => x.isFinite = true
  | _ => False

def whole : Data → Int
  | .int n => n
  | .float x => (Numeral.truncate? x).getD 0
  | _ => 0

def real : Data → Float
  | .int n => Numeral.ofInt n
  | .float x => x
  | _ => 0.0

theorem toInt_of_isFinite {v : Data} (h : v.IsFinite) : v.toInt = .ok v.whole := by
  cases v with
  | int n => rfl
  | float x =>
    obtain ⟨n, hn⟩ := Numeral.exists_truncate? h
    simp only [toInt, whole, hn, Option.getD_some]
  | _ => cases h

theorem toFloat_of_isFinite {v : Data} (h : v.IsFinite)
    (hsize : ∀ n, v = .int n → (Numeral.ofInt n).isInf = false) : v.toFloat = .ok v.real := by
  cases v with
  | int n => simp [toFloat, real, hsize n rfl]
  | float x => rfl
  | _ => cases h

end Data

def Provider.keyVariables (name : Text) : List Text :=
  Environment.sharedKeyVariable :: ((ofName? name).bind keyVariable?).toList

theorem Environment.apiKey_eq (env : Environment) (provider : Text) :
    env.apiKey provider = ((Provider.keyVariables provider).findSome? env.value?).getD [] := by
  unfold apiKey Provider.keyVariables
  cases (Provider.ofName? provider).bind Provider.keyVariable? <;>
    cases h : env.value? sharedKeyVariable <;> simp [List.findSome?_cons, h]
  next own => cases env.value? own <;> rfl

namespace Settings

def limitOf (generation : Fields) (name : Text) (standard : Data) : Data :=
  (Fields.get? generation name).getD standard

def limitNames : List Text := ["max_output_tokens", "timeout", "related_depth", "workers"]

structure Limited (generation : Fields) : Prop where
  finite : ∀ name ∈ limitNames, ∀ v, Fields.get? generation name = some v → v.IsFinite
  timeout : ∀ n, Fields.get? generation "timeout" = some (.int n) → (Numeral.ofInt n).isInf = false

theorem Limited.nil : Limited [] := ⟨by simp, by simp⟩

theorem Limited.toInt_limitOf {generation : Fields} (h : Limited generation) {name : Text}
    (hname : name ∈ limitNames) (standard : Int) :
    (limitOf generation name (.int standard)).toInt =
      .ok (limitOf generation name (.int standard)).whole := by
  apply Data.toInt_of_isFinite
  unfold limitOf
  cases hv : Fields.get? generation name with
  | none => exact trivial
  | some v => exact h.finite name hname v hv

theorem Limited.toFloat_timeout {generation : Fields} (h : Limited generation) (standard : Float) :
    (limitOf generation "timeout" (.float standard)).toFloat =
      .ok (limitOf generation "timeout" (.float standard)).real := by
  unfold limitOf
  cases hv : Fields.get? generation "timeout" with
  | none => rfl
  | some v =>
    refine Data.toFloat_of_isFinite (h.finite _ (by decide) v hv) fun n hn => ?_
    exact h.timeout n (by rw [hv]; exact congrArg some hn)

structure Limits where
  maxOutputTokens : Int
  timeout : Float
  relatedDepth : Int
  workers : Int

def limits (asked : Overrides) (generation : Data) : Except Fault Limits := do
  let maxOutputTokens ←
    if asked.maxOutputTokens.isPresent then asked.maxOutputTokens.toInt
    else (← limit generation "max_output_tokens" (.int 4096)).toInt
  let timeout ← (← limit generation "timeout" (.float 120.0)).toFloat
  let relatedDepth ← (← limit generation "related_depth" (.int 2)).toInt
  let workers ← (← limit generation "workers" (.int 1)).toInt
  return { maxOutputTokens, timeout, relatedDepth, workers }

def ofLimits (asked : Overrides) (service : Fields) (env : Environment) (l : Limits) :
    Settings where
  provider := (fieldOf service "provider").display
  model := asked.model.orElse (fieldOf service "model")
  apiKey := asked.apiKey.orElse
    ((fieldOf service "api_key").orElse (.text (env.apiKey (fieldOf service "provider").display)))
  endpoint := asked.endpoint.orElse (fieldOf service "endpoint")
  maxOutputTokens := l.maxOutputTokens
  timeout := l.timeout
  relatedDepth := l.relatedDepth
  workers := l.workers

/-- Only the limits can fail. -/
theorem ofSections_eq (asked : Overrides) (service : Fields) (generation : Data)
    (env : Environment) :
    ofSections asked service generation env =
      ofLimits asked service env <$> limits asked generation := by
  unfold ofSections limits
  cases asked.maxOutputTokens.isPresent <;>
    simp only [Bool.false_eq_true, if_false, if_true, map_bind, map_pure] <;> rfl

theorem resolve_of_limits_eq_error {asked : Overrides} {file service : Fields} {fault : Fault}
    (hservice : chooseService asked.provider file = .ok service)
    (h : limits asked (Sections.generationValue file) = .error fault) (env : Environment) :
    resolve asked file env = .error fault := by
  rw [resolve, hservice]
  show ofSections asked service (Sections.generationValue file) env = .error fault
  rw [ofSections_eq, h]
  rfl

def Limits.finite (generation : Fields) : Limits where
  maxOutputTokens := (limitOf generation "max_output_tokens" (.int 4096)).whole
  timeout := (limitOf generation "timeout" (.float 120.0)).real
  relatedDepth := (limitOf generation "related_depth" (.int 2)).whole
  workers := (limitOf generation "workers" (.int 1)).whole

theorem limits_of_limited {asked : Overrides} (hasked : asked.maxOutputTokens.isPresent = false)
    {generation : Fields} (h : Limited generation) :
    limits asked (.record generation) = .ok (.finite generation) := by
  have hlimit : ∀ name standard, limit (.record generation) name standard =
      .ok (limitOf generation name standard) := fun _ _ => rfl
  have htokens := h.toInt_limitOf (show ("max_output_tokens" : Text) ∈ limitNames by decide)
  have hdepth := h.toInt_limitOf (show ("related_depth" : Text) ∈ limitNames by decide)
  have hworkers := h.toInt_limitOf (show ("workers" : Text) ∈ limitNames by decide)
  unfold limits
  simp only [hasked, hlimit, Bool.false_eq_true, if_false, bind, Except.bind, htokens, hdepth,
    hworkers, h.toFloat_timeout]
  rfl

end Settings

namespace SettingsStore

variable {α β : Type}

/-- The sections of the file that count. There are none if it cannot be read. -/
def sections (s : SettingsStore) : Fields := (s.place.sections? s.format).getD []

theorem exec_bind (access : SettingsAccess α) (k : α → SettingsAccess β) (s : SettingsStore) :
    exec (access >>= k) s =
      match exec access s with
      | (.ok a, t) => exec (k a) t
      | (.error fault, t) => (.error fault, t) := by
  have hbind : exec (access >>= k) s =
      (ExceptT.bindCont k (exec access s).1).run (exec access s).2 := rfl
  rw [hbind]
  obtain ⟨outcome, t⟩ := exec access s
  cases outcome <;> rfl

theorem exec_liftM (outcome : Except Fault α) (s : SettingsStore) :
    exec (liftM outcome) s = (outcome, s) := rfl

theorem exec_load (s : SettingsStore) : ∃ t, exec load s = (.ok s.sections, t) ∧
    t.format = s.format ∧ t.place = s.place ∧ t.environment = s.environment := by
  cases h : s.place.sections? s.format with
  | some fields =>
    refine ⟨s, ?_, rfl, rfl, rfl⟩
    rw [exec_load_of_sections h, sections, h]
    rfl
  | none =>
    have hget : exec (getThe SettingsStore) s = (.ok s, s) := rfl
    refine ⟨{ s with notices := s.notices ++ [.unreadable] }, ?_, rfl, rfl, rfl⟩
    rw [load, exec_bind, hget, sections]
    simp only [h]
    rfl

theorem exec_settings (asked : Overrides) (s : SettingsStore) :
    (exec (settings asked) s).1 = Settings.resolve asked s.sections s.environment := by
  obtain ⟨t, hload, hformat, hplace, henv⟩ := exec_load s
  obtain ⟨u, hagain, -, -, henv'⟩ := exec_load t
  have hsections : t.sections = s.sections := by rw [sections, sections, hformat, hplace]
  have hgeneration : exec generation t = (.ok (Sections.generationValue s.sections), u) := by
    rw [generation, exec_bind, hagain, hsections]
    rfl
  rw [settings, Settings.resolve, exec_bind, hload]
  cases hchosen : Settings.chooseService asked.provider s.sections with
  | error fault => simp only [exec_bind, exec_liftM, hchosen]; rfl
  | ok chosen =>
    simp only [exec_bind, exec_liftM, hchosen, hgeneration]
    rw [← henv, ← henv']
    rfl

end SettingsStore

end CodeAtlas
