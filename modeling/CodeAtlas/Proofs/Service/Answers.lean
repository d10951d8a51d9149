import CodeAtlas.Service.Connection

/-!
What a reply must look like for its dialect to read it. A dialect goes through some fields member by
member and looks into others by name; a field that is missing or empty is read as one without
members. Main statement: a request ends with a reply or with a fault of the service, unless the
service delivers fields that do not fit the dialect.
-/

set_option autoImplicit false

namespace CodeAtlas

namespace Data

def isCollection : Data → Bool
  | .list _ | .record _ | .text _ => true
  | _ => false

def isRecord : Data → Bool
  | .record _ => true
  | _ => false

theorem exists_members_iff (v : Data) : (∃ items, v.members = .ok items) ↔ v.isCollection := by
  cases v <;> simp [members, isCollection]

theorem exists_fields_iff (v : Data) : (∃ fields, v.fields = .ok fields) ↔ v.isRecord := by
  cases v <;> simp [fields, isRecord]

theorem kind_of_members {v : Data} {fault : Fault} (h : v.members = .error fault) :
    fault.kind = .mismatch := by
  cases v <;> cases h <;> rfl

theorem kind_of_fields {v : Data} {fault : Fault} (h : v.fields = .error fault) :
    fault.kind = .attribute := by
  cases v <;> cases h <;> rfl

end Data

def Fields.ifGiven (fields : Fields) (name : Text) (p : Data → Bool) : Bool :=
  match Fields.get? fields name with
  | some v => !v.isPresent || p v
  | none => true

namespace Connection

def isChoice : Data → Bool
  | .record fields => Fields.ifGiven fields "message" Data.isRecord
  | _ => false

/-- A list of choices. The members of other collections are texts, so these must have none. -/
def isChoices : Data → Bool
  | .list items => items.all isChoice
  | v => v.isCollection && !v.isPresent

def fits : Dialect → Fields → Bool
  | .messages, fields => Fields.ifGiven fields "content" Data.isCollection
  | .chat, fields =>
    Fields.ifGiven fields "choices" isChoices && Fields.ifGiven fields "usage" Data.isRecord
  | .completion, _ => true

theorem exists_bind_iff {α β : Type} {x : Except Fault α} {f : α → Except Fault β} :
    (∃ b, (x >>= f) = .ok b) ↔ ∃ a, x = .ok a ∧ ∃ b, f a = .ok b := by
  cases x with
  | error fault => exact ⟨fun ⟨_, h⟩ => (nomatch h), fun ⟨_, h, _⟩ => (nomatch h)⟩
  | ok a => exact ⟨fun h => ⟨a, rfl, h⟩, fun ⟨_, h, hb⟩ => Except.ok.inj h ▸ hb⟩

theorem bind_eq_ok {α β : Type} {x : Except Fault α} {f : α → Except Fault β} {b : β}
    (h : (x >>= f) = .ok b) : ∃ a, x = .ok a ∧ f a = .ok b := by
  cases x with
  | error fault => cases h
  | ok a => exact ⟨a, rfl, h⟩

theorem bind_eq_error {α β : Type} {x : Except Fault α} {f : α → Except Fault β} {fault : Fault}
    (h : (x >>= f) = .error fault) : x = .error fault ∨ ∃ a, x = .ok a ∧ f a = .error fault := by
  cases x with
  | error other => exact .inl (by cases h; rfl)
  | ok a => exact .inr ⟨a, rfl, h⟩

/-- A field is read as another value if it is not given, so a property of that value is one of
every field not given. -/
theorem ifGiven_eq {p : Data → Bool} (other : Data) (hp : p other = true) (fields : Fields)
    (name : Text) : Fields.ifGiven fields name p = p (given fields name other) := by
  unfold Fields.ifGiven given
  cases Fields.get? fields name with
  | none => exact hp.symm
  | some v =>
    cases hv : v.isPresent with
    | true => simp [Data.orElse, hv]
    | false => simp [Data.orElse, hv, hp]

theorem exists_choiceBlock?_iff (choice : Data) :
    (∃ block, choiceBlock? choice = .ok block) ↔ isChoice choice := by
  unfold choiceBlock?
  rw [exists_bind_iff]
  constructor
  · rintro ⟨fields, hf, h⟩
    obtain ⟨message, hm, _⟩ := exists_bind_iff.1 h
    cases choice with
    | record fs =>
      cases hf
      rw [isChoice, ifGiven_eq (.record []) rfl]
      exact (Data.exists_fields_iff _).1 ⟨message, hm⟩
    | _ => cases hf
  · intro h
    cases choice with
    | record fields =>
      rw [isChoice, ifGiven_eq (.record []) rfl] at h
      obtain ⟨message, hm⟩ := (Data.exists_fields_iff _).2 h
      refine ⟨fields, rfl, exists_bind_iff.2 ⟨message, hm, ?_⟩⟩
      split
      · exact ⟨_, rfl⟩
      · exact ⟨_, rfl⟩
    | _ => cases h

theorem kind_of_choiceBlock? {choice : Data} {fault : Fault}
    (h : choiceBlock? choice = .error fault) : fault.kind = .attribute := by
  unfold choiceBlock? at h
  rcases bind_eq_error h with h | ⟨fields, _, h⟩
  · exact Data.kind_of_fields h
  · rcases bind_eq_error h with h | ⟨message, _, h⟩
    · exact Data.kind_of_fields h
    · split at h <;> cases h

theorem exists_mapM_choiceBlock?_iff (choices : List Data) :
    (∃ blocks, choices.mapM choiceBlock? = .ok blocks) ↔ choices.all isChoice := by
  induction choices with
  | nil => exact iff_of_true ⟨[], rfl⟩ rfl
  | cons choice rest ih =>
    rw [List.mapM_cons, List.all_cons, Bool.and_eq_true, ← exists_choiceBlock?_iff, ← ih,
      exists_bind_iff]
    constructor
    · rintro ⟨block, hb, h⟩
      obtain ⟨blocks, hbs, _⟩ := exists_bind_iff.1 h
      exact ⟨⟨block, hb⟩, ⟨blocks, hbs⟩⟩
    · rintro ⟨⟨block, hb⟩, ⟨blocks, hbs⟩⟩
      exact ⟨block, hb, exists_bind_iff.2 ⟨blocks, hbs, ⟨_, rfl⟩⟩⟩

theorem kind_of_mapM_choiceBlock? {choices : List Data} {fault : Fault}
    (h : choices.mapM choiceBlock? = .error fault) : fault.kind = .attribute := by
  induction choices with
  | nil => cases h
  | cons choice rest ih =>
    rw [List.mapM_cons] at h
    rcases bind_eq_error h with h | ⟨block, _, h⟩
    · exact kind_of_choiceBlock? h
    · rcases bind_eq_error h with h | ⟨blocks, _, h⟩
      · exact ih h
      · cases h

/-- Texts and records hand out texts, and a text is no choice. -/
theorem exists_choices_iff (v : Data) :
    (∃ choices, v.members = .ok choices ∧ ∃ blocks, choices.mapM choiceBlock? = .ok blocks) ↔
      isChoices v := by
  simp only [exists_mapM_choiceBlock?_iff]
  cases v with
  | list items => simp [Data.members, isChoices]
  | record fields => cases fields <;> simp [Data.members, isChoices, isChoice, Data.isCollection,
      Data.isPresent]
  | text t => cases t <;> simp [Data.members, isChoices, isChoice, Data.isCollection,
      Data.isPresent]
  | _ => simp [Data.members, isChoices, Data.isCollection]

theorem exists_interpret_iff (c : Connection) (fields : Fields) :
    (∃ reply, c.interpret fields = .ok reply) ↔ fits c.dialect fields := by
  unfold interpret
  split
  · rename_i hd
    rw [hd, fits, ifGiven_eq (.list []) rfl, ← Data.exists_members_iff, exists_bind_iff]
    exact ⟨fun ⟨items, hi, _⟩ => ⟨items, hi⟩, fun ⟨items, hi⟩ => ⟨items, hi, _, rfl⟩⟩
  · rename_i hd
    rw [hd, fits, ifGiven_eq (.list []) rfl, ifGiven_eq (.record []) rfl,
      Bool.and_eq_true, ← exists_choices_iff, ← Data.exists_fields_iff, exists_bind_iff]
    simp only [exists_bind_iff]
    constructor
    · rintro ⟨choices, hc, blocks, hb, usage, hu, _⟩
      exact ⟨⟨choices, hc, blocks, hb⟩, ⟨usage, hu⟩⟩
    · rintro ⟨⟨choices, hc, blocks, hb⟩, ⟨usage, hu⟩⟩
      exact ⟨choices, hc, blocks, hb, usage, hu, _, rfl⟩
  · rename_i hd
    rw [hd]
    exact iff_of_true ⟨_, rfl⟩ rfl

/-- What cannot be read is never taken for a fault of the service. -/
theorem kind_of_interpret {c : Connection} {fields : Fields} {fault : Fault}
    (h : c.interpret fields = .error fault) :
    fault.kind = .mismatch ∨ fault.kind = .attribute := by
  unfold interpret at h
  split at h
  · rcases bind_eq_error h with h | ⟨items, _, h⟩
    · exact .inl (Data.kind_of_members h)
    · cases h
  · rcases bind_eq_error h with h | ⟨choices, _, h⟩
    · exact .inl (Data.kind_of_members h)
    · rcases bind_eq_error h with h | ⟨blocks, _, h⟩
      · exact .inr (kind_of_mapM_choiceBlock? h)
      · rcases bind_eq_error h with h | ⟨usage, _, h⟩
        · exact .inr (Data.kind_of_fields h)
        · cases h
  · cases h

end Connection

inductive Outcome.Delivers : Outcome → Fields → Prop
  | response {status : Int} {reason : Text} {body : Body} {fields : Fields}
      (accepted : ¬ (400 ≤ status ∧ status < 600)) (record : body.read = .ok (.record fields)) :
      Delivers (.response status reason body) fields

namespace Connection

theorem payload_eq_ok_iff (c : Connection) (o : Outcome) (fields : Fields) :
    c.payload o = .ok fields ↔ o.Delivers fields := by
  constructor
  · intro h
    unfold payload at h
    split at h
    · cases h
    · cases h
    · cases h
    · split at h
      · cases h
      · rename_i accepted
        split at h
        · cases h
        · rename_i record
          cases h
          exact .response accepted record
        · cases h
  · rintro ⟨accepted, record⟩
    simp [payload, accepted, record]

theorem delivers_unique {o : Outcome} {fields others : Fields} (h : o.Delivers fields)
    (hothers : o.Delivers others) : fields = others := by
  cases h with
  | response accepted record =>
    cases hothers with
    | response _ again =>
      cases record.symm.trans again
      rfl

theorem exists_delivers_of_generate {c : Connection} {prompt : Text} {limit : Int} {t : Transport}
    {r : Reply} (h : (c.generate prompt limit t).1 = .ok r) :
    ∃ fields, (t.send (c.request prompt limit)).1.Delivers fields ∧ c.interpret fields = .ok r := by
  unfold generate at h
  split at h
  · cases h
  · obtain ⟨fields, hp, hr⟩ := bind_eq_ok h
    exact ⟨fields, (c.payload_eq_ok_iff _ fields).1 hp, hr⟩

theorem kind_of_payload {c : Connection} {o : Outcome} (ho : ∀ fault, o ≠ .failed fault)
    {fault : Fault} (h : c.payload o = .error fault) : fault.kind = .service := by
  unfold payload at h
  split at h
  · cases h; rfl
  · cases h; rfl
  · exact absurd rfl (ho _)
  · split at h
    · cases h; rfl
    · split at h
      · cases h; rfl
      · cases h
      · cases h; rfl

/-- A reply, or a fault of the service and no other. -/
def Settled (result : Except Fault Reply) : Prop :=
  ∀ fault, result = .error fault → fault.kind = .service

theorem settled_answer_iff (c : Connection) {o : Outcome} (ho : ∀ fault, o ≠ .failed fault) :
    Settled (c.answer o) ↔ ∀ fields, o.Delivers fields → fits c.dialect fields = true := by
  constructor
  · intro h fields hd
    rw [← exists_interpret_iff]
    have hp : c.payload o = .ok fields := (c.payload_eq_ok_iff o fields).2 hd
    have ha : c.answer o = c.interpret fields := by unfold answer; rw [hp]; rfl
    cases hi : c.interpret fields with
    | ok reply => exact ⟨reply, rfl⟩
    | error fault =>
      have hs := h fault (ha.trans hi)
      rcases kind_of_interpret hi with hk | hk <;> rw [hk] at hs <;> cases hs
  · intro h fault hf
    unfold answer at hf
    rcases bind_eq_error hf with hf | ⟨fields, hp, hf⟩
    · exact kind_of_payload ho hf
    · obtain ⟨reply, hr⟩ :=
        (c.exists_interpret_iff fields).2 (h fields ((c.payload_eq_ok_iff o fields).1 hp))
      rw [hr] at hf
      cases hf

/-- A request ends with a reply or a fault of the service iff the key that it needs is missing or
the fields delivered, if any, fit the dialect. -/
theorem settled_generate_iff (c : Connection) (prompt : Text) (limit : Int) (t : Transport)
    (ho : ∀ fault, (t.send (c.request prompt limit)).1 ≠ .failed fault) :
    Settled (c.generate prompt limit t).1 ↔
      (c.needsKey = true ∧ c.apiKey.isPresent = false) ∨
        ∀ fields, (t.send (c.request prompt limit)).1.Delivers fields →
          fits c.dialect fields = true := by
  rw [← c.settled_answer_iff ho]
  unfold generate
  split
  · rename_i hk
    refine iff_of_true ?_ (.inl (by simpa using hk))
    intro fault hf
    cases hf
    rfl
  · rename_i hk
    exact ⟨.inr, fun h => h.resolve_left (by simpa using hk)⟩

def sampleChat : Connection where
  dialect := .chat
  provider := "openai"
  model := .text "m"
  endpoint := .text "https://api.example/x"
  apiKey := .text "k"

def sampleMessages : Connection :=
  { sampleChat with dialect := .messages, provider := "anthropic" }

def sampleService (fields : Fields) : Transport :=
  ⟨[], .response 200 "OK" (.json (.record fields)), []⟩

def sampleItem (mark : Text) (v : Data) : Data := .record [("type", .text mark), ("text", v)]

/-- A choice without a message, and a usage that is an empty list. -/
theorem settled_generate_bare_choice :
    (∀ fault, (Transport.send ⟨[], .response 200 "OK"
      (.json (.record [("choices", .list [.record []]), ("usage", .list [])])), []⟩
        (sampleChat.request "Document this" 10)).1 ≠ .failed fault) ∧
    Settled (sampleChat.generate "Document this" 10 ⟨[], .response 200 "OK"
      (.json (.record [("choices", .list [.record []]), ("usage", .list [])])), []⟩).1 := by
  have ho : ∀ fault, (Transport.send ⟨[], .response 200 "OK"
      (.json (.record [("choices", .list [.record []]), ("usage", .list [])])), []⟩
        (sampleChat.request "Document this" 10)).1 ≠ .failed fault := nofun
  refine ⟨ho, (settled_generate_iff sampleChat "Document this" 10 _ ho).2 (.inr ?_)⟩
  rintro fields ⟨_, record⟩
  cases record
  rfl

/-- A choice that is a text. -/
theorem not_settled_generate_text_choice :
    ¬ Settled (sampleChat.generate "Document this" 10 ⟨[], .response 200 "OK"
      (.json (.record [("choices", .list [.text "x"])])), []⟩).1 := by
  intro h
  have hk := h (.noMember (.text "x") "get") rfl
  cases hk

end Connection

end CodeAtlas
