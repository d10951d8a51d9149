import CodeAtlas.Proofs.Pipeline.Outcome
import CodeAtlas.Proofs.Service.Answers

/-!
What becomes of the text of a reply. The generation stage writes down what the service says about
its use before it hands the text over. Main statement: the first text is handed over, and without
one the stage fails as a fault of the service, unless a text comes with a use that cannot be written
down.
-/

set_option autoImplicit false

namespace CodeAtlas

namespace Data

/-- Every value names a field but lists and records. -/
def isFieldName : Data → Bool
  | .list _ | .record _ => false
  | _ => true

def isPair : Data → Bool
  | .list [name, _] => name.isFieldName
  | .record [_, _] => true
  | .text [_, _] => true
  | _ => false

def isAccount : Data → Bool
  | .record _ => true
  | .list items => items.all isPair
  | .text t => t.isEmpty
  | _ => false

theorem exists_fieldName?_iff (v : Data) :
    (∃ name, v.fieldName? = .ok name) ↔ v.isFieldName := by
  cases v with
  | bool b => cases b <;> simp [fieldName?, isFieldName]
  | _ => simp [fieldName?, isFieldName]

theorem exists_entry_iff (index : Nat) (v : Data) :
    (∃ pair, entry index v = .ok pair) ↔ v.isPair := by
  have hpair : ∀ name value : Data, (∃ pair, (do return (← name.fieldName?, value)) =
      (.ok pair : Except Fault (Text × Data))) ↔ name.isFieldName := by
    intro name value
    rw [Connection.exists_bind_iff, ← exists_fieldName?_iff]
    exact exists_congr fun n => ⟨And.left, fun h => ⟨h, _, rfl⟩⟩
  cases v with
  | list items =>
    match items with
    | [name, value] => exact hpair name value
    | [] | [_] | _ :: _ :: _ :: _ => exact iff_of_false nofun nofun
  | record fields =>
    match fields with
    | [(name, _), (other, _)] => exact hpair (.text name) (.text other)
    | [] | [_] | _ :: _ :: _ :: _ => exact iff_of_false nofun nofun
  | text t =>
    match t with
    | [c, d] => exact hpair (.text [c]) (.text [d])
    | [] | [_] | _ :: _ :: _ :: _ => exact iff_of_false nofun nofun
  | _ => exact iff_of_false nofun nofun

theorem exists_entries_iff (items : List Data) (index : Nat) (fields : Fields) :
    (∃ result, entries index items fields = .ok result) ↔ items.all isPair := by
  induction items generalizing index fields with
  | nil => exact iff_of_true ⟨fields, rfl⟩ rfl
  | cons v rest ih =>
    rw [entries, Connection.exists_bind_iff, List.all_cons, Bool.and_eq_true,
      ← exists_entry_iff index v]
    constructor
    · rintro ⟨pair, hpair, hrest⟩
      exact ⟨⟨pair, hpair⟩, (ih ..).1 hrest⟩
    · rintro ⟨⟨pair, hpair⟩, hrest⟩
      exact ⟨pair, hpair, (ih ..).2 hrest⟩

theorem exists_toFields_iff (v : Data) : (∃ fields, v.toFields = .ok fields) ↔ v.isAccount := by
  cases v with
  | record fields => exact iff_of_true ⟨fields, rfl⟩ rfl
  | list items => exact exists_entries_iff items 0 []
  | text t =>
    -- A character by itself is no pair.
    refine (exists_entries_iff (t.map fun c => .text [c]) 0 []).trans ?_
    cases t with
    | nil => rfl
    | cons c rest => exact iff_of_false nofun nofun
  | _ => exact iff_of_false nofun nofun

end Data

namespace Reply

theorem exists_first_of_mem {r : Reply} (h : ∃ b ∈ r.content, b.kind = ("text" : Text)) :
    ∃ front b rest, r.content = front ++ b :: rest ∧ (∀ x ∈ front, x.kind ≠ ("text" : Text)) ∧
      b.kind = ("text" : Text) := by
  have hsome : (r.content.find? fun b => b.kind = ("text" : Text)).isSome = true := by
    simpa only [List.find?_isSome, decide_eq_true_eq] using h
  obtain ⟨b, hb⟩ := Option.isSome_iff_exists.1 hsome
  obtain ⟨hk, front, rest, hr, hfront⟩ := List.find?_eq_some_iff_append.1 hb
  exact ⟨front, b, rest, hr, by simpa using hfront, of_decide_eq_true hk⟩

def Writes (reply : Except Fault Reply) : Prop :=
  ∃ r, reply = .ok r ∧ ∃ b ∈ r.content, b.kind = ("text" : Text)

theorem outcome_of_first {r : Reply} {front rest : List Block} {b : Block}
    (hr : r.content = front ++ b :: rest) (hfront : ∀ x ∈ front, x.kind ≠ ("text" : Text))
    (hb : b.kind = ("text" : Text)) :
    outcome (.ok r) = r.usage.toFields.map (b.text, ·) := by
  simp only [outcome, firstText?_eq_some hr hfront hb]

theorem outcome_of_not_writes {reply : Except Fault Reply} (h : ¬ Writes reply) :
    ∃ fault, outcome reply = .error fault ∧ fault.kind = .service := by
  cases reply with
  | error fault => exact ⟨fault.asService, rfl, Fault.kind_asService fault⟩
  | ok r =>
    have hnone : r.firstText? = none :=
      firstText?_eq_none fun b hb hk => h ⟨r, rfl, b, hb, hk⟩
    exact ⟨.service .noText, by simp only [outcome, hnone], rfl⟩

end Reply

/-- How the generation stage is to end once the service has replied. -/
structure Published {σ : Type} (reply : Except Fault Reply)
    (run : Except Fault Text × Session σ) : Prop where
  written : ∀ r front b rest, reply = .ok r → r.content = front ++ b :: rest →
    (∀ x ∈ front, x.kind ≠ ("text" : Text)) → b.kind = ("text" : Text) →
    run.1 = .ok b.text ∧ run.2.status .generation = .completed
  unwritten : ¬ Reply.Writes reply → ∃ fault, run.1 = .error fault ∧ fault.kind = .service ∧
    run.2.status .generation = .error ∧
    (run.2.stages.get .generation).error = some fault.message

namespace Run

variable {σ : Type}

/-- Whatever the client, a text is published unless its use cannot be written down. -/
theorem published_generation_iff (client : Client σ) (limit : Int) (ctx : Context) (c : Codebase)
    (chunks : List Chunk) (insights : Option Insights) (s : Session σ)
    {reply : Except Fault Reply}
    (hreply : (client.generate (Prompt.write c chunks ctx.scope ctx.target insights) limit
      s.service).1 = reply) :
    Published reply ((generation client limit ctx (some ⟨some c, chunks, insights⟩)).exec s) ↔
      ∀ r, reply = .ok r → (∃ b ∈ r.content, b.kind = ("text" : Text)) →
        r.usage.isAccount = true := by
  rw [exec_generation client limit ctx c chunks insights s rfl (Prod.ext hreply rfl)]
  constructor
  · intro h r hr htext
    obtain ⟨front, b, rest, hcontent, hfront, hb⟩ := Reply.exists_first_of_mem htext
    obtain ⟨hout, _⟩ := h.written r front b rest hr hcontent hfront hb
    rw [hr, Reply.outcome_of_first hcontent hfront hb] at hout
    rw [← Data.exists_toFields_iff]
    cases hu : r.usage.toFields with
    | ok fields => exact ⟨fields, rfl⟩
    | error fault => rw [hu] at hout; cases hout
  · intro h
    constructor
    case written =>
      intro r front b rest hr hcontent hfront hb
      obtain ⟨fields, hfields⟩ := (Data.exists_toFields_iff r.usage).2
        (h r hr ⟨b, by simp [hcontent], hb⟩)
      have hout : Reply.outcome reply = .ok (b.text, fields) := by
        rw [hr, Reply.outcome_of_first hcontent hfront hb, hfields]
        rfl
      simp [hout, Except.map, Session.status, StageState.ended]
    case unwritten =>
      intro hw
      obtain ⟨fault, hout, hkind⟩ := Reply.outcome_of_not_writes hw
      refine ⟨fault, ?_, hkind, ?_, ?_⟩
      · simp [hout, Except.map]
      · simp [hout, Session.status, StageState.ended]
      · simp [hout, StageState.ended, StageState.broken]

end Run

namespace Connection

/-- Only replies with content blocks say what they like about their use. -/
theorem isAccount_usage_iff {c : Connection} {fields : Fields} {r : Reply}
    (h : c.interpret fields = .ok r) :
    r.usage.isAccount = true ↔
      (c.dialect = .messages → Fields.ifGiven fields "usage" Data.isAccount = true) := by
  unfold interpret at h
  split at h
  · rename_i hd
    obtain ⟨items, _, hr⟩ := bind_eq_ok h
    cases hr
    rw [ifGiven_eq (.record []) rfl]
    exact ⟨fun hu _ => hu, fun hu => hu hd⟩
  · rename_i hd
    obtain ⟨choices, _, h⟩ := bind_eq_ok h
    obtain ⟨blocks, _, h⟩ := bind_eq_ok h
    obtain ⟨usage, _, hr⟩ := bind_eq_ok h
    cases hr
    exact iff_of_true rfl fun hm => nomatch hd.symm.trans hm
  · rename_i hd
    cases h
    exact iff_of_true rfl fun hm => nomatch hd.symm.trans hm

theorem published_iff (conn : Connection) (limit : Int) (ctx : Context) (c : Codebase)
    (chunks : List Chunk) (insights : Option Insights) (s : Session Transport) :
    Published
        (conn.generate (Prompt.write c chunks ctx.scope ctx.target insights) limit s.service).1
        ((Run.generation conn.client limit ctx (some ⟨some c, chunks, insights⟩)).exec s) ↔
      (conn.dialect = .messages → ∀ fields,
        (s.service.send (conn.request (Prompt.write c chunks ctx.scope ctx.target insights)
          limit)).1.Delivers fields →
        Reply.Writes (conn.generate (Prompt.write c chunks ctx.scope ctx.target insights) limit
          s.service).1 →
        Fields.ifGiven fields "usage" Data.isAccount = true) := by
  refine (Run.published_generation_iff conn.client limit ctx c chunks insights s rfl).trans ?_
  constructor
  · rintro h hd fields hfields ⟨r, hr, htext⟩
    obtain ⟨others, hothers, hinterpret⟩ := exists_delivers_of_generate hr
    rw [delivers_unique hfields hothers]
    exact (isAccount_usage_iff hinterpret).1 (h r hr htext) hd
  · intro h r hr htext
    obtain ⟨fields, hfields, hinterpret⟩ := exists_delivers_of_generate hr
    exact (isAccount_usage_iff hinterpret).2 fun hd => h hd fields hfields ⟨r, hr, htext⟩

def sampleCounted : Transport :=
  sampleService [("content", .list [sampleItem "text" (.text "# Docs")]), ("usage", .int 5)]

theorem not_published_number : ¬ Published
    (sampleMessages.generate (Prompt.write (Codebase.ofFiles Codebase.sampleFiles) [] .repository
      none none) 4096 sampleCounted).1
    ((Run.generation sampleMessages.client 4096
      { requestId := "1", repositoryId := "2", userId := "3" }
      (some ⟨some (Codebase.ofFiles Codebase.sampleFiles), [], none⟩)).exec
        { service := sampleCounted }) := by
  intro h
  obtain ⟨hout, _⟩ := h.written _ [] ⟨"text", "# Docs"⟩ [] rfl rfl nofun rfl
  rw [Run.exec_generation _ _ _ _ _ _ _ rfl (Prod.ext rfl rfl)] at hout
  cases hout

end Connection

end CodeAtlas
