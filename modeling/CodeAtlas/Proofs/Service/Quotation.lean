import CodeAtlas.Proofs.Service.Answers

/-!
Where the text of a reply comes from. Every dialect has a place in its replies for what was
generated. Main statement: the first text of a reply is the first usable text at that place, unless
the first item marked as a text holds no text, whose display is then taken for one.
-/

set_option autoImplicit false

namespace CodeAtlas

theorem Text.not_mem_ofNat {c : Char} (hc : c.isDigit = false) (n : Nat) : c ∉ Text.ofNat n := by
  intro h
  have hd := Nat.isDigit_of_mem_toDigits (by omega) (by omega) h
  rw [hc] at hd
  cases hd

theorem Text.not_mem_ofInt {c : Char} (hc : c.isDigit = false) (hsign : c ≠ '-') (n : Int) :
    c ∉ Text.ofInt n := by
  cases n with
  | ofNat n => exact Text.not_mem_ofNat hc n
  | negSucc n => simp [Text.ofInt, hsign, Text.not_mem_ofNat hc]

theorem Decimal.Style.not_mem_write (s : Style) (d : Digits) : 't' ∉ s.write d := by
  have hdigits : ∀ n, 't' ∉ Text.ofNat n := Text.not_mem_ofNat rfl
  have htake : ∀ k n, 't' ∉ (Text.ofNat n).take k :=
    fun k n h => hdigits n (List.mem_of_mem_take h)
  have hdrop : ∀ k n, 't' ∉ (Text.ofNat n).drop k :=
    fun k n h => hdigits n (List.mem_of_mem_drop h)
  have htail : ∀ n, 't' ∉ (Text.ofNat n).tail := fun n h => hdigits n (List.mem_of_mem_tail h)
  have hzeros : ∀ n, 't' ∉ zeros n := fun n => by simp [zeros]
  unfold write
  dsimp only
  split
  · simp
  · split
    · split
      · simp [hzeros, hdigits]
      · split
        · simp [hzeros, hdigits]
        · simp [htake, hdrop]
    · split <;> split <;> simp [hzeros, hdigits, htake, htail]

namespace Data

theorem not_mem_showFloat (x : Float) : 't' ∉ showFloat x := by
  unfold showFloat writeFloat
  dsimp only
  split
  · split <;> simp [Decimal.Style.not_mem_write]
  · split
    · simp
    · split <;> simp

theorem display_eq_mark_iff (v : Data) : v.display = "text" ↔ v = .text "text" := by
  have hmark : 't' ∈ ("text" : Text) := by simp
  cases v with
  | text t => simp
  | null => simp [display, quoted]
  | bool b => cases b <;> simp [display, quoted]
  | int n =>
    refine iff_of_false (fun h => ?_) (by simp)
    exact Text.not_mem_ofInt rfl (by simp) n (h ▸ hmark)
  | float x =>
    refine iff_of_false (fun h => ?_) (by simp)
    have hshow : showFloat x = "text" := h
    exact not_mem_showFloat x (hshow ▸ hmark)
  | list items => simp [display, quoted]
  | record fields => simp [display, quoted]

def asItems : Data → List Data
  | .list items => items
  | _ => []

def asFields : Data → Fields
  | .record fields => fields
  | _ => []

theorem asItems_of_not_isPresent {v : Data} (h : v.isPresent = false) : v.asItems = [] := by
  cases v with
  | list items => simpa [isPresent, asItems] using h
  | _ => rfl

theorem asFields_of_not_isPresent {v : Data} (h : v.isPresent = false) : v.asFields = [] := by
  cases v with
  | record fields => simpa [isPresent, asFields] using h
  | _ => rfl

theorem asFields_of_fields {v : Data} {fs : Fields} (h : v.fields = .ok fs) : v.asFields = fs := by
  cases v <;> cases h
  rfl

/-- Whatever a collection hands out beside items is a text. -/
theorem filterMap_members {α : Type} {f : Data → Option α} (hf : ∀ t, f (.text t) = none)
    {v : Data} {parts : List Data} (h : v.members = .ok parts) :
    parts.filterMap f = v.asItems.filterMap f := by
  cases v with
  | list items => cases h; rfl
  | record fields =>
    cases h
    refine List.filterMap_eq_nil_iff.2 fun part hpart => ?_
    obtain ⟨field, _, rfl⟩ := List.mem_map.1 hpart
    exact hf field.1
  | text t =>
    cases h
    refine List.filterMap_eq_nil_iff.2 fun part hpart => ?_
    obtain ⟨c, _, rfl⟩ := List.mem_map.1 hpart
    exact hf [c]
  | _ => cases h

end Data

namespace Fields

def text? (fields : Fields) (name : Text) : Option Text :=
  match Fields.get? fields name with
  | some (.text t) => some t
  | _ => none

def getD (fields : Fields) (name : Text) : Data := (Fields.get? fields name).getD .null

end Fields

namespace Connection

def textItem? : Data → Option Fields
  | .record item => if Fields.text? item "type" = some ("text" : Text) then some item else none
  | _ => none

def choiceText? (choice : Data) : Option Text :=
  Fields.text? (Fields.getD choice.asFields "message").asFields "content"

/-- The texts at the place where replies of a dialect hold what was generated, in their order. -/
def written : Dialect → Fields → List Text
  | .messages, fields =>
    ((Fields.getD fields "content").asItems.filterMap textItem?).filterMap (Fields.text? · "text")
  | .chat, fields => (Fields.getD fields "choices").asItems.filterMap choiceText?
  | .completion, fields => (Fields.text? fields "response").toList

/-- Which of these texts count: choices of blanks alone and empty responses do not. -/
def isUsable : Dialect → Text → Bool
  | .messages, _ => true
  | .chat, t => !(Text.strip t).isEmpty
  | .completion, t => !t.isEmpty

def markedItem? (fields : Fields) : Option Fields :=
  ((Fields.getD fields "content").asItems.filterMap textItem?).head?

/-- Whether the first item that is marked as a text, if any, holds one. -/
def Worded (dialect : Dialect) (fields : Fields) : Prop :=
  dialect = .messages → ∀ item, markedItem? fields = some item →
    ∃ t, Fields.text? item "text" = some t

theorem textOf_of_text? {fields : Fields} {name t : Text} (h : Fields.text? fields name = some t) :
    textOf fields name = t := by
  unfold Fields.text? at h
  unfold textOf
  split at h
  · rename_i hget
    cases h
    rw [hget]
    rfl
  · cases h

theorem textOf_eq_mark_iff (fields : Fields) (name : Text) :
    textOf fields name = "text" ↔ Fields.text? fields name = some ("text" : Text) := by
  refine ⟨fun h => ?_, textOf_of_text?⟩
  unfold textOf at h
  unfold Fields.text?
  cases hget : Fields.get? fields name with
  | none => rw [hget] at h; simp at h
  | some v =>
    rw [hget] at h
    rw [(Data.display_eq_mark_iff v).1 h]

/-- What is read off a field is the same when the field is replaced for not being given. -/
theorem map_given {α : Type} {f : Data → α} {other : Data}
    (hf : ∀ v, v.isPresent = false → f v = f other) (fields : Fields) (name : Text) :
    f (given fields name other) = f (Fields.getD fields name) := by
  unfold given Fields.getD Data.orElse
  split
  · rfl
  · rename_i hv
    exact (hf _ (by simpa using hv)).symm

theorem asItems_given (fields : Fields) (name : Text) :
    (given fields name (.list [])).asItems = (Fields.getD fields name).asItems :=
  map_given (fun _ => Data.asItems_of_not_isPresent) fields name

theorem firstText?_contentBlocks {r : Reply} {items : List Data}
    (hr : r.content = items.filterMap contentBlock?) :
    r.firstText? = (items.filterMap textItem?).head?.map (textOf · "text") := by
  have hkind : ∀ v : Data, ((contentBlock? v).filter fun b => b.kind = ("text" : Text)) =
      (textItem? v).map fun item => ⟨textOf item "type", textOf item "text"⟩ := by
    intro v
    cases v with
    | record item =>
      simp only [contentBlock?, textItem?, Option.filter_some, textOf_eq_mark_iff,
        decide_eq_true_eq]
      by_cases h : Fields.text? item "type" = some ("text" : Text)
      · rw [if_pos h, if_pos h]
        rfl
      · rw [if_neg h, if_neg h]
        rfl
    | _ => rfl
  have hmarked : (r.content.filter fun b => b.kind = ("text" : Text)) =
      (items.filterMap textItem?).map fun item => ⟨textOf item "type", textOf item "text"⟩ := by
    rw [hr, List.filter_filterMap, List.map_filterMap]
    simp only [hkind]
  rw [Reply.firstText?, ← List.head?_filter, hmarked, List.head?_map, Option.map_map]
  rfl

theorem firstText?_texts {r : Reply} {texts : List Text}
    (hr : r.content = texts.map fun t => ⟨"text", t⟩) : r.firstText? = texts.head? := by
  unfold Reply.firstText?
  rw [hr]
  cases texts with
  | nil => rfl
  | cons t rest => simp

theorem choiceBlock?_eq {choice : Data} {block : Option Block}
    (h : choiceBlock? choice = .ok block) :
    block = ((choiceText? choice).filter (isUsable .chat)).map fun t => ⟨"text", t⟩ := by
  unfold choiceBlock? at h
  obtain ⟨fields, hf, h⟩ := bind_eq_ok h
  obtain ⟨message, hm, h⟩ := bind_eq_ok h
  have hmessage : (Fields.getD choice.asFields "message").asFields = message := by
    rw [Data.asFields_of_fields hf, ← Data.asFields_of_fields hm]
    exact (map_given (fun _ => Data.asFields_of_not_isPresent) fields "message").symm
  unfold choiceText? Fields.text?
  rw [hmessage]
  cases hget : Fields.get? message "content" with
  | none =>
    rw [hget] at h
    cases h
    rfl
  | some v =>
    rw [hget] at h
    cases v with
    | text t =>
      have husable : isUsable .chat t = !(Text.strip t).isEmpty := rfl
      cases hblank : (Text.strip t).isEmpty with
      | true =>
        simp only [hblank, if_true] at h
        cases h
        rw [Option.filter_some, husable, hblank]
        rfl
      | false =>
        simp only [hblank, Bool.false_eq_true, if_false] at h
        cases h
        rw [Option.filter_some, husable, hblank]
        rfl
    | _ =>
      cases h
      rfl

theorem blocks_eq {choices : List Data} {blocks : List (Option Block)}
    (h : choices.mapM choiceBlock? = .ok blocks) :
    blocks.filterMap id =
      ((choices.filterMap choiceText?).filter (isUsable .chat)).map fun t => ⟨"text", t⟩ := by
  rw [List.filter_filterMap, List.map_filterMap]
  induction choices generalizing blocks with
  | nil => cases h; rfl
  | cons choice rest ih =>
    rw [List.mapM_cons] at h
    obtain ⟨block, hb, h⟩ := bind_eq_ok h
    obtain ⟨others, hothers, h⟩ := bind_eq_ok h
    cases h
    rw [List.filterMap_cons, List.filterMap_cons, ih hothers, choiceBlock?_eq hb]
    rfl

theorem firstText?_messages {fields : Fields} {parts : List Data} {r : Reply}
    (h : (given fields "content" (.list [])).members = .ok parts)
    (hr : r.content = parts.filterMap contentBlock?) :
    r.firstText? = (markedItem? fields).map (textOf · "text") := by
  rw [firstText?_contentBlocks hr, Data.filterMap_members (fun _ => rfl) h, asItems_given]
  rfl

theorem firstText?_chat {fields : Fields} {choices : List Data} {blocks : List (Option Block)}
    {r : Reply} (h : (given fields "choices" (.list [])).members = .ok choices)
    (hb : choices.mapM choiceBlock? = .ok blocks) (hr : r.content = blocks.filterMap id) :
    r.firstText? = (written .chat fields).find? (isUsable .chat) := by
  rw [firstText?_texts (hr.trans (blocks_eq hb)), List.head?_filter,
    Data.filterMap_members (fun _ => rfl) h, asItems_given]
  rfl

theorem response_eq (fields : Fields) :
    (match Fields.get? fields "response" with
      | some (.text t) => if t.isEmpty then [] else [⟨"text", t⟩]
      | _ => ([] : List Block)) =
      ((written .completion fields).filter (isUsable .completion)).map fun t => ⟨"text", t⟩ := by
  simp only [written, Fields.text?]
  cases Fields.get? fields "response" with
  | none => rfl
  | some v =>
    cases v with
    | text t => cases t <;> rfl
    | _ => rfl

/-- What a reply says first is the first usable text at its place, or the display of what the first
item marked as a text holds instead of one. -/
theorem firstText?_of_interpret {c : Connection} {fields : Fields} {r : Reply}
    (h : c.interpret fields = .ok r) :
    (Worded c.dialect fields →
      r.firstText? = (written c.dialect fields).find? (isUsable c.dialect)) ∧
    (¬ Worded c.dialect fields →
      ∃ item, markedItem? fields = some item ∧ r.firstText? = some (textOf item "text")) := by
  unfold interpret at h
  split at h
  · rename_i hd
    obtain ⟨parts, hparts, h⟩ := bind_eq_ok h
    have hfirst : r.firstText? = (markedItem? fields).map (textOf · "text") := by
      cases h
      exact firstText?_messages hparts rfl
    rw [hfirst, hd]
    cases hm : markedItem? fields with
    | none =>
      have hnil := List.head?_eq_none_iff.1 hm
      refine ⟨fun _ => ?_, fun hw => absurd (fun _ item hitem => ?_) hw⟩
      · rw [written, hnil]
        rfl
      · rw [hm] at hitem
        cases hitem
    | some item =>
      obtain ⟨rest, hrest⟩ := List.head?_eq_some_iff.1 hm
      refine ⟨fun hw => ?_, fun _ => ⟨item, rfl, rfl⟩⟩
      obtain ⟨t, ht⟩ := hw rfl item hm
      simp only [written, hrest, List.filterMap_cons, ht, Option.map_some, textOf_of_text? ht]
      rfl
  · rename_i hd
    obtain ⟨choices, hchoices, h⟩ := bind_eq_ok h
    obtain ⟨blocks, hblocks, h⟩ := bind_eq_ok h
    obtain ⟨usage, _, h⟩ := bind_eq_ok h
    rw [hd]
    refine ⟨fun _ => ?_, fun hw => absurd nofun hw⟩
    cases h
    exact firstText?_chat hchoices hblocks rfl
  · rename_i hd
    rw [hd]
    refine ⟨fun _ => ?_, fun hw => absurd nofun hw⟩
    cases h
    rw [← List.head?_filter]
    exact firstText?_texts (response_eq fields)

/-- Whatever the service replies, nothing is quoted that it did not write, unless the first item
marked as a text holds something else than one. -/
theorem firstText?_of_generate {c : Connection} {prompt : Text} {limit : Int} {t : Transport}
    {r : Reply} (h : (c.generate prompt limit t).1 = .ok r) :
    ∃ fields, (t.send (c.request prompt limit)).1.Delivers fields ∧
      (Worded c.dialect fields →
        r.firstText? = (written c.dialect fields).find? (isUsable c.dialect)) ∧
      (¬ Worded c.dialect fields →
        ∃ item, markedItem? fields = some item ∧ r.firstText? = some (textOf item "text")) := by
  obtain ⟨fields, hfields, hinterpret⟩ := exists_delivers_of_generate h
  exact ⟨fields, hfields, firstText?_of_interpret hinterpret⟩

/-- An item marked otherwise stands before the text. -/
theorem firstText?_behind_thinking :
    ∃ r, (sampleMessages.generate "Document this" 10 (sampleService [("content", .list
        [sampleItem "thinking" .null, sampleItem "text" (.text "# Docs")])])).1 = .ok r ∧
      r.firstText? = some ("# Docs" : Text) := by
  have hreply : (sampleMessages.generate "Document this" 10 (sampleService [("content", .list
      [sampleItem "thinking" .null, sampleItem "text" (.text "# Docs")])])).1 =
        .ok ⟨[⟨"thinking", "None"⟩, ⟨"text", "# Docs"⟩], "m", .record []⟩ := rfl
  obtain ⟨fields, hfields, hworded, _⟩ := firstText?_of_generate hreply
  cases hfields with
  | response _ record =>
    cases record
    refine ⟨_, hreply, (hworded ?_).trans rfl⟩
    intro _ item hitem
    cases hitem
    exact ⟨"# Docs", rfl⟩

/-- An item marked as a text that holds null stands before the text. -/
theorem firstText?_null_item :
    ∃ r, (sampleMessages.generate "Document this" 10 (sampleService [("content", .list
        [sampleItem "text" .null, sampleItem "text" (.text "# Docs")])])).1 = .ok r ∧
      r.firstText? = some ("None" : Text) ∧
      ∀ fields, ((sampleService [("content", .list [sampleItem "text" .null,
          sampleItem "text" (.text "# Docs")])]).send
            (sampleMessages.request "Document this" 10)).1.Delivers fields →
        (written .messages fields).find? (isUsable .messages) = some ("# Docs" : Text) := by
  refine ⟨_, rfl, rfl, ?_⟩
  intro fields hfields
  cases hfields with
  | response _ record =>
    cases record
    rfl

end Connection

end CodeAtlas
