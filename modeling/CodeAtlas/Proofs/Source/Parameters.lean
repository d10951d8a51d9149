import CodeAtlas.Proofs.Source.Names
import CodeAtlas.Proofs.Text.Brackets
import CodeAtlas.Proofs.Text.Words
import Mathlib.Data.List.Basic
import Mathlib.Data.List.TakeWhile

set_option autoImplicit false

namespace CodeAtlas

structure Phrase (t : Text) : Prop where
  ne_nil : t ≠ []
  collapsed : t.Collapsed
  closed : Nesting.Closed t
  comma_not_mem : ',' ∉ Nesting.outer t

instance (t : Text) : Decidable (Phrase t) :=
  decidable_of_iff
    (t ≠ [] ∧ Text.collapse t = t ∧ Nesting.depthFrom 0 none t = some 0 ∧ ',' ∉ Nesting.outer t)
    ⟨fun ⟨hne, hcollapsed, hclosed, hcomma⟩ => ⟨hne, hcollapsed, hclosed, hcomma⟩,
      fun h => ⟨h.ne_nil, h.collapsed, h.closed, h.comma_not_mem⟩⟩

namespace Text

def blankCodes : List Nat :=
  [9, 10, 11, 12, 13, 28, 29, 30, 31, 32, 0x85, 0xa0, 0x1680, 0x2000, 0x2001, 0x2002, 0x2003,
   0x2004, 0x2005, 0x2006, 0x2007, 0x2008, 0x2009, 0x200a, 0x2028, 0x2029, 0x202f, 0x205f, 0x3000]

theorem toNat_mem_blankCodes {c : Char} (h : isBlank c = true) : c.toNat ∈ blankCodes := by
  simp only [isBlank, Bool.or_eq_true, Bool.and_eq_true, decide_eq_true_eq, beq_iff_eq] at h
  simp only [blankCodes, List.mem_cons, List.not_mem_nil, or_false]
  omega

theorem isBlank_of_isWord {c : Char} (h : isWord c = true) : isBlank c = false := by
  cases hb : isBlank c with
  | false => rfl
  | true =>
    have hcodes : ∀ n ∈ blankCodes, isWord (Char.ofNat n) = false := by decide +kernel
    have hc := hcodes c.toNat (toNat_mem_blankCodes hb)
    rw [Char.ofNat_toNat, h] at hc
    cases hc

end Text

section CutTopLevel

variable {target : Char} {s : Text}

theorem cutTopLevel_eq_none (hs : Nesting.Closed s) (h : Nesting.Misses target s) :
    cutTopLevel target s = (s, none) := by
  rw [cutTopLevel, hs.find?_eq_none h]

theorem cutTopLevel_append (hs : Nesting.Closed s) (h : Nesting.Misses target s)
    (hb : Nesting.isBracket target = false) {rest : Text}
    (hr : target = '=' → Nesting.continuesSign rest = false) :
    cutTopLevel target (s ++ target :: rest) = (Text.strip s, some (Text.strip rest)) := by
  have hdrop : (s ++ target :: rest).drop (s.length + 1) = rest := by
    rw [← List.singleton_append, ← List.append_assoc, List.drop_left' (by simp)]
  rw [cutTopLevel, hs.find?_append h hb hr]
  simp only [List.take_left, hdrop]

end CutTopLevel

section Lists

variable {t : Text} {ts : List Text}

/-- What a list may hold as an item: something with no comma outside its brackets. -/
structure Listable (t : Text) : Prop where
  closed : Nesting.Closed t
  comma_not_mem : ',' ∉ Nesting.outer t
  not_blank : t.all Text.isBlank = false

theorem Phrase.collapse_eq (h : Phrase t) : Text.collapse t = t := h.collapsed

theorem phrase_of_solid (hne : t ≠ []) (hs : t.Solid)
    (hb : ∀ c ∈ t, Nesting.isBracket c = false) (hc : ',' ∉ t) : Phrase t := by
  obtain ⟨hclosed, houter⟩ := Nesting.closed_of_forall hb
  exact ⟨hne, hs.collapsed, hclosed, houter.symm ▸ hc⟩

theorem Phrase.append {s : Text} (hs : Phrase s) (ht : Phrase t) : Phrase (s ++ ' ' :: t) where
  ne_nil := by simp
  collapsed := hs.collapsed.append ht.collapsed hs.ne_nil ht.ne_nil
  closed := hs.closed.append (ht.closed.cons (by decide))
  comma_not_mem := by
    rw [hs.closed.outer_append (ht.closed.cons (by decide)), ht.closed.outer_cons (by decide)]
    simp [hs.comma_not_mem, ht.comma_not_mem]

theorem Phrase.listable (h : Phrase t) : Listable t := by
  refine ⟨h.closed, h.comma_not_mem, ?_⟩
  obtain ⟨c, u, rfl⟩ := List.exists_cons_of_ne_nil h.ne_nil
  have hc : Text.isBlank c = false := Text.halts_cons.1 h.collapsed.trimmed.1
  simp [hc]

theorem Listable.cons_space (h : Listable t) : Listable (' ' :: t) where
  closed := h.closed.cons (by decide)
  comma_not_mem := by
    rw [h.closed.outer_cons (by decide)]
    simp [h.comma_not_mem]
  not_blank := by simp [h.not_blank]

theorem Listable.concat_space (h : Listable t) : Listable (t ++ [' ']) := by
  obtain ⟨hclosed, houter⟩ := Nesting.closed_of_forall (t := [' ']) (by decide)
  refine ⟨h.closed.append hclosed, ?_, by simp [h.not_blank]⟩
  rw [h.closed.outer_append hclosed, houter]
  simp [h.comma_not_mem]

/-- The spaces behind the commas of a list belong to the items. -/
theorem split_joinWith_comma (h : ∀ u ∈ t :: ts, Listable u) :
    Nesting.split ',' (Text.joinWith ", " (t :: ts)) = t :: ts.map (' ' :: ·) := by
  have hsep : Text.joinWith ", " (t :: ts) = Text.joinWith [','] (t :: ts.map (' ' :: ·)) :=
    Text.joinWith_append_right [','] [' '] t ts
  rw [hsep]
  refine Nesting.split_joinWith (by decide) (by simp) fun u hu => ?_
  rcases List.mem_cons.1 hu with rfl | hu
  · exact ⟨(h u (.head _)).closed, (h u (.head _)).comma_not_mem⟩
  · obtain ⟨v, hv, rfl⟩ := List.mem_map.1 hu
    have hp := h v (.tail _ hv)
    refine ⟨hp.closed.cons (by decide), ?_⟩
    rw [hp.closed.outer_cons (by decide)]
    simp [hp.comma_not_mem]

theorem map_collapse_split (h : ∀ u ∈ t :: ts, Listable u) :
    (Nesting.split ',' (Text.joinWith ", " (t :: ts))).map Text.collapse =
      (t :: ts).map Text.collapse := by
  have hcollapse : Text.collapse ∘ (' ' :: ·) = Text.collapse :=
    funext fun u => Text.collapse_cons_of_isBlank (by decide) u
  rw [split_joinWith_comma h, List.map_cons, List.map_map, hcollapse, List.map_cons]

theorem splitNames_joinWith (h : ∀ u ∈ ts, Listable u) :
    splitNames (Text.joinWith ", " ts) = ts.map Text.collapse := by
  cases ts with
  | nil => rfl
  | cons t ts =>
    have hkeep : ∀ u ∈ Nesting.split ',' (Text.joinWith ", " (t :: ts)),
        (!u.all Text.isBlank) = true := by
      intro u hu
      rw [split_joinWith_comma h] at hu
      rcases List.mem_cons.1 hu with rfl | hu
      · simp [(h u (.head _)).not_blank]
      · obtain ⟨v, hv, rfl⟩ := List.mem_map.1 hu
        simp [(h v (.tail _ hv)).not_blank]
    rw [splitNames, List.filter_eq_self.2 hkeep, map_collapse_split h]

theorem map_collapse_eq (h : ∀ u ∈ ts, Phrase u) : ts.map Text.collapse = ts :=
  (List.map_congr_left fun u hu => (h u hu).collapse_eq).trans (List.map_id' ts)

theorem splitNames_spaces (h : ∀ u ∈ ts, Phrase u) :
    splitNames (' ' :: (Text.joinWith ", " ts ++ [' '])) = ts := by
  rcases List.eq_nil_or_concat' ts with rfl | ⟨us, t, rfl⟩
  · rfl
  have hlist : ∀ u ∈ us ++ [t ++ [' ']], Listable u := by
    refine List.forall_mem_append.2 ⟨fun u hu => (h u (List.mem_append_left _ hu)).listable, ?_⟩
    simpa using (h t (by simp)).listable.concat_space
  have hcollapse : (us ++ [t ++ [' ']]).map Text.collapse = us ++ [t] := by
    rw [List.map_append, List.map_singleton, Text.collapse_concat_of_isBlank (by decide)]
    exact List.map_append.symm.trans (map_collapse_eq h)
  rw [← Text.joinWith_concat_append]
  generalize us ++ [t ++ [' ']] = items at hlist hcollapse
  rw [← hcollapse]
  cases items with
  | nil => rfl
  | cons u items =>
    have hfirst : ∀ v ∈ (' ' :: u) :: items, Listable v := by
      obtain ⟨hu, hitems⟩ := List.forall_mem_cons.1 hlist
      exact List.forall_mem_cons.2 ⟨hu.cons_space, hitems⟩
    have hsplit := splitNames_joinWith hfirst
    rw [List.map_cons, Text.collapse_cons_of_isBlank (by decide)] at hsplit
    exact (congrArg splitNames (Text.joinWith_append_cons ", " [' '] u items).symm).trans hsplit

end Lists

section TypeName

variable {t rest : Text} {c : Char}

/-- A type name begins with everything before its arguments. -/
theorem typeName_append (ht : ∀ d ∈ t, d ≠ '<' ∧ d ≠ '[') (hb : t.Solid) (hc : c = '<' ∨ c = '[') :
    typeName (t ++ c :: rest) = t := by
  have htake : (t ++ c :: rest).takeWhile (fun c => c != '<' && c != '[') = t := by
    rw [List.takeWhile_append_of_pos fun d hd => by simpa using ht d hd]
    rcases hc with rfl | rfl <;> simp
  have hlt : t.length < (t ++ c :: rest).length := by simp
  rw [typeName]
  simp only [htake, hlt, if_true]
  rw [Text.dropRight, Text.dropWhile_of_halts hb.trimmed.2, List.reverse_reverse]

theorem typeName_eq_self (ht : ∀ d ∈ t, d ≠ '<' ∧ d ≠ '[') : typeName t = t := by
  have htake : t.takeWhile (fun c => c != '<' && c != '[') = t :=
    List.takeWhile_eq_self_iff.2 fun d hd => by simpa using ht d hd
  rw [typeName]
  simp only [htake, Nat.lt_irrefl, if_false]

theorem typeName_collapse (ht : ∀ d ∈ t, d ≠ '<' ∧ d ≠ '[') (hb : t.Solid) (hc : c = '<' ∨ c = '[') :
    typeName (Text.collapse (t ++ c :: rest)) = t := by
  have hs : Text.Solid (t ++ [c]) := by
    rcases hc with rfl | rfl <;> exact hb.append (by simp [Text.Solid]; decide)
  obtain ⟨u, hu⟩ := Text.collapse_append_of_solid hs (by simp) rest
  rw [List.append_assoc, List.append_assoc] at hu
  exact hu ▸ typeName_append ht hb hc

end TypeName

namespace Parameter

def isPlain (c : Char) : Bool :=
  !Text.isBlank c && !Nesting.isBracket c && Text.noneOf [',', ':', '=', '?', '*', '/'] c

theorem isPlain_iff {c : Char} : isPlain c = true ↔
    Text.isBlank c = false ∧ Nesting.isBracket c = false ∧ c ∉ [',', ':', '=', '?', '*', '/'] := by
  simp [isPlain, Text.noneOf, and_assoc]

theorem isPlain_of_isIdentPart {c : Char} (h : Script.isIdentPart c = true) :
    isPlain c = true := by
  have hne : ∀ d, Script.isIdentPart d = false → c ≠ d := by
    rintro d hd rfl
    rw [h] at hd
    cases hd
  have hblank : Text.isBlank c = false := by
    rcases Bool.or_eq_true_iff.1 h with h | h
    · exact Text.isBlank_of_isWord h
    · rw [eq_of_beq h]; decide
  simp [isPlain, hblank, Nesting.isBracket, Nesting.isOpener, Nesting.isCloser, Text.noneOf,
    hne '(' (by decide), hne '[' (by decide), hne '{' (by decide), hne '<' (by decide),
    hne ')' (by decide), hne ']' (by decide), hne '}' (by decide), hne '>' (by decide),
    hne ',' (by decide), hne ':' (by decide), hne '=' (by decide), hne '?' (by decide),
    hne '*' (by decide), hne '/' (by decide)]

/-- A parameter as it is written: the marks of a rest parameter, a name, a question mark or none,
and behind the name a type and a default value or none. -/
structure Form where
  lead : Text := []
  name : Text
  question : Bool := false
  type : Option Text := none
  value : Option Text := none

namespace Form

def head (f : Form) : Text := f.lead ++ f.name ++ if f.question then ['?'] else []

def typed (f : Form) : Text :=
  match f.type with
  | some t => f.head ++ ": " ++ t
  | none => f.head

def text (f : Form) : Text :=
  match f.value with
  | some v => f.typed ++ " = " ++ v
  | none => f.typed

def parameter (defaultMarksOptional : Bool) (f : Form) : Parameter where
  name := f.name
  type := f.type
  isOptional := f.question || (defaultMarksOptional && f.value.isSome)
  defaultValue := f.value

theorem mem_text (f : Form) {c : Char} (hc : c ∈ f.name) : c ∈ f.text := by
  have hhead : c ∈ f.head := by simp [head, hc]
  have htyped : c ∈ f.typed := by
    unfold typed
    split
    · simp [hhead]
    · exact hhead
  unfold text
  split
  · simp [htyped]
  · exact htyped

structure Proper (f : Form) : Prop where
  lead : ∀ c ∈ f.lead, c = '*' ∨ c = '.'
  name_ne_nil : f.name ≠ []
  name_plain : ∀ c ∈ f.name, isPlain c = true
  name_head : f.name.head? ≠ some '.'
  type : ∀ t ∈ f.type, Phrase t ∧ Nesting.Misses '=' t
  value : ∀ v ∈ f.value, Phrase v

section Proper

variable {f : Form} (h : f.Proper)
include h

theorem mem_head {c : Char} (hc : c ∈ f.head) :
    Text.isBlank c = false ∧ Nesting.isBracket c = false ∧ c ≠ ',' ∧ c ≠ ':' ∧ c ≠ '=' := by
  simp only [head, List.mem_append] at hc
  rcases hc with (hc | hc) | hc
  · rcases h.lead c hc with rfl | rfl <;> decide
  · obtain ⟨hblank, hbracket, hnot⟩ := isPlain_iff.1 (h.name_plain c hc)
    simp only [List.mem_cons, not_or] at hnot
    exact ⟨hblank, hbracket, hnot.1, hnot.2.1, hnot.2.2.1⟩
  · split at hc
    · rw [List.mem_singleton.1 hc]; decide
    · cases hc

theorem head_ne_nil : f.head ≠ [] := by
  simp [head, h.name_ne_nil]

theorem head_closed : Nesting.Closed f.head ∧ Nesting.outer f.head = f.head :=
  Nesting.closed_of_forall fun _ hc => (f.mem_head h hc).2.1

theorem head_solid : f.head.Solid := fun _ hc => (f.mem_head h hc).1

theorem head_misses : Nesting.Misses ':' f.head ∧ Nesting.Misses '=' f.head := by
  have houter := (f.head_closed h).2
  constructor <;> refine Nesting.misses_of_not_mem (by decide) ?_ <;> rw [houter] <;> intro hm
  · exact (f.mem_head h hm).2.2.2.1 rfl
  · exact (f.mem_head h hm).2.2.2.2 rfl

/-- The text before the default value is a phrase in which no value is assigned. -/
theorem typed_phrase : Phrase f.typed ∧ Nesting.Misses '=' f.typed := by
  obtain ⟨hclosed, houter⟩ := f.head_closed h
  have hcomma : ',' ∉ f.head := fun hm => (f.mem_head h hm).2.2.1 rfl
  cases ht : f.type with
  | none =>
    have htyped : f.typed = f.head := by simp [typed, ht]
    rw [htyped]
    exact ⟨⟨f.head_ne_nil h, (f.head_solid h).collapsed, hclosed, houter.symm ▸ hcomma⟩,
      (f.head_misses h).2⟩
  | some t =>
    obtain ⟨hphrase, hsign⟩ := h.type t ht
    have htyped : f.typed = f.head ++ ':' :: ' ' :: t := by simp [typed, ht]
    have hspace : Nesting.Closed (' ' :: t) := hphrase.closed.cons (by decide)
    have htail : Nesting.Closed (':' :: ' ' :: t) := hspace.cons (by decide)
    have hcollapsed : (f.head ++ [':']).Collapsed :=
      Text.Solid.collapsed ((f.head_solid h).append (by simp [Text.Solid]; decide))
    have hmisses : Nesting.Misses '=' (':' :: ' ' :: t) :=
      Nesting.Misses.append (s := [':', ' ']) rfl hsign rfl hphrase.closed
    refine ⟨⟨by simp [htyped], ?_, htyped ▸ hclosed.append htail, ?_⟩, ?_⟩
    · rw [htyped]
      simpa using hcollapsed.append hphrase.collapsed (by simp) hphrase.ne_nil
    · rw [htyped, hclosed.outer_append htail, houter, hspace.outer_cons (by decide),
        hphrase.closed.outer_cons (by decide)]
      simp [hcomma, hphrase.comma_not_mem]
    · rw [htyped]
      exact (f.head_misses h).2.append hmisses hclosed htail

theorem text_phrase : Phrase f.text := by
  obtain ⟨htyped, hsign⟩ := f.typed_phrase h
  cases hv : f.value with
  | none => simpa [text, hv] using htyped
  | some v =>
    have hphrase := h.value v hv
    have htext : f.text = f.typed ++ ' ' :: '=' :: ' ' :: v := by simp [text, hv]
    have h1 : Nesting.Closed (' ' :: v) := hphrase.closed.cons (by decide)
    have h2 : Nesting.Closed ('=' :: ' ' :: v) := h1.cons (by decide)
    have h3 : Nesting.Closed (' ' :: '=' :: ' ' :: v) := h2.cons (by decide)
    have hcollapsed : Text.Collapsed ('=' :: ' ' :: v) :=
      Text.Collapsed.append (s := ['=']) (by rfl) hphrase.collapsed (by simp) hphrase.ne_nil
    refine ⟨by simp [htext], ?_, htext ▸ htyped.closed.append h3, ?_⟩
    · rw [htext]
      exact htyped.collapsed.append hcollapsed htyped.ne_nil (by simp)
    · rw [htext, htyped.closed.outer_append h3, h2.outer_cons (by decide), h1.outer_cons (by decide),
        hphrase.closed.outer_cons (by decide)]
      simp [htyped.comma_not_mem, hphrase.comma_not_mem]

theorem cutTopLevel_text : cutTopLevel '=' f.text = (f.typed, f.value) := by
  obtain ⟨htyped, hsign⟩ := f.typed_phrase h
  cases hv : f.value with
  | none =>
    have htext : f.text = f.typed := by simp [text, hv]
    rw [htext, cutTopLevel_eq_none htyped.closed hsign]
  | some v =>
    have htext : f.text = (f.typed ++ [' ']) ++ '=' :: ' ' :: v := by simp [text, hv]
    have hspace : Nesting.Closed [' '] := rfl
    have hsign : Nesting.Misses '=' (f.typed ++ [' ']) := hsign.append rfl htyped.closed hspace
    rw [htext, cutTopLevel_append (htyped.closed.append hspace) hsign (by decide) (fun _ => rfl),
      htyped.collapsed.trimmed.strip_append, (h.value v hv).collapsed.trimmed.strip_cons]

theorem cutTopLevel_typed : cutTopLevel ':' f.typed = (f.head, f.type) := by
  have hclosed := (f.head_closed h).1
  have hcolon := (f.head_misses h).1
  cases ht : f.type with
  | none =>
    have htyped : f.typed = f.head := by simp [typed, ht]
    rw [htyped, cutTopLevel_eq_none hclosed hcolon]
  | some t =>
    have htyped : f.typed = f.head ++ ':' :: ' ' :: t := by simp [typed, ht]
    rw [htyped, cutTopLevel_append hclosed hcolon (by decide) (fun hc => absurd hc (by decide)),
      (f.head_solid h).trimmed.strip_eq, (h.type t ht).1.collapsed.trimmed.strip_cons]

theorem strip_head :
    Text.strip ((Text.dropRight (· == '?') f.head).dropWhile fun c => c == '*' || c == '.') =
      f.name := by
  have hplain : ∀ c ∈ f.name, c ≠ '?' ∧ c ≠ '*' ∧ Text.isBlank c = false := by
    intro c hc
    obtain ⟨hblank, _, hnot⟩ := isPlain_iff.1 (h.name_plain c hc)
    simp only [List.mem_cons, not_or] at hnot
    exact ⟨hnot.2.2.2.1, hnot.2.2.2.2.1, hblank⟩
  have hlead : ∀ c ∈ f.lead, (c == '*' || c == '.') = true := by
    intro c hc
    rcases h.lead c hc with rfl | rfl <;> rfl
  have hmark : Text.Halts (· == '?') (f.lead ++ f.name).reverse := by
    refine Text.halts_of_forall fun c hc => ?_
    rcases List.mem_append.1 (List.mem_reverse.1 hc) with hc | hc
    · rcases h.lead c hc with rfl | rfl <;> rfl
    · simpa using (hplain c hc).1
  have hdrop : Text.dropRight (· == '?') f.head = f.lead ++ f.name := by
    rw [Text.dropRight, head]
    split
    · rw [List.reverse_append, List.reverse_singleton, List.singleton_append,
        List.dropWhile_cons_of_pos (by rfl), Text.dropWhile_of_halts hmark, List.reverse_reverse]
    · rw [List.append_nil, Text.dropWhile_of_halts hmark, List.reverse_reverse]
  have hname : Text.Halts (fun c => c == '*' || c == '.') f.name := by
    intro c hc
    have hdot : c ≠ '.' := fun hd => h.name_head (hd ▸ hc)
    simp [(hplain c (List.mem_of_mem_head? hc)).2.1, hdot]
  rw [hdrop, List.dropWhile_append_of_pos hlead, Text.dropWhile_of_halts hname]
  exact Text.Trimmed.strip_eq (Text.Solid.trimmed fun c hc => (hplain c hc).2.2)

theorem endsWith_head : Text.endsWith f.head ['?'] = f.question := by
  obtain ⟨s, c, hs⟩ := (List.eq_nil_or_concat f.name).resolve_left h.name_ne_nil
  have hc : c ≠ '?' := by
    rintro rfl
    exact absurd (h.name_plain '?' (by simp [hs])) (by decide)
  cases hq : f.question with
  | true => exact Text.endsWith_iff.2 ⟨f.lead ++ f.name, by simp [head, hq]⟩
  | false =>
    rw [Bool.eq_false_iff, Ne, Text.endsWith_iff]
    rintro ⟨u, hu⟩
    have hlast := congrArg List.getLast? hu
    simp [head, hq, hs] at hlast
    exact hc hlast.symm

theorem ofItem?_text (mark : Bool) : ofItem? mark f.text = some (f.parameter mark) := by
  have hname : f.name.isEmpty = false := by simpa using h.name_ne_nil
  have hempty : ¬ (f.text = [] ∨ f.text = ['*'] ∨ f.text = ['/']) := by
    obtain ⟨c, hc⟩ := List.exists_mem_of_ne_nil _ h.name_ne_nil
    have hmem := f.mem_text hc
    have hnot := (isPlain_iff.1 (h.name_plain c hc)).2.2
    rintro (ht | ht | ht) <;> rw [ht] at hmem
    · cases hmem
    · simp [List.mem_singleton.1 hmem] at hnot
    · simp [List.mem_singleton.1 hmem] at hnot
  have htype : f.type.filter (fun t => !t.isEmpty) = f.type := by
    cases ht : f.type with
    | none => rfl
    | some t => simp [Option.filter, (h.type t ht).1.ne_nil]
  simp only [ofItem?, if_neg hempty, f.cutTopLevel_text h, f.cutTopLevel_typed h, f.strip_head h,
    f.endsWith_head h, hname, htype]
  rfl

end Proper

end Form

theorem parse_joinWith (mark : Bool) {fs : List Form} (h : ∀ f ∈ fs, f.Proper) :
    parse mark (Text.joinWith ", " (fs.map Form.text)) = fs.map (Form.parameter mark) := by
  cases fs with
  | nil => rfl
  | cons f fs =>
    have hphrase : ∀ t ∈ (f :: fs).map Form.text, Phrase t :=
      List.forall_mem_map.2 fun g hg => g.text_phrase (h g hg)
    have hread : ∀ g ∈ f :: fs, (ofItem? mark ∘ Form.text) g = some (g.parameter mark) :=
      fun g hg => g.ofItem?_text (h g hg) mark
    have hparse : ∀ t, parse mark t =
        ((Nesting.split ',' t).map Text.collapse).filterMap (ofItem? mark) := by
      intro t
      rw [List.filterMap_map]
      rfl
    have hsplit := map_collapse_split fun t ht => (hphrase t ht).listable
    rw [hparse, List.map_cons, hsplit.trans (map_collapse_eq hphrase),
      ← List.map_cons (f := Form.text), List.filterMap_map,
      List.filterMap_eq_map_iff_forall_eq_some.2 hread]

/-- The text of a parameter: three dots if it takes the rest of the arguments, its name, a question
mark if it is optional, then its type and its default value if it has them. -/
def written (rest : Bool) (p : Parameter) : Text :=
  (if rest then ("..." : Text) else []) ++ p.name ++ (if p.isOptional then ['?'] else [])
    ++ (match p.type with
        | some t => ": " ++ t
        | none => [])
    ++ (match p.defaultValue with
        | some v => " = " ++ v
        | none => [])

/-- What a parameter may hold to be read back: a name without signs, a type whose only equality
signs outside brackets are those of arrows, and any phrase as default value. -/
structure Writable (p : Parameter) : Prop where
  name_ne_nil : p.name ≠ []
  name_plain : ∀ c ∈ p.name, isPlain c = true
  name_head : p.name.head? ≠ some '.'
  type : ∀ t ∈ p.type, Phrase t ∧ Nesting.Misses '=' t
  value : ∀ v ∈ p.defaultValue, Phrase v

instance (p : Parameter) : Decidable p.Writable :=
  decidable_of_iff
    (p.name ≠ [] ∧ (∀ c ∈ p.name, isPlain c = true) ∧ p.name.head? ≠ some '.' ∧
      (∀ t ∈ p.type, Phrase t ∧ Nesting.Misses '=' t) ∧ ∀ v ∈ p.defaultValue, Phrase v)
    ⟨fun ⟨hne, hplain, hhead, htype, hvalue⟩ => ⟨hne, hplain, hhead, htype, hvalue⟩,
      fun h => ⟨h.name_ne_nil, h.name_plain, h.name_head, h.type, h.value⟩⟩

section Written

variable (rest : Bool) (p : Parameter)

def form : Form where
  lead := if rest then ("..." : Text) else []
  name := p.name
  question := p.isOptional
  type := p.type
  value := p.defaultValue

theorem text_form : (p.form rest).text = p.written rest := by
  cases ht : p.type <;> cases hv : p.defaultValue <;>
    simp [Form.text, Form.typed, Form.head, form, written, ht, hv]

theorem parameter_form : (p.form rest).parameter false = p := by
  simp [Form.parameter, form]

theorem Writable.proper {p : Parameter} (h : p.Writable) : (p.form rest).Proper where
  lead := by
    intro c hc
    cases rest with
    | false => cases hc
    | true => exact .inr (List.eq_of_mem_replicate (n := 3) hc)
  name_ne_nil := h.name_ne_nil
  name_plain := h.name_plain
  name_head := h.name_head
  type := h.type
  value := h.value

end Written

/-- Reading parameters is the inverse of writing them. -/
theorem parse_written {ps : List (Bool × Parameter)} (h : ∀ x ∈ ps, x.2.Writable) :
    parse false (Text.joinWith ", " (ps.map fun x => x.2.written x.1)) = ps.map Prod.snd := by
  have hproper : ∀ f ∈ ps.map fun x => x.2.form x.1, f.Proper :=
    List.forall_mem_map.2 fun x hx => (h x hx).proper x.1
  have hparse := parse_joinWith false hproper
  simpa only [List.map_map, Function.comp_def, text_form, parameter_form] using hparse

/-- Arrows, commas and assignments in brackets do not end a type or a default value. -/
theorem parse_written_arrows :
    parse false "f?: (a: number) => Map<string, void> = (x) => [x, y = 1], ...rest: { a: T[] }[]" =
      [⟨"f", some "(a: number) => Map<string, void>", true, some "(x) => [x, y = 1]"⟩,
       ⟨"rest", some "{ a: T[] }[]", false, none⟩] := by
  let ps : List (Bool × Parameter) :=
    [(false, ⟨"f", some "(a: number) => Map<string, void>", true, some "(x) => [x, y = 1]"⟩),
     (true, ⟨"rest", some "{ a: T[] }[]", false, none⟩)]
  have hwritable : ∀ x ∈ ps, x.2.Writable := by decide +kernel
  have htext : Text.joinWith ", " (ps.map fun x => x.2.written x.1) =
      "f?: (a: number) => Map<string, void> = (x) => [x, y = 1], ...rest: { a: T[] }[]" := by
    decide +kernel
  have hparse := parse_written hwritable
  rwa [htext] at hparse

end Parameter

end CodeAtlas
