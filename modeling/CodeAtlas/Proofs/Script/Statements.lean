import CodeAtlas.Proofs.Script.Texts
import Mathlib.Data.List.Chain

/-!
Variables that have a type and no value, and variables that arrow functions are bound to, each on a
line of its own. A type may be anything without an equality sign or a semicolon, so an annotation
without a semicolon behind it may go on into the statements that follow.
-/

set_option autoImplicit false

namespace CodeAtlas.Script

inductive Binder where
  | const | lexical | var
  deriving DecidableEq, Repr

def Binder.text : Binder → Text
  | .const => "const"
  | .lexical => "let"
  | .var => "var"

theorem Binder.exists_cons (b : Binder) :
    ∃ x w, b.text = x :: w ∧ isIdentStart x = true ∧ Text.isWord x = true := by
  cases b
  · exact ⟨'c', _, rfl, by decide⟩
  · exact ⟨'l', _, rfl, by decide⟩
  · exact ⟨'v', _, rfl, by decide⟩

theorem Binder.ne_nil (b : Binder) : b.text ≠ [] := by
  obtain ⟨x, w, hw, -⟩ := b.exists_cons
  exact hw ▸ List.cons_ne_nil x w

def terminator (isClosed : Bool) : Text := if isClosed then [';'] else []

/-- A variable with a type and no value. -/
structure TypedVariable where
  isVar : Bool
  name : Ident
  type : TypeExpr
  isClosed : Bool

def TypedVariable.binder (d : TypedVariable) : Binder := if d.isVar then .var else .lexical

def TypedVariable.annotation (d : TypedVariable) : Text := ':' :: ' ' :: d.type.text

def TypedVariable.text (d : TypedVariable) : Text :=
  Text.concat [d.binder.text, [' '], d.name.text, d.annotation, terminator d.isClosed]

structure ArrowBinding where
  isExported : Bool
  binder : Binder
  name : Ident
  isAsync : Bool
  params : List Ident
  body : Atom
  isClosed : Bool

namespace ArrowBinding

def parameterText (a : ArrowBinding) : Text := Text.joinWith ", " (a.params.map Ident.text)

def value (a : ArrowBinding) : Text :=
  Text.concat [['=', ' '], word a.isAsync "async", ['('], a.parameterText, [')', ' ', '=', '>']]

def target (a : ArrowBinding) : Text := Text.concat [a.binder.text, [' '], a.name.text, [' ']]

def ending (a : ArrowBinding) : Text := Text.concat [[' '], a.body.text, terminator a.isClosed]

def text (a : ArrowBinding) : Text :=
  Text.concat [word a.isExported "export", a.target, a.value, a.ending]

def declared (line : Nat) (a : ArrowBinding) : FunctionRecord where
  name := a.name.text
  parameters := a.params.map fun n => { name := n.text }
  isAsync := a.isAsync
  isExported := a.isExported
  startLine := line
  endLine := line + functionSpan

end ArrowBinding

inductive Statement where
  | typed (d : TypedVariable)
  | arrow (a : ArrowBinding)

namespace Statement

def text : Statement → Text
  | typed d => d.text
  | arrow a => a.text

def isArrow : Statement → Bool
  | typed _ => false
  | arrow _ => true

def runsInto : Statement → Statement → Bool
  | typed d, s => !d.isClosed && s.isArrow
  | arrow _, _ => false

end Statement

def statementsText (ss : List Statement) : Text := Pattern.blocks Statement.text ss

def bindings (line : Nat) : List Statement → List FunctionRecord
  | [] => []
  | .typed _ :: ss => bindings (line + 1) ss
  | .arrow a :: ss => a.declared line :: bindings (line + 1) ss

/-- The functions that are found. A declaration without a semicolon is held until an arrow function
or a semicolon comes; the first one held gives the arrow function its name and its line. -/
def found (held : Option (Ident × Nat)) (line : Nat) : List Statement → List FunctionRecord
  | [] => []
  | .typed d :: ss =>
    found (if d.isClosed then none else held.or (some (d.name, line))) (line + 1) ss
  | .arrow a :: ss =>
    (match held with
      | none => a.declared line
      | .some (n, l) => { a.declared l with name := n.text, isExported := false })
      :: found none (line + 1) ss

section Texts

theorem plain_binder (b : Binder) : ∀ c ∈ b.text, isIdentPart c = true := by
  cases b <;> decide

def TypedVariable.body (d : TypedVariable) : Text :=
  Text.concat [d.binder.text, [' '], d.name.text, d.annotation]

theorem TypedVariable.mem_body {d : TypedVariable} {c : Char} (hc : c ∈ d.body) :
    isIdentPart c = true ∨ c ∈ [',', ' ', '<', '>', '[', ']', ':'] := by
  have htype : ∀ c ∈ [',', ' ', '<', '>', '[', ']'], c ∈ [',', ' ', '<', '>', '[', ']', ':'] := by
    decide
  simp only [body, annotation, Text.concat_cons, Text.concat_nil, List.append_nil, List.mem_append,
    List.mem_cons, List.not_mem_nil, or_false] at hc
  rcases hc with hc | rfl | hc | rfl | rfl | hc
  · exact .inl (plain_binder _ c hc)
  · decide
  · exact .inl (d.name.isIdentPart hc)
  · decide
  · decide
  · exact (d.type.mem_text hc).imp_right (htype c)

namespace ArrowBinding

variable (a : ArrowBinding)

theorem mem_parameterText : ∀ c ∈ a.parameterText, isIdentPart c = true ∨ c ∈ [',', ' '] := by
  have hsep : ∀ d ∈ (", " : Text), d ∈ [',', ' '] := by decide
  exact Text.forall_mem_joinWith (fun d hd => .inr (hsep d hd))
    (List.forall_mem_map.2 fun n _ d hd => .inl (n.isIdentPart hd))

theorem not_mem_parameterText {d : Char} (hd : isIdentPart d = false) (hd' : d ∉ [',', ' ']) :
    d ∉ a.parameterText := by
  intro hc
  rcases a.mem_parameterText d hc with h | h
  · exact ne_of_isIdentPart h hd rfl
  · exact hd' h

theorem parse_parameterText :
    Parameter.parse false a.parameterText = a.params.map fun n => { name := n.text } := by
  have htexts : a.params.map Ident.text = (a.params.map fun n => (⟨n, false, none, none⟩ : Param)).map
      Param.text := by
    simp [Param.text, Param.form, Parameter.Form.text, Parameter.Form.typed, Parameter.Form.head]
  rw [parameterText, htexts, Param.parse_joinWith, List.map_map]
  rfl

theorem mem_target {a : ArrowBinding} {c : Char} (hc : c ∈ word a.isExported "export" ++ a.target) :
    isIdentPart c = true ∨ c ∈ [' '] := by
  have hword : ∀ e : Bool, ∀ c ∈ word e "export", isIdentPart c = true ∨ c ∈ [' '] := by decide
  simp only [target, Text.concat_cons, Text.concat_nil, List.append_nil, List.mem_append] at hc
  rcases hc with hc | hc | hc | hc | hc
  · exact hword _ c hc
  · exact .inl (plain_binder _ c hc)
  · exact .inr hc
  · exact .inl (a.name.isIdentPart hc)
  · exact .inr hc

theorem mem_value {a : ArrowBinding} {c : Char} (hc : c ∈ a.value) :
    isIdentPart c = true ∨ c ∈ [',', ' ', '=', '(', ')', '>'] := by
  have hword : ∀ e : Bool, ∀ c ∈ word e "async",
      isIdentPart c = true ∨ c ∈ [',', ' ', '=', '(', ')', '>'] := by decide
  have hsigns : ∀ t ∈ [[',', ' '], ['=', ' '], ['('], [')', ' ', '=', '>']], ∀ c ∈ t,
      c ∈ [',', ' ', '=', '(', ')', '>'] := by decide
  simp only [value, Text.concat_cons, Text.concat_nil, List.append_nil, List.mem_append] at hc
  rcases hc with hc | hc | hc | hc | hc
  · exact .inr (hsigns _ (by decide) c hc)
  · exact hword _ c hc
  · exact .inr (hsigns _ (by decide) c hc)
  · exact (a.mem_parameterText c hc).imp_right (hsigns _ (by decide) c)
  · exact .inr (hsigns _ (by decide) c hc)

theorem mem_ending {a : ArrowBinding} {c : Char} (hc : c ∈ a.ending) :
    isIdentPart c = true ∨ c ∈ [' ', '.', '+', '-', ';'] := by
  have hclosed : ∀ e : Bool, ∀ c ∈ terminator e, c ∈ [' ', '.', '+', '-', ';'] := by decide
  have hbody : ∀ c ∈ ['.', '+', '-'], c ∈ [' ', '.', '+', '-', ';'] := by decide
  simp only [ending, Text.concat_cons, Text.concat_nil, List.append_nil, List.mem_append,
    List.mem_singleton] at hc
  rcases hc with rfl | hc | hc
  · decide
  · exact (a.body.mem_text hc).imp_right (hbody c)
  · exact .inr (hclosed _ c hc)

end ArrowBinding

def signs : List Char := [',', ' ', '<', '>', '[', ']', ':', ';', '=', '(', ')', '.', '+', '-']

theorem Statement.mem_text {s : Statement} {c : Char} (hc : c ∈ s.text) :
    isIdentPart c = true ∨ c ∈ signs := by
  have hsigns : ∀ t ∈ [[',', ' ', '<', '>', '[', ']', ':'], [' '], [',', ' ', '=', '(', ')', '>'],
      [' ', '.', '+', '-', ';']], ∀ c ∈ t, c ∈ signs := by decide
  cases s with
  | typed d =>
    have hclosed : ∀ e : Bool, ∀ c ∈ terminator e, c ∈ signs := by decide
    have htext : d.text = d.body ++ terminator d.isClosed := by
      simp [TypedVariable.text, TypedVariable.body]
    rw [text, htext] at hc
    rcases List.mem_append.1 hc with hc | hc
    · exact (TypedVariable.mem_body hc).imp_right (hsigns _ (by decide) c)
    · exact .inr (hclosed _ c hc)
  | arrow a =>
    have htext : a.text = (word a.isExported "export" ++ a.target) ++ (a.value ++ a.ending) := by
      simp [ArrowBinding.text]
    rw [text, htext, List.mem_append, List.mem_append (s := a.value)] at hc
    rcases hc with hc | hc | hc
    · exact (ArrowBinding.mem_target hc).imp_right (hsigns _ (by decide) c)
    · exact (ArrowBinding.mem_value hc).imp_right (hsigns _ (by decide) c)
    · exact (ArrowBinding.mem_ending hc).imp_right (hsigns _ (by decide) c)

theorem noneOf_of_isIdentPart {c : Char} (hc : isIdentPart c = true) :
    Text.noneOf ['=', ';'] c = true := Text.noneOf_of_class (by decide) c hc

theorem noneOf_body (d : TypedVariable) : ∀ c ∈ d.body, Text.noneOf ['=', ';'] c = true := by
  have hsigns : ∀ c ∈ [',', ' ', '<', '>', '[', ']', ':'], Text.noneOf ['=', ';'] c = true := by decide
  exact fun c hc => (TypedVariable.mem_body hc).elim noneOf_of_isIdentPart (hsigns c)

theorem noneOf_target (a : ArrowBinding) :
    ∀ c ∈ word a.isExported "export" ++ a.target, Text.noneOf ['=', ';'] c = true := by
  have hsigns : ∀ c ∈ [' '], Text.noneOf ['=', ';'] c = true := by decide
  exact fun c hc => (ArrowBinding.mem_target hc).elim noneOf_of_isIdentPart (hsigns c)

theorem Statement.not_mem_text (s : Statement) : ∀ d ∈ ['\n', '\x7b'], d ∉ s.text := by
  have hd : ∀ d ∈ ['\n', '\x7b'], isIdentPart d = false ∧ d ∉ signs := by decide
  intro d hmem hc
  obtain ⟨hpart, hsign⟩ := hd d hmem
  rcases s.mem_text hc with h | h
  · exact ne_of_isIdentPart h hpart rfl
  · exact hsign h

theorem statementsText_cons (s : Statement) (ss : List Statement) :
    statementsText (s :: ss) = (s.text ++ ['\n']) ++ statementsText ss := by
  rw [statementsText, Pattern.blocks, List.flatMap_cons]
  rfl

theorem block_typed (d : TypedVariable) :
    (Statement.typed d).text ++ ['\n'] = d.body ++ (terminator d.isClosed ++ ['\n']) := by
  simp [Statement.text, TypedVariable.text, TypedVariable.body]

theorem block_arrow (a : ArrowBinding) : (Statement.arrow a).text ++ ['\n'] =
    word a.isExported "export" ++ ((a.target ++ a.value) ++ (a.ending ++ ['\n'])) := by
  simp [Statement.text, ArrowBinding.text]

theorem statementsText_append (ss ts : List Statement) :
    statementsText (ss ++ ts) = statementsText ss ++ statementsText ts := List.flatMap_append

theorem statementsText_singleton (s : Statement) : statementsText [s] = s.text ++ ['\n'] :=
  List.append_nil _

theorem count_statementsText (ss : List Statement) :
    (statementsText ss).count '\n' = ss.length := by
  induction ss with
  | nil => rfl
  | cons s ss ih =>
    rw [statementsText_cons, List.count_append, List.count_append, ih,
      List.count_eq_zero.2 (s.not_mem_text _ (.head _)), List.count_singleton_self, Nat.zero_add,
      List.length_cons, Nat.add_comm]

theorem atLineStart_statementsText {before : List Char} (hb : (Cursor.mk before []).atLineStart = true)
    (ss : List Statement) :
    (Cursor.mk ((statementsText ss).reverse ++ before) []).atLineStart = true := by
  induction ss generalizing before with
  | nil => exact hb
  | cons s ss ih =>
    rw [statementsText_cons, List.reverse_append, List.append_assoc]
    exact ih (by simp [Cursor.atLineStart])

end Texts

section Found

variable {ss : List Statement} {line : Nat}

def ahead? : List Statement → Option (List TypedVariable × ArrowBinding × List Statement)
  | [] => none
  | .typed d :: ss =>
    if d.isClosed then none else (ahead? ss).map fun (ds, a, rest) => (d :: ds, a, rest)
  | .arrow a :: ss => some ([], a, ss)

theorem ahead?_eq_some {ss rest : List Statement} {ds : List TypedVariable} {a : ArrowBinding}
    (h : ahead? ss = Option.some (ds, a, rest)) :
    ss = ds.map .typed ++ .arrow a :: rest ∧ ∀ d ∈ ds, d.isClosed = false := by
  induction ss generalizing ds with
  | nil => cases h
  | cons s ss ih =>
    cases s with
    | typed d =>
      rw [ahead?] at h
      split at h
      · cases h
      · rename_i hopen
        obtain ⟨⟨ds', a', rest'⟩, hahead, heq⟩ := Option.map_eq_some_iff.1 h
        cases heq
        obtain ⟨hss, hds⟩ := ih hahead
        exact ⟨by rw [hss]; rfl, List.forall_mem_cons.2 ⟨by simpa using hopen, hds⟩⟩
    | arrow b =>
      cases h
      exact ⟨rfl, by simp⟩

/-- What is held makes no difference if no arrow function is ahead. -/
theorem found_of_ahead?_eq_none (h : ahead? ss = none) (held : Option (Ident × Nat)) :
    found held line ss = found none line ss := by
  induction ss generalizing held line with
  | nil => rfl
  | cons s ss ih =>
    cases s with
    | typed d =>
      rw [ahead?] at h
      split at h
      · rename_i hclosed
        simp only [found, hclosed, if_true]
      · rename_i hopen
        have hahead := Option.map_eq_none_iff.1 h
        rw [found, found, ih hahead, ih hahead (if d.isClosed then _ else _)]
    | arrow a => cases h

theorem found_of_ahead? {ds : List TypedVariable} {a : ArrowBinding} {rest : List Statement}
    (h : ahead? ss = Option.some (ds, a, rest)) (n : Ident) (l : Nat) :
    found (Option.some (n, l)) line ss =
      { a.declared l with name := n.text, isExported := false } ::
        found none (line + ds.length + 1) rest := by
  induction ss generalizing line ds with
  | nil => cases h
  | cons s ss ih =>
    cases s with
    | typed d =>
      rw [ahead?] at h
      split at h
      · cases h
      · rename_i hopen
        obtain ⟨⟨ds', a', rest'⟩, hahead, heq⟩ := Option.map_eq_some_iff.1 h
        cases heq
        rw [found, if_neg hopen, Option.some_or, ih hahead, List.length_cons]
        simp only [Nat.add_assoc, Nat.add_comm 1]
    | arrow b =>
      cases h
      rfl

theorem found_typed {d : TypedVariable} (h : d.isClosed = true ∨ ahead? ss = none) :
    found none line (.typed d :: ss) = found none (line + 1) ss := by
  rw [found]
  split
  · rfl
  · rename_i hopen
    exact found_of_ahead?_eq_none (h.resolve_left hopen) _

theorem found_typed_of_ahead? {d : TypedVariable} {ds : List TypedVariable} {a : ArrowBinding}
    {rest : List Statement} (hopen : d.isClosed = false) (h : ahead? ss = some (ds, a, rest)) :
    found none line (.typed d :: ss) =
      { a.declared line with name := d.name.text, isExported := false } ::
        found none (line + 1 + ds.length + 1) rest := by
  rw [found, if_neg (Bool.eq_false_iff.1 hopen), Option.none_or, found_of_ahead? h]

theorem declared_ne {a : ArrowBinding} {n : Ident} {l : Nat} (h : l < line) :
    ({ a.declared l with name := n.text, isExported := false } : FunctionRecord) ≠ a.declared line :=
  fun heq => Nat.ne_of_lt h (congrArg FunctionRecord.startLine heq)

/-- What is found is what is bound if and only if no declaration runs into an arrow function. -/
theorem found_eq_bindings_iff {held : Option (Ident × Nat)} (h : ∀ p ∈ held, p.2 < line) :
    found held line ss = bindings line ss ↔
      ss.IsChain (fun s t => s.runsInto t = false) ∧
        (held = none ∨ ∀ s ∈ ss.head?, s.isArrow = false) := by
  induction ss generalizing held line with
  | nil => simp [found, bindings]
  | cons s ss ih =>
    rw [List.isChain_cons]
    cases s with
    | typed d =>
      cases hclosed : d.isClosed with
      | true =>
        rw [found, bindings, if_pos hclosed, ih (by simp)]
        simp [Statement.runsInto, Statement.isArrow, hclosed]
      | false =>
        have hlater : ∀ p ∈ held.or (Option.some (d.name, line)), p.2 < line + 1 := by
          intro p hp
          cases held with
          | none =>
            cases hp
            exact Nat.lt_succ_self line
          | some q => exact Nat.lt_succ_of_lt (h p hp)
        have hheld : held.or (Option.some (d.name, line)) ≠ none := by simp
        rw [found, bindings, if_neg (Bool.eq_false_iff.1 hclosed), ih hlater, or_iff_right hheld]
        simp [Statement.runsInto, Statement.isArrow, hclosed, and_comm]
    | arrow a =>
      cases held with
      | none =>
        rw [found, bindings, List.cons.injEq, ih (by simp)]
        simp [Statement.runsInto]
      | some p =>
        rw [found, bindings, List.cons.injEq, ih (by simp)]
        simp [declared_ne (h p rfl), Statement.isArrow]

end Found

end CodeAtlas.Script
