import CodeAtlas.Proofs.Pattern.Search
import CodeAtlas.Proofs.Source.Parameters

/-!
Modules of Python as they are written: items that fill a line each, and what is declared by them. A
name is a run of word characters, and what stands between the brackets of a parameter list or of a
base class is text whose own brackets match.
-/

set_option autoImplicit false

namespace CodeAtlas.Python

def Flat (t : Text) : Prop := ∀ c ∈ t, c ≠ '(' ∧ c ≠ ')' ∧ c ≠ '\n'

instance (t : Text) : Decidable (Flat t) :=
  inferInstanceAs (Decidable (∀ c ∈ t, c ≠ '(' ∧ c ≠ ')' ∧ c ≠ '\n'))

structure Name where
  text : Text
  ne_nil : text ≠ []
  word : ∀ c ∈ text, Text.isWord c = true

structure Expression where
  text : Text
  phrase : Phrase text
  flat : Flat text

/-- A type, in which no value is assigned. -/
structure Annotation where
  text : Text
  phrase : Phrase text
  flat : Flat text
  unassigned : '=' ∉ Nesting.outer text

inductive Rest where
  | none | positional | keyword
  deriving DecidableEq, Repr

def Rest.text : Rest → Text
  | .none => []
  | .positional => ['*']
  | .keyword => ['*', '*']

structure Param where
  rest : Rest
  name : Name
  type : Option Annotation
  value : Option Expression

namespace Param

def form (p : Param) : Parameter.Form where
  lead := p.rest.text
  name := p.name.text
  type := p.type.map fun t => t.text
  value := p.value.map fun v => v.text

def text (p : Param) : Text := p.form.text

/-- The parameter that is declared; one with a default value is optional. -/
def declared (p : Param) : Parameter where
  name := p.name.text
  type := p.type.map fun t => t.text
  isOptional := p.value.isSome
  defaultValue := p.value.map fun v => v.text

end Param

structure Arguments where
  text : Text
  closed : Nesting.Closed text
  flat : Flat text
  unassigned : '=' ∉ text

structure Base where
  name : Name
  arguments : Option Arguments

def Base.text (b : Base) : Text :=
  match b.arguments with
  | some a => b.name.text ++ '[' :: (a.text ++ [']'])
  | none => b.name.text

structure Dotted where
  head : Name
  tail : List Name

def Dotted.text (d : Dotted) : Text := Text.joinWith ['.'] ((d.head :: d.tail).map Name.text)

structure Imported where
  module : Dotted
  known : Option Name

def Imported.text (i : Imported) : Text :=
  match i.known with
  | some name => i.module.text ++ " as " ++ name.text
  | none => i.module.text

def Imported.declared (i : Imported) : ImportRecord where
  source := i.module.text
  names := [match i.known with
    | some name => name.text
    | none => i.module.text]

inductive Item where
  | function (isAsync : Bool) (name : Name) (params : List Param)
  | type (name : Name) (bases : List Base)
  | imports (first : Imported) (more : List Imported)
  | names (dots : Nat) (module : Dotted) (first : Name) (more : List Name)
  | blank (t : Text) (h : ∀ c ∈ t, Text.isBlank c = true ∧ c ≠ '\n')
  | indented (t : Text) (h : '\n' ∉ t)

namespace Item

def functionText (isAsync : Bool) (name : Name) (params : List Param) : Text :=
  Text.concat [if isAsync then "async " else [], "def ", name.text, "(",
    Text.joinWith ", " (params.map Param.text), ")", ":"]

def enclosed (bases : List Base) : Text :=
  if bases = [] then [] else Text.concat ["(", Text.joinWith ", " (bases.map Base.text), ")"]

def typeText (name : Name) (bases : List Base) : Text :=
  Text.concat ["class ", name.text, enclosed bases, ":"]

def importsText (imports : List Imported) : Text :=
  Text.concat ["import ", Text.joinWith ", " (imports.map Imported.text)]

def sourceText (dots : Nat) (module : Dotted) : Text := List.replicate dots '.' ++ module.text

def namesText (dots : Nat) (module : Dotted) (names : List Name) : Text :=
  Text.concat ["from ", sourceText dots module, " import ",
    Text.joinWith ", " (names.map Name.text)]

def text : Item → Text
  | function isAsync name params => functionText isAsync name params
  | type name bases => typeText name bases
  | imports first more => importsText (first :: more)
  | names dots module first more => namesText dots module (first :: more)
  | blank t _ => t
  | indented t _ => ' ' :: t

def function? (line : Nat) : Item → Option FunctionRecord
  | function isAsync name params =>
    some { name := name.text, parameters := params.map Param.declared, isAsync
           isExported := isPublic name.text, startLine := line, endLine := line + functionSpan }
  | _ => none

/-- The class that an item on a line declares: its first base is the parent and the others are
interfaces. -/
def class? (line : Nat) : Item → Option ClassRecord
  | type name bases =>
    some { name := name.text, isExported := isPublic name.text
           startLine := line, endLine := line + classSpan
           parent := bases.head?.map fun b => b.name.text
           interfaces := match bases with
             | _ :: b :: bs => some ((b :: bs).map fun b => b.name.text)
             | _ => none }
  | _ => none

def imported : Item → List ImportRecord
  | imports first more => (first :: more).map Imported.declared
  | names dots module first more =>
    [{ source := sourceText dots module
       names := (first :: more).map Name.text }]
  | _ => []

end Item

def moduleText (items : List Item) : Text := Pattern.blocks Item.text items

def moduleFunctions (items : List Item) : List FunctionRecord :=
  items.zipIdx.filterMap fun p => p.1.function? (p.2 + 1)

def moduleClasses (items : List Item) : List ClassRecord :=
  items.zipIdx.filterMap fun p => p.1.class? (p.2 + 1)

/-- What is known of a module: everything its items declare, item by item. Public functions and then
public classes are exported. -/
def moduleFile (path : Text) (items : List Item) : ParsedFile where
  path
  language := "python"
  functions := moduleFunctions items
  classes := moduleClasses items
  imports := items.flatMap Item.imported
  exports := ((moduleFunctions items).filter fun f => isPublic f.name).map (⟨·.name, .function⟩)
    ++ ((moduleClasses items).filter fun c => isPublic c.name).map (⟨·.name, .type⟩)

/-! What the texts of the parts of an item are made of. -/

@[simp] theorem flat_nil : Flat [] := by simp [Flat]

@[simp] theorem flat_append {s t : Text} : Flat (s ++ t) ↔ Flat s ∧ Flat t :=
  List.forall_mem_append

@[simp] theorem flat_cons {c : Char} {t : Text} :
    Flat (c :: t) ↔ (c ≠ '(' ∧ c ≠ ')' ∧ c ≠ '\n') ∧ Flat t := by
  simp [Flat]

theorem flat_joinWith {sep : Text} {ts : List Text} (hsep : Flat sep) (h : ∀ t ∈ ts, Flat t) :
    Flat (Text.joinWith sep ts) := Text.forall_mem_joinWith hsep h

theorem Flat.not_mem {t : Text} (h : Flat t) : '(' ∉ t ∧ ')' ∉ t ∧ '\n' ∉ t :=
  ⟨fun hc => (h _ hc).1 rfl, fun hc => (h _ hc).2.1 rfl, fun hc => (h _ hc).2.2 rfl⟩

namespace Name

variable (n : Name)

theorem ne_of_mem {c d : Char} (hc : c ∈ n.text) (hd : Text.isWord d = false) : c ≠ d := by
  rintro rfl
  rw [n.word c hc] at hd
  cases hd

theorem flat : Flat n.text := fun _ hc =>
  ⟨n.ne_of_mem hc (by decide), n.ne_of_mem hc (by decide), n.ne_of_mem hc (by decide)⟩

theorem solid : n.text.Solid := fun c hc => Text.isBlank_of_isWord (n.word c hc)

theorem noneOf_lineEnd : ∀ c ∈ n.text, Text.noneOf ['\n', '#', ';'] c = true := by
  intro c hc
  simp [Text.noneOf, n.ne_of_mem hc (by decide : Text.isWord '\n' = false),
    n.ne_of_mem hc (by decide : Text.isWord '#' = false),
    n.ne_of_mem hc (by decide : Text.isWord ';' = false)]

theorem plain {c : Char} (hc : c ∈ n.text) : Parameter.isPlain c = true :=
  Parameter.isPlain_of_isIdentPart (isIdentPart_of_isWord (n.word c hc))

theorem isBracket {c : Char} (hc : c ∈ n.text) : Nesting.isBracket c = false :=
  (Parameter.isPlain_iff.1 (n.plain hc)).2.1

theorem halts {p : Text.Class} (hp : ∀ c, Text.isWord c = true → p c = false) (rest : Text) :
    Text.Halts p (n.text ++ rest) :=
  (Text.halts_append n.ne_nil rest).2 (Text.halts_of_forall fun c hc => hp c (n.word c hc))

end Name

theorem Name.phrase (n : Name) : Phrase n.text :=
  phrase_of_solid n.ne_nil n.solid (fun _ => n.isBracket)
    fun hc => n.ne_of_mem hc (by decide) rfl

theorem Name.splitNames_joinWith (ns : List Name) :
    splitNames (Text.trim (fun c => c == '(' || c == ')')
      (Text.strip (Text.joinWith ", " (ns.map Name.text)))) = ns.map Name.text := by
  have hphrase : ∀ t ∈ ns.map Name.text, Phrase t := List.forall_mem_map.2 fun n _ => n.phrase
  have htrimmed : Text.Trimmed (Text.joinWith ", " (ns.map Name.text)) :=
    Text.trimmed_joinWith (List.forall_mem_map.2 fun n _ => ⟨n.ne_nil, n.solid⟩)
  have hflat : Flat (Text.joinWith ", " (ns.map Name.text)) :=
    flat_joinWith (by simp) (List.forall_mem_map.2 fun n _ => n.flat)
  have hbracket : ∀ c ∈ Text.joinWith ", " (ns.map Name.text), (c == '(' || c == ')') = false := by
    intro c hc
    simp [hflat c hc]
  rw [htrimmed.strip_eq, Text.trim_eq_self hbracket,
    CodeAtlas.splitNames_joinWith fun t ht => (hphrase t ht).listable, map_collapse_eq hphrase]

namespace Param

variable (p : Param)

theorem proper : p.form.Proper where
  lead := by
    intro c hc
    have hrest : c ∈ p.rest.text := hc
    cases hr : p.rest <;> simp_all [Rest.text]
  name_ne_nil := p.name.ne_nil
  name_plain := fun _ => p.name.plain
  name_head := fun h => p.name.ne_of_mem (List.mem_of_mem_head? h) (by decide) rfl
  type := by
    intro t ht
    obtain ⟨u, _, rfl⟩ := Option.map_eq_some_iff.1 ht
    exact ⟨u.phrase, Nesting.misses_of_not_mem (by decide) u.unassigned⟩
  value := by
    intro v hv
    obtain ⟨u, _, rfl⟩ := Option.map_eq_some_iff.1 hv
    exact u.phrase

theorem flat : Flat p.text := by
  have hrest : Flat p.rest.text := by cases p.rest <;> simp [Rest.text]
  have hhead : Flat p.form.head := by simp [Parameter.Form.head, form, hrest, p.name.flat]
  have htyped : Flat p.form.typed := by
    cases ht : p.type with
    | none => simpa [Parameter.Form.typed, form, ht] using hhead
    | some t => simpa [Parameter.Form.typed, form, ht, t.flat] using hhead
  cases hv : p.value with
  | none => simpa [text, Parameter.Form.text, form, hv] using htyped
  | some v => simpa [text, Parameter.Form.text, form, hv, v.flat] using htyped

theorem parameter_form : p.form.parameter true = p.declared := by
  simp [Parameter.Form.parameter, form, declared]

theorem parse_joinWith (ps : List Param) :
    Parameter.parse true (Text.joinWith ", " (ps.map text)) = ps.map declared := by
  have hforms : ∀ f ∈ ps.map form, f.Proper := List.forall_mem_map.2 fun p _ => p.proper
  have hdeclared : Parameter.Form.parameter true ∘ form = declared := funext parameter_form
  have hparse := Parameter.parse_joinWith true hforms
  rwa [List.map_map, List.map_map, hdeclared] at hparse

end Param

namespace Base

variable (b : Base)

theorem flat : Flat b.text := by
  unfold text
  split
  · rename_i a _
    simp [b.name.flat, a.flat]
  · exact b.name.flat

theorem listable : Listable b.text := by
  unfold text
  split
  · rename_i a _
    obtain ⟨hname, houter⟩ := Nesting.closed_of_forall fun _ => b.name.isBracket
    obtain ⟨hargs, hinside⟩ := a.closed.enclose (o := '[') (c := ']') rfl rfl
    refine ⟨hname.append hargs, ?_, ?_⟩
    · rw [hname.outer_append hargs, houter, hinside, List.append_nil]
      exact fun hc => b.name.ne_of_mem hc (by decide) rfl
    · simp [b.name.phrase.listable.not_blank]
  · exact b.name.phrase.listable

theorem typeName_collapse : typeName (Text.collapse b.text) = b.name.text := by
  have hname : ∀ d ∈ b.name.text, d ≠ '<' ∧ d ≠ '[' := fun d hd =>
    ⟨b.name.ne_of_mem hd (by decide), b.name.ne_of_mem hd (by decide)⟩
  unfold text
  split
  · exact CodeAtlas.typeName_collapse hname b.name.solid (.inr rfl)
  · rw [b.name.phrase.collapse_eq, typeName_eq_self hname]

theorem unassigned : '=' ∉ Text.collapse b.text := by
  intro h
  rcases Text.mem_collapse h with h | h
  · cases h
  · unfold text at h
    split at h
    · rename_i a _
      simp only [List.mem_append, List.mem_cons, List.not_mem_nil, or_false] at h
      rcases h with h | h | h | h
      · exact b.name.ne_of_mem h (by decide) rfl
      · cases h
      · exact a.unassigned h
      · cases h
    · exact b.name.ne_of_mem h (by decide) rfl

theorem typeNames (bases : List Base) :
    ((splitNames (Text.joinWith ", " (bases.map text))).filter fun b => !b.contains '=').map typeName =
      bases.map fun b => b.name.text := by
  have hkeep : ∀ t ∈ (bases.map text).map Text.collapse, (!t.contains '=') = true := by
    simp only [List.map_map, List.mem_map]
    rintro _ ⟨b, _, rfl⟩
    simpa using b.unassigned
  rw [splitNames_joinWith (List.forall_mem_map.2 fun b _ => b.listable), List.filter_eq_self.2 hkeep,
    List.map_map, List.map_map]
  exact List.map_congr_left fun b _ => b.typeName_collapse

end Base

namespace Dotted

variable (d : Dotted)

theorem word_or_dot : ∀ c ∈ d.text, Text.isWord c = true ∨ c = '.' := by
  refine Text.forall_mem_joinWith (by simp) (List.forall_mem_map.2 fun n _ c hc => .inl (n.word c hc))

theorem ne_of_mem {c x : Char} (hc : c ∈ d.text) (hx : Text.isWord x = false) (hdot : x ≠ '.') :
    c ≠ x := by
  rintro rfl
  rcases d.word_or_dot c hc with h | h
  · rw [h] at hx
    cases hx
  · exact hdot h

theorem ne_nil : d.text ≠ [] := by
  cases ht : d.tail with
  | nil => simp [text, ht, d.head.ne_nil]
  | cons n ns => simp [text, ht]

theorem halts {p : Text.Class} (hp : ∀ c, Text.isWord c = true → p c = false) :
    Text.Halts p d.text := by
  cases ht : d.tail with
  | nil => simpa [text, ht] using d.head.halts hp []
  | cons n ns =>
    simpa [text, ht] using d.head.halts hp ('.' :: Text.joinWith ['.'] ((n :: ns).map Name.text))

theorem flat : Flat d.text := fun _ hc =>
  ⟨d.ne_of_mem hc (by decide) (by decide), d.ne_of_mem hc (by decide) (by decide),
    d.ne_of_mem hc (by decide) (by decide)⟩

theorem solid : d.text.Solid := by
  intro c hc
  rcases d.word_or_dot c hc with h | rfl
  · exact Text.isBlank_of_isWord h
  · decide

theorem phrase : Phrase d.text := by
  refine phrase_of_solid d.ne_nil d.solid (fun c hc => ?_) fun hc =>
    d.ne_of_mem hc (by decide) (by decide) rfl
  rcases d.word_or_dot c hc with h | rfl
  · exact (Parameter.isPlain_iff.1
      (Parameter.isPlain_of_isIdentPart (isIdentPart_of_isWord h))).2.1
  · decide

end Dotted

namespace Imported

variable (i : Imported)

theorem phrase : Phrase i.text := by
  unfold text
  split
  · rename_i name _
    have hname := name.phrase
    have htext : i.module.text ++ " as " ++ name.text =
        i.module.text ++ ' ' :: (['a', 's'] ++ ' ' :: name.text) := by simp
    have has : Phrase ['a', 's'] :=
      phrase_of_solid (by simp) (by simp [Text.Solid]; decide) (by decide) (by decide)
    rw [htext]
    exact i.module.phrase.append (has.append hname)
  · exact i.module.phrase

theorem flat : Flat i.text := by
  unfold text
  split
  · rename_i name _
    simp [i.module.flat, name.flat]
  · exact i.module.flat

theorem noneOf_lineEnd : ∀ c ∈ i.text, Text.noneOf ['\n', '#', ';'] c = true := by
  have hmodule : ∀ c ∈ i.module.text, Text.noneOf ['\n', '#', ';'] c = true :=
    Text.forall_mem_joinWith (by decide) (List.forall_mem_map.2 fun n _ => n.noneOf_lineEnd)
  unfold text
  split
  · rename_i name _
    exact List.forall_mem_append.2
      ⟨List.forall_mem_append.2 ⟨hmodule, by decide⟩, name.noneOf_lineEnd⟩
  · exact hmodule

theorem halts {p : Text.Class} (hp : ∀ c, Text.isWord c = true → p c = false) :
    Text.Halts p i.text := by
  unfold text
  split
  · rw [List.append_assoc, Text.halts_append i.module.ne_nil]
    exact i.module.halts hp
  · exact i.module.halts hp

theorem importOf_text : importOf i.text = i.declared := by
  have hmodule := i.module.solid.trimmed.strip_eq
  have hspace : ' ' ∉ i.module.text := fun hc => i.module.ne_of_mem hc (by decide) (by decide) rfl
  cases hk : i.known with
  | none =>
    have hcut : Text.cutAt? " as " i.text = none := by
      rw [text, hk]
      exact Text.cutAt?_eq_none hspace
    rw [importOf, hcut, text, hk]
    simp [declared, hk, hmodule]
  | some name =>
    have hcut : Text.cutAt? " as " i.text = some (i.module.text, name.text) := by
      rw [text, hk]
      exact Text.cutAt?_append hspace name.text
    have hname := name.solid.trimmed.strip_eq
    rw [importOf, hcut]
    simp [declared, hk, hmodule, hname, name.ne_nil]

end Imported

end CodeAtlas.Python
