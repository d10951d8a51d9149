import CodeAtlas.Proofs.Script.Statements

set_option autoImplicit false

namespace CodeAtlas.Script

inductive QuoteMark where
  | single | double
  deriving DecidableEq, Repr

def QuoteMark.char : QuoteMark → Char
  | .single => '\''
  | .double => '"'

def isUnquoted : Text.Class := Text.noneOf ['\'', '"']

structure ModuleName where
  text : Text
  ne_nil : text ≠ []
  unquoted : ∀ c ∈ text, isUnquoted c = true

def QuoteMark.enclose (q : QuoteMark) (n : ModuleName) : Text := [q.char] ++ n.text ++ [q.char]

/-- A name in a list between curly brackets: anything without white space, brackets, quotation marks
and the signs of lists and assignments. -/
structure Name where
  text : Text
  ne_nil : text ≠ []
  plain : ∀ c ∈ text, Parameter.isPlain c = true
  unquoted : ∀ c ∈ text, isUnquoted c = true

structure NamedItem where
  name : Name
  given : Option Name := none

def NamedItem.text (i : NamedItem) : Text :=
  i.name.text ++ match i.given with
    | some n => ' ' :: 'a' :: 's' :: ' ' :: n.text
    | none => []

def padded (ts : List Text) : Text := ' ' :: (Text.joinWith ", " ts ++ [' '])

def braced (ts : List Text) : Text := '{' :: (padded ts ++ ['}'])

inductive Others where
  | named (items : List NamedItem)
  | star (n : Ident)

def Others.text : Others → Text
  | named items => braced (items.map NamedItem.text)
  | star n => '*' :: ' ' :: 'a' :: 's' :: ' ' :: n.text

def Others.names : Others → List Text
  | named items => items.map NamedItem.text
  | star n => [("* as " : Text) ++ n.text]

inductive Clause where
  | default (d : Ident)
  | others (o : Others)
  | both (d : Ident) (o : Others)

def Clause.text : Clause → Text
  | default d => d.text
  | others o => o.text
  | both d o => d.text ++ ',' :: ' ' :: o.text

def Clause.names : Clause → List Text
  | default d => [d.text]
  | others o => o.names
  | both d o => d.text :: o.names

inductive Binding where
  | whole (d : Ident)
  | parts (ns : List Name)

def Binding.text : Binding → Text
  | whole d => d.text
  | parts ns => braced (ns.map Name.text)

def Binding.names : Binding → List Text
  | whole d => [d.text]
  | parts ns => ns.map Name.text

inductive ImportForm where
  | clause (isTypeOnly : Bool) (c : Clause)
  | bare
  | require (b : Binding)

namespace ImportForm

def head : ImportForm → Text
  | clause isTypeOnly c => Text.concat ["import ", word isTypeOnly "type", c.text, " from "]
  | bare => "import "
  | require b => Text.concat ["const ", b.text, " = require("]

@[simp] theorem head_clause (isTypeOnly : Bool) (c : Clause) : (clause isTypeOnly c).head =
    Text.concat ["import ", word isTypeOnly "type", c.text, " from "] := rfl

@[simp] theorem head_bare : bare.head = "import " := rfl

@[simp] theorem head_require (b : Binding) : (require b).head =
    Text.concat ["const ", b.text, " = require("] := rfl

def tail : ImportForm → Text
  | require _ => [')']
  | _ => []

def names : ImportForm → List Text
  | clause _ c => c.names
  | bare => []
  | require b => b.names

def isTypeOnly : ImportForm → Bool
  | clause isTypeOnly _ => isTypeOnly
  | _ => false

def isAmbiguous : ImportForm → Bool
  | clause false (.default d) => d.text == "type"
  | _ => false

end ImportForm

structure ImportStatement where
  form : ImportForm
  mark : QuoteMark
  source : ModuleName
  isClosed : Bool

namespace ImportStatement

def text (s : ImportStatement) : Text :=
  Text.concat [s.form.head, s.mark.enclose s.source, s.form.tail, terminator s.isClosed]

def declared (s : ImportStatement) : ImportRecord where
  source := s.source.text
  names := s.form.names
  isTypeOnly := s.form.isTypeOnly

end ImportStatement

def importsText (ss : List ImportStatement) : Text := Pattern.blocks ImportStatement.text ss

-- The words of one form of import in the name of a module. Where such a word stands, the quotation
-- mark behind the name may pass for the one before a name.

/-- Whether a word begins somewhere in a text outside a word, with something behind it that has a
property. -/
def stands (w : Text) (p : Text → Bool) (inWord : Bool) : Text → Bool
  | [] => false
  | c :: t =>
    (!inWord && Text.startsWith (c :: t) w && p ((c :: t).drop w.length))
      || stands w p (Text.isWord c) t

def endsIn (w t : Text) : Bool := Text.endsWith (Text.dropRight Text.isBlank t) w

/-- Whether what follows a keyword may go on up to the quotation mark: it begins with white space,
and has an opening bracket or ends in a word. -/
def goesOn (w t : Text) : Bool := t.head?.any Text.isBlank && (t.contains '{' || endsIn w t)

namespace ModuleName

variable (n : ModuleName)

def opensClause : Bool := stands "import" (goesOn "from") false n.text

def opensBare : Bool := stands "import" (fun t => t.all Text.isBlank) false n.text

def opensRequire : Bool :=
  [("const" : Text), "let", "var"].any fun w => stands w (goesOn "require(") false n.text

end ModuleName

/-- Nothing in the name of the module reads like the beginning of an import of another form. -/
def ImportStatement.isContained (s : ImportStatement) : Bool :=
  match s.form with
  | .clause _ _ => !s.source.opensBare && !s.source.opensRequire
  | .bare => !s.source.opensClause && !s.source.opensRequire
  | .require _ => !s.source.opensClause && !s.source.opensBare

-- Characters.

def isUnsigned : Text.Class := Text.noneOf ['\'', '"', '=']

def isListed : Text.Class := Text.noneOf ['\'', '"', '=', '}']

theorem isUnsigned_of_isListed {c : Char} (hc : isListed c = true) : isUnsigned c = true :=
  Text.noneOf_of_class (by decide) c hc

theorem Ident.unsigned (n : Ident) : ∀ c ∈ n.text, isUnsigned c = true :=
  fun c hc => Text.noneOf_of_class (by decide) c (n.isIdentPart hc)

namespace Name

variable (n : Name)

theorem solid : n.text.Solid := fun c hc => (Parameter.isPlain_iff.1 (n.plain c hc)).1

theorem phrase : Phrase n.text :=
  phrase_of_solid n.ne_nil n.solid (fun c hc => (Parameter.isPlain_iff.1 (n.plain c hc)).2.1)
    fun hc => absurd (n.plain _ hc) (by decide)

theorem ne_of_mem {c d : Char} (hc : c ∈ n.text) (hd : Parameter.isPlain d = false) : c ≠ d := by
  rintro rfl
  rw [n.plain c hc] at hd
  cases hd

theorem listed : ∀ c ∈ n.text, isListed c = true := by
  intro c hc
  simpa [isListed, isUnquoted, Text.noneOf, n.ne_of_mem hc (d := '=') (by decide),
    n.ne_of_mem hc (d := '}') (by decide)] using n.unquoted c hc

end Name

theorem NamedItem.phrase (i : NamedItem) : Phrase i.text := by
  have hsolid : ∀ c ∈ ("as" : Text), Text.isBlank c = false := by decide
  have has : Phrase ("as" : Text) := phrase_of_solid (by simp) hsolid (by decide) (by decide)
  unfold NamedItem.text
  split
  · rename_i n _
    exact i.name.phrase.append (has.append n.phrase)
  · rw [List.append_nil]
    exact i.name.phrase

theorem NamedItem.listed (i : NamedItem) : ∀ c ∈ i.text, isListed c = true := by
  refine List.forall_mem_append.2 ⟨i.name.listed, ?_⟩
  split
  · rename_i n _
    have hword : ∀ c ∈ (" as " : Text), isListed c = true := by decide
    exact List.forall_mem_append.2 ⟨hword, n.listed⟩
  · simp

section Listed

variable {ts : List Text} (h : ∀ t ∈ ts, ∀ c ∈ t, isListed c = true)
include h

theorem listed_padded : ∀ c ∈ padded ts, isListed c = true :=
  List.forall_mem_cons.2 ⟨by decide, List.forall_mem_append.2
    ⟨Text.forall_mem_joinWith (by decide) h, by decide⟩⟩

theorem unsigned_braced : ∀ c ∈ braced ts, isUnsigned c = true :=
  List.forall_mem_cons.2 ⟨by decide, List.forall_mem_append.2
    ⟨fun c hc => isUnsigned_of_isListed (listed_padded h c hc), by decide⟩⟩

end Listed

section Unsigned

theorem Others.unsigned (o : Others) : ∀ c ∈ o.text, isUnsigned c = true := by
  cases o with
  | named items => exact unsigned_braced (List.forall_mem_map.2 fun i _ => i.listed)
  | star n =>
    have hword : ∀ c ∈ ("* as " : Text), isUnsigned c = true := by decide
    exact List.forall_mem_append.2 ⟨hword, n.unsigned⟩

theorem Clause.unsigned (c : Clause) : ∀ d ∈ c.text, isUnsigned d = true := by
  cases c with
  | default d => exact d.unsigned
  | others o => exact o.unsigned
  | both d o =>
    have hcomma : ∀ c ∈ (", " : Text), isUnsigned c = true := by decide
    exact List.forall_mem_append.2 ⟨d.unsigned, List.forall_mem_append.2 ⟨hcomma, o.unsigned⟩⟩

theorem Binding.unsigned (b : Binding) : ∀ c ∈ b.text, isUnsigned c = true := by
  cases b with
  | whole d => exact d.unsigned
  | parts ns => exact unsigned_braced (List.forall_mem_map.2 fun n _ => n.listed)

end Unsigned

-- Lists of names read back.

theorem splitNames_padded (items : List NamedItem) :
    splitNames (padded (items.map NamedItem.text)) = items.map NamedItem.text :=
  splitNames_spaces (List.forall_mem_map.2 fun i _ => i.phrase)

def isEnclosing : Text.Class := fun c => c == '{' || c == '}' || c == ' '

theorem Name.not_enclosing (n : Name) : ∀ c ∈ n.text, isEnclosing c = false := by
  intro c hc
  simp [isEnclosing, n.ne_of_mem hc (d := '{') (by decide), n.ne_of_mem hc (d := '}') (by decide),
    n.ne_of_mem hc (d := ' ') (by decide)]

theorem splitNames_trim_braced (ns : List Name) :
    splitNames (Text.trim isEnclosing (braced (ns.map Name.text))) = ns.map Name.text := by
  have hphrase : ∀ t ∈ ns.map Name.text, Phrase t := List.forall_mem_map.2 fun n _ => n.phrase
  have hends : Text.Halts isEnclosing (Text.joinWith ", " (ns.map Name.text)) ∧
      Text.Halts isEnclosing (Text.joinWith ", " (ns.map Name.text)).reverse :=
    Text.halts_ends_joinWith (List.forall_mem_map.2 fun n _ => ⟨n.ne_nil, n.not_enclosing⟩)
  have htext : braced (ns.map Name.text) =
      ['{', ' '] ++ (Text.joinWith ", " (ns.map Name.text) ++ [' ', '}']) := by
    simp [braced, padded]
  rw [htext, Text.trim_enclosed (by decide) (by decide) hends,
    splitNames_joinWith fun t ht => (hphrase t ht).listable, map_collapse_eq hphrase]

-- White space.

def endsKeyword : Text.Class := fun c => c == 't' || c == 'r'

theorem endsKeyword_of_not_isIdentPart (c : Char) (hc : isIdentPart c = false) :
    endsKeyword c = false := by
  have ht : c ≠ 't' := fun h => absurd (h ▸ hc) (by decide)
  have hr : c ≠ 'r' := fun h => absurd (h ▸ hc) (by decide)
  simp [endsKeyword, ht, hr]

section Clear

variable {starts : List Char} {t : Text}

theorem clear_as (has : 'a' ∈ starts) (ht : Clear endsKeyword starts t) :
    Clear endsKeyword starts (' ' :: 'a' :: 's' :: ' ' :: t) ∧
      Follows starts (' ' :: 'a' :: 's' :: ' ' :: t) := by
  have hspace : Clear endsKeyword starts (' ' :: t) := clear_cons_of_sign (by decide) ht
  refine ⟨?_, .inr ⟨_, rfl, begins_cons has⟩⟩
  exact clear_cons_of_sign (by decide)
    (clear_cons_of_sign (by decide) (clear_cons_of_sign (by decide) hspace))

theorem NamedItem.clear (i : NamedItem) (has : 'a' ∈ starts) (hf : Follows starts t)
    (ht : Clear endsKeyword starts t) : Clear endsKeyword starts (i.text ++ t) := by
  unfold NamedItem.text
  rw [List.append_assoc]
  split
  · rename_i n _
    obtain ⟨hclear, hfollows⟩ := clear_as has (.append_solid n.solid hf ht)
    exact .append_solid i.name.solid hfollows hclear
  · exact .append_solid i.name.solid hf ht

theorem clear_braced {ts : List Text} (hclose : '}' ∈ starts)
    (hts : ∀ u ∈ ts, ∀ {t}, Follows starts t → Clear endsKeyword starts t →
      Clear endsKeyword starts (u ++ t)) (ht : Clear endsKeyword starts t) :
    Clear endsKeyword starts (braced ts ++ t) := by
  have hend : Clear endsKeyword starts (' ' :: '}' :: t) :=
    clear_cons_of_sign (by decide) (clear_cons_of_sign (by decide) ht)
  have hlist := clear_joinWith endsKeyword_of_not_isIdentPart hts
    (.inr ⟨_, rfl, begins_cons hclose⟩) hend
  have hopen := clear_cons_of_sign (c := '{') (p := endsKeyword) (by decide)
    (clear_cons_of_sign (c := ' ') (by decide) hlist)
  simpa [braced, padded] using hopen

theorem Others.clear (o : Others) (has : 'a' ∈ starts) (hclose : '}' ∈ starts)
    (hf : Follows starts t) (ht : Clear endsKeyword starts t) :
    Clear endsKeyword starts (o.text ++ t) := by
  cases o with
  | named items =>
    exact clear_braced hclose (List.forall_mem_map.2 fun i _ _ => i.clear has) ht
  | star n =>
    exact clear_cons_of_sign (by decide) (clear_as has (.append_solid n.solid hf ht)).1

theorem Clause.clear (c : Clause) (has : 'a' ∈ starts) (hclose : '}' ∈ starts)
    (hf : Follows starts t) (ht : Clear endsKeyword starts t) :
    Clear endsKeyword starts (c.text ++ t) := by
  cases c with
  | default d => exact .append_solid d.solid hf ht
  | others o => exact o.clear has hclose hf ht
  | both d o =>
    have hothers := o.clear has hclose hf ht
    have hcomma := clear_cons_of_sign (c := ',') (p := endsKeyword) (by decide)
      (clear_cons_of_sign (c := ' ') (by decide) hothers)
    have hdefault := Clear.append_solid d.solid (.inl (Text.halts_cons.2 (by decide))) hcomma
    simpa [Clause.text] using hdefault

theorem Binding.clear (b : Binding) (hclose : '}' ∈ starts) (hf : Follows starts t)
    (ht : Clear endsKeyword starts t) : Clear endsKeyword starts (b.text ++ t) := by
  cases b with
  | whole d => exact .append_solid d.solid hf ht
  | parts ns =>
    exact clear_braced hclose (List.forall_mem_map.2 fun n _ _ => .append_solid n.solid) ht

end Clear

end CodeAtlas.Script
