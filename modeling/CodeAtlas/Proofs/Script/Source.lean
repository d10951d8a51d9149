import CodeAtlas.Proofs.Pattern.Search
import CodeAtlas.Proofs.Source.Parameters

set_option autoImplicit false

namespace CodeAtlas.Script

structure Ident where
  first : Char
  more : Text
  start : isIdentStart first = true
  part : ∀ c ∈ more, isIdentPart c = true

def Ident.text (n : Ident) : Text := n.first :: n.more

def Ident.single (c : Char) (h : isIdentStart c = true) : Ident := ⟨c, [], h, by simp⟩

inductive Shape where
  | angle | square
  deriving DecidableEq, Repr

def Shape.opener : Shape → Char
  | .angle => '<'
  | .square => '['

def Shape.closer : Shape → Char
  | .angle => '>'
  | .square => ']'

/-- What stands between brackets: identifiers, commas and brackets. -/
inductive Nested where
  | done
  | name (n : Ident) (rest : Nested)
  | comma (spaced : Bool) (rest : Nested)
  | group (shape : Shape) (inner rest : Nested)

def Nested.text : Nested → Text
  | .done => []
  | .name n rest => n.text ++ rest.text
  | .comma spaced rest => ',' :: ((if spaced then [' '] else []) ++ rest.text)
  | .group shape inner rest => shape.opener :: (inner.text ++ shape.closer :: rest.text)

structure TypeExpr where
  name : Ident
  groups : List (Shape × Nested)

def Nested.ofGroups : List (Shape × Nested) → Nested
  | [] => .done
  | (shape, inner) :: groups => .group shape inner (ofGroups groups)

def TypeExpr.text (t : TypeExpr) : Text := (Nested.name t.name (.ofGroups t.groups)).text

structure Atom where
  text : Text
  ne_nil : text ≠ []
  plain : ∀ c ∈ text, isIdentPart c = true ∨ c = '.' ∨ c = '+' ∨ c = '-'

structure Param where
  name : Ident
  question : Bool := false
  type : Option TypeExpr := none
  value : Option Atom := none

namespace Param

def form (p : Param) : Parameter.Form where
  name := p.name.text
  question := p.question
  type := p.type.map TypeExpr.text
  value := p.value.map fun v => v.text

def text (p : Param) : Text := p.form.text

def declared (p : Param) : Parameter where
  name := p.name.text
  type := p.type.map TypeExpr.text
  isOptional := p.question
  defaultValue := p.value.map fun v => v.text

end Param

def word (given : Bool) (w : Text) : Text := if given then w ++ [' '] else []

structure FunctionHead where
  isExported : Bool
  isDefault : Bool
  isAsync : Bool
  isGenerator : Bool
  name : Ident
  params : List Param
  result : Option TypeExpr

namespace FunctionHead

def modifiers (f : FunctionHead) : Text :=
  Text.concat [word f.isExported "export", word f.isDefault "default", word f.isAsync "async"]

def keyword (f : FunctionHead) : Text :=
  Text.concat ["function", if f.isGenerator then ['*'] else [], [' ']]

def resultText (f : FunctionHead) : Text :=
  match f.result with
  | some t => ':' :: ' ' :: t.text
  | none => []

def parameterText (f : FunctionHead) : Text := Text.joinWith ", " (f.params.map Param.text)

def signature (f : FunctionHead) : Text :=
  Text.concat [f.name.text, ['('], f.parameterText, [')'], f.resultText, [' ', '{']]

def text (f : FunctionHead) : Text := Text.concat [f.modifiers, f.keyword, f.signature]

def declared (line : Nat) (f : FunctionHead) : FunctionRecord where
  name := f.name.text
  parameters := f.params.map Param.declared
  isAsync := f.isAsync
  isExported := f.isExported
  startLine := line
  endLine := line + functionSpan

end FunctionHead

structure Dotted where
  head : Ident
  tail : List Ident

def Dotted.text (d : Dotted) : Text :=
  d.head.text ++ Text.concat (d.tail.map fun n => '.' :: n.text)

/-- Type arguments without angle brackets inside. -/
structure Arguments where
  inner : Nested
  single : '>' ∉ inner.text

def Arguments.text (a : Option Arguments) : Text :=
  match a with
  | some a => '<' :: (a.inner.text ++ ['>'])
  | none => []

structure ClassHead where
  isExported : Bool
  isDefault : Bool
  isAbstract : Bool
  name : Ident
  arguments : Option Arguments
  parent : Option (Dotted × Option Arguments)
  interfaces : List TypeExpr

namespace ClassHead

def modifiers (c : ClassHead) : Text :=
  Text.concat [word c.isExported "export", word c.isDefault "default", word c.isAbstract "abstract"]

def parentText (c : ClassHead) : Text :=
  match c.parent with
  | some (d, a) => Text.concat [" extends ", d.text, Arguments.text a]
  | none => []

def interfaceText (c : ClassHead) : Text :=
  match c.interfaces with
  | [] => []
  | t :: ts => Text.concat [" implements ", Text.joinWith ", " ((t :: ts).map TypeExpr.text)]

def signature (c : ClassHead) : Text :=
  Text.concat [c.name.text, Arguments.text c.arguments, c.parentText, c.interfaceText, [' ', '{']]

def text (c : ClassHead) : Text := Text.concat [c.modifiers, "class ", c.signature]

def declared (line : Nat) (c : ClassHead) : ClassRecord where
  name := c.name.text
  isExported := c.isExported
  startLine := line
  endLine := line + classSpan
  parent := c.parent.map fun p => p.1.text
  interfaces := match c.interfaces with
    | [] => none
    | t :: ts => some ((t :: ts).map fun t => t.name.text)

end ClassHead

inductive Declaration where
  | function (f : FunctionHead)
  | type (c : ClassHead)

namespace Declaration

def text : Declaration → Text
  | function f => f.text ++ ['\n', '}']
  | type c => c.text ++ ['\n', '}']

def function? (line : Nat) : Declaration → Option FunctionRecord
  | function f => some (f.declared line)
  | type _ => none

def class? (line : Nat) : Declaration → Option ClassRecord
  | function _ => none
  | type c => some (c.declared line)

end Declaration

def scriptText (ds : List Declaration) : Text := Pattern.blocks Declaration.text ds

def scriptFunctions (ds : List Declaration) : List FunctionRecord :=
  ds.zipIdx.filterMap fun p => p.1.function? (2 * p.2 + 1)

def scriptClasses (ds : List Declaration) : List ClassRecord :=
  ds.zipIdx.filterMap fun p => p.1.class? (2 * p.2 + 1)

/-- What is known of a file: its functions and its classes, and as exports the names of those that
say so, each once. -/
def scriptFile (path language : Text) (ds : List Declaration) : ParsedFile where
  path
  language
  functions := scriptFunctions ds
  classes := scriptClasses ds
  exports := distinct
    (((scriptFunctions ds).filter (·.isExported)).map (⟨·.name, .function⟩)
      ++ ((scriptClasses ds).filter (·.isExported)).map (⟨·.name, .type⟩))

end CodeAtlas.Script
