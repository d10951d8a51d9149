import CodeAtlas.Distinct
import CodeAtlas.Source.Parameter
import CodeAtlas.Text.Pattern

/-!
Declarations of the ECMAScript family: function declarations, arrow functions bound to a variable,
classes, imports in their four forms, and exports. Each kind has one pattern; nothing is parsed
beyond what its pattern sees. Where a block ends is not found out, so a declaration is ascribed a
fixed number of lines.
-/

set_option autoImplicit false

namespace CodeAtlas

/-- A function is ascribed the line it begins on and this many lines behind it. -/
def functionSpan : Nat := 10

def classSpan : Nat := 20

namespace Script

open Pattern

def isIdentStart (c : Char) : Bool := c.isAlpha || c == '_' || c == '$'

def isIdentPart (c : Char) : Bool := Text.isWord c || c == '$'

def ident : Pattern := one isIdentStart ++ many isIdentPart

def binder : Pattern := either (text "const") (either (text "let") (text "var"))

def quote : Pattern := one fun c => c == '\'' || c == '"'

/-- A text between quotes, of whichever kind on either side. -/
def quoted : Pattern :=
  quote ++ mark .source (Pattern.some (Text.noneOf ['\'', '"'])) ++ quote

def typeArguments (excluded : Text) : Pattern :=
  optionalThenBlanks (char '<' ++ many (Text.noneOf excluded) ++ char '>')

def parameterList : Pattern :=
  char '(' ++ mark .parameters (many (Text.noneOf [')'])) ++ char ')'

def functionPattern : Pattern :=
  wordEdge ++ text "function" ++ wordEdge ++ blanks ++ optional (char '*') ++ blanks
    ++ mark .name ident ++ blanks ++ typeArguments ['>', '{', '}', '(', ')'] ++ parameterList
    ++ blanks
    ++ optional (char ':' ++ blanks ++ Pattern.some (Text.noneOf ['{', ';', '='])) ++ char '{'

def arrowPattern : Pattern :=
  wordEdge ++ binder ++ Pattern.some Text.isBlank ++ mark .name ident ++ blanks
    ++ optional (char ':' ++ Pattern.some (Text.noneOf ['=', ';'])) ++ char '=' ++ blanks
    ++ optional (mark .asynchronous (text "async" ++ Pattern.some Text.isBlank))
    ++ typeArguments ['>', '(']
    ++ either parameterList (mark .lone ident) ++ blanks
    ++ optional (char ':' ++ blanks ++ one (Text.noneOf ['=', ';', '{'])
        ++ few (Text.noneOf ['=', ';', '{']))
    ++ text "=>"

def classPattern : Pattern :=
  wordEdge ++ text "class" ++ Pattern.some Text.isBlank ++ mark .name ident ++ blanks
    ++ typeArguments ['>', '{']
    ++ optional (text "extends" ++ Pattern.some Text.isBlank
        ++ mark .parent (ident ++ again (char '.' ++ ident)) ++ blanks ++ typeArguments ['>', '{'])
    ++ optional (text "implements" ++ Pattern.some Text.isBlank
        ++ mark .interfaces (one (· != '{') ++ few (· != '{')) ++ blanks)
    ++ char '{'

def importPattern : Pattern :=
  wordEdge ++ text "import" ++ Pattern.some Text.isBlank
    ++ optional (mark .typeOnly (text "type" ++ Pattern.some Text.isBlank))
    ++ optional (mark .default ident ++ blanks ++ optionalThenBlanks (char ','))
    ++ optional (either (char '{' ++ mark .named (many (· != '}')) ++ char '}')
        (char '*' ++ blanks ++ text "as" ++ Pattern.some Text.isBlank ++ mark .namespace ident))
    ++ blanks ++ text "from" ++ blanks ++ quoted

def bareImportPattern : Pattern := wordEdge ++ text "import" ++ blanks ++ quoted

def requirePattern : Pattern :=
  wordEdge ++ binder ++ Pattern.some Text.isBlank
    ++ mark .binding (either ident (char '{' ++ many (· != '}') ++ char '}'))
    ++ blanks ++ char '=' ++ blanks ++ text "require(" ++ blanks ++ quoted ++ blanks ++ char ')'

def exportVariablePattern : Pattern :=
  wordEdge ++ text "export" ++ Pattern.some Text.isBlank ++ binder
    ++ Pattern.some Text.isBlank ++ mark .name ident

def exportDefaultPattern : Pattern :=
  wordEdge ++ text "export" ++ Pattern.some Text.isBlank ++ text "default"
    ++ Pattern.some Text.isBlank
    ++ .unless (either (text "function" ++ wordEdge) (either (text "class" ++ wordEdge)
        (either (text "async" ++ wordEdge) (text "abstract" ++ wordEdge))))
    ++ mark .name ident ++ blanks ++ optional (char ';') ++ blanks ++ lineEnd

def hasWord (word t : Text) : Bool :=
  !((wordEdge ++ text word ++ wordEdge).findAll t).isEmpty

/-- Whether the line says so before the match: a declaration is exported, or asynchronous. -/
def saidBefore (word : Text) (m : Match) : Bool := hasWord word m.first.lineHead

def functionOf (m : Match) : FunctionRecord where
  name := m.part .name
  parameters := Parameter.parse false (m.part .parameters)
  isAsync := saidBefore "async" m
  isExported := saidBefore "export" m
  startLine := m.line
  endLine := m.line + functionSpan

def arrowOf (m : Match) : FunctionRecord where
  name := m.part .name
  parameters := Parameter.parse false ((m.part? .parameters).getD (m.part .lone))
  isAsync := m.has .asynchronous || saidBefore "async" m
  isExported := saidBefore "export" m
  startLine := m.line
  endLine := m.line + functionSpan

def classOf (m : Match) : ClassRecord where
  name := m.part .name
  parent := m.part? .parent
  interfaces := (m.part? .interfaces).map fun t => (splitNames t).map typeName
  isExported := saidBefore "export" m
  startLine := m.line
  endLine := m.line + classSpan

/-- Function declarations, and then the arrow functions. -/
def functions (content : Text) : List FunctionRecord :=
  (functionPattern.findAll content).map functionOf ++ (arrowPattern.findAll content).map arrowOf

def classes (content : Text) : List ClassRecord :=
  (classPattern.findAll content).map classOf

/-- The default name comes first, then the namespace, then the names in braces. -/
def importOf (m : Match) : ImportRecord where
  source := m.part .source
  names := (m.part? .default).toList
    ++ ((m.part? .namespace).map fun n => ("* as " : Text) ++ n).toList
    ++ splitNames (m.part .named)
  isTypeOnly := m.has .typeOnly

def bareImportOf (m : Match) : ImportRecord where
  source := m.part .source
  names := []

def requireOf (m : Match) : ImportRecord where
  source := m.part .source
  names :=
    let binding := m.part .binding
    if Text.startsWith binding ['{'] then
      splitNames (Text.trim (fun c => c == '{' || c == '}' || c == ' ') binding)
    else [binding]

def inOrder {α : Type} (found : List (Nat × α)) : List α :=
  (found.mergeSort fun a b => a.1 ≤ b.1).map Prod.snd

def placed {α : Type} (record : Match → α) (m : Match) : Nat × α := (m.position, record m)

def imports (content : Text) : List ImportRecord :=
  inOrder ((importPattern.findAll content).map (placed importOf)
    ++ (bareImportPattern.findAll content).map (placed bareImportOf)
    ++ (requirePattern.findAll content).map (placed requireOf))

/-- Exported functions and classes, then exported variables that are no functions, then names
exported as the default; each once. -/
def exports (content : Text) (functions : List FunctionRecord) (classes : List ClassRecord) :
    List ExportRecord :=
  distinct (
    (functions.filter (·.isExported)).map (fun f => ⟨f.name, .function⟩)
      ++ (classes.filter (·.isExported)).map (fun c => ⟨c.name, .type⟩)
      ++ (((exportVariablePattern.findAll content).map (·.part .name)).filter
            fun n => n ∉ functions.map (·.name)).map (fun n => ⟨n, .variable⟩)
      ++ (exportDefaultPattern.findAll content).map (fun m => ⟨m.part .name, .default⟩))

def scan (path language content : Text) : ParsedFile :=
  let functions := functions content
  let classes := classes content
  { path, language, functions, classes
    imports := imports content
    exports := exports content functions classes }

end Script

end CodeAtlas
