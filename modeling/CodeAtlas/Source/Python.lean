import CodeAtlas.Source.Script

set_option autoImplicit false

namespace CodeAtlas.Python

open Pattern

def gap : Pattern := Pattern.some fun c => c == ' ' || c == '\t'

def indent : Pattern := many fun c => c == ' ' || c == '\t'

def toLineEnd : Pattern := Pattern.some (Text.noneOf ['\n', '#', ';'])

def functionPattern : Pattern :=
  lineStart ++ optional (mark .asynchronous (text "async" ++ gap)) ++ text "def" ++ gap
    ++ mark .name (Pattern.some Text.isWord) ++ indent ++ char '('
    ++ mark .parameters (many (· != ')')) ++ char ')'

def classPattern : Pattern :=
  lineStart ++ text "class" ++ gap ++ mark .name (Pattern.some Text.isWord) ++ indent
    ++ optional (char '(' ++ mark .bases (many (· != ')')) ++ char ')') ++ indent ++ char ':'

def fromImportPattern : Pattern :=
  lineStart ++ text "from" ++ gap
    ++ mark .source (many (· == '.') ++ many fun c => Text.isWord c || c == '.') ++ gap
    ++ text "import" ++ gap
    ++ mark .names (either (char '(' ++ many (· != ')') ++ char ')') toLineEnd)

def importPattern : Pattern := lineStart ++ text "import" ++ gap ++ mark .names toLineEnd

def isPublic (name : Text) : Bool := !Text.startsWith name ['_']

def functionOf (m : Match) : FunctionRecord where
  name := m.part .name
  parameters := Parameter.parse true (m.part .parameters)
  isAsync := m.has .asynchronous
  isExported := isPublic (m.part .name)
  startLine := m.line
  endLine := m.line + functionSpan

def basesOf (m : Match) : List Text :=
  ((splitNames (m.part .bases)).filter fun b => !b.contains '=').map typeName

def classOf (m : Match) : ClassRecord where
  name := m.part .name
  parent := (basesOf m).head?
  interfaces := match basesOf m with
    | _ :: b :: bs => some (b :: bs)
    | _ => none
  isExported := isPublic (m.part .name)
  startLine := m.line
  endLine := m.line + classSpan

def fromImportOf (m : Match) : ImportRecord where
  source := m.part .source
  names := splitNames (Text.trim (fun c => c == '(' || c == ')') (Text.strip (m.part .names)))

/-- One imported module: it is known by the name behind `as`, or by its own. -/
def importOf (item : Text) : ImportRecord :=
  let (module, known) := (Text.cutAt? " as " item).getD (item, [])
  let module := Text.strip module
  let known := Text.strip known
  { source := module, names := [if known.isEmpty then module else known] }

def functions (content : Text) : List FunctionRecord :=
  (functionPattern.findAll content).map functionOf

def classes (content : Text) : List ClassRecord :=
  (classPattern.findAll content).map classOf

def imports (content : Text) : List ImportRecord :=
  Script.inOrder ((fromImportPattern.findAll content).map (Script.placed fromImportOf)
    ++ (importPattern.findAll content).flatMap fun m =>
        (splitNames (m.part .names)).map fun item => (m.position, importOf item))

def scan (path language content : Text) : ParsedFile :=
  let functions := functions content
  let classes := classes content
  { path, language, functions, classes
    imports := imports content
    exports := (functions.filter (·.isExported)).map (fun f => ⟨f.name, .function⟩)
      ++ (classes.filter (·.isExported)).map (fun c => ⟨c.name, .type⟩) }

end CodeAtlas.Python
