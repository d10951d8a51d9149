import CodeAtlas.Graph.Insights
import CodeAtlas.Pipeline.Context

set_option autoImplicit false

namespace CodeAtlas

structure Chunk where
  path : Text
  content : Text
  language : Text
  deriving DecidableEq, Repr

namespace Prompt

def preamble : Text :=
  Text.concat [
    "You are an expert technical writer specializing in code documentation. ",
    "Generate comprehensive, clear, and accurate documentation for the following code.\n\n"]

def requirements : Text :=
  Text.concat [
    "\n## Documentation Requirements\n\n",
    "Generate comprehensive documentation that includes:\n",
    "1. **Overview**: High-level description of what this code does\n",
    "2. **Architecture**: Structure and organization\n",
    "3. **API Documentation**: All public functions, classes, and methods with:\n",
    "   - Parameter descriptions\n",
    "   - Return value descriptions\n",
    "   - Usage examples\n",
    "4. **Dependencies**: Key dependencies and how they're used\n",
    "5. **Usage Examples**: Practical code examples\n",
    "6. **Notes**: Any important considerations or best practices\n\n",
    "Format the documentation in Markdown. Be thorough, accurate, and clear.\n"]

def showTarget (target : Option Text) : Text := target.getD "None"

def heading : Scope → Option Text → Text
  | .module, target =>
    Text.concat ["# Module Documentation Request\n\nGenerate documentation for the module: ",
      showTarget target, "\n\n"]
  | .file, target =>
    Text.concat ["# File Documentation Request\n\nGenerate documentation for the file: ",
      showTarget target, "\n\n"]
  | .repository, _ =>
    "# Repository Documentation Request\n\nGenerate documentation for the entire repository.\n\n"

/-- A titled list with an empty line behind it; an empty list is left out with its title. -/
def titled (title : Text) (lines : List Text) : List Text :=
  if lines.isEmpty then [] else title :: (lines ++ [[]])

def fileLine (f : ParsedFile) : Text := Text.concat ["- ", f.path, " (", f.language, ")"]

def functionLine (path : Text) (f : FunctionRecord) : Text :=
  Text.concat ["- ", f.signature, " [", path, "]"]

def parentNote (c : ClassRecord) : Text :=
  let parent := c.parent.getD []
  if parent.isEmpty then [] else " extends " ++ parent

def classLine (path : Text) (c : ClassRecord) : Text :=
  Text.concat ["- ", c.name, parentNote c, " [", path, "]"]

def dependencyLine (d : Dependency) : Text :=
  Text.concat ["- ", d.importer, " → ", d.target, " (", d.link.label, ")"]

def row (label : Text) (names : List Text) : List Text :=
  if names.isEmpty then [] else [label ++ Text.joinWith ", " names]

def insightLines (i : Insights) : List Text :=
  row "Exported components: " i.keyComponents ++ row "Most depended-upon files: " i.criticalPaths

def structureLines (c : Codebase) (insights : Option Insights) : List Text :=
  titled "### Files Analyzed" (c.files.map fileLine)
    ++ titled "### Functions" (c.files.flatMap fun f => f.functions.map (functionLine f.path))
    ++ titled "### Classes" (c.files.flatMap fun f => f.classes.map (classLine f.path))
    ++ titled "### Dependencies" (c.dependencies.map dependencyLine)
    ++ (match insights with
        | some i => titled "### Key Insights" (insightLines i)
        | none => [])

def unlines (lines : List Text) : Text := lines.flatMap (· ++ ['\n'])

def describe (c : Codebase) (insights : Option Insights) : Text :=
  unlines (structureLines c insights)

def block (number : Nat) (chunk : Chunk) : Text :=
  Text.concat ["### Context ", Text.ofNat number, "\nFile: ", chunk.path, "\n```", chunk.language,
    "\n", chunk.content, "\n```\n\n"]

def blocks : Nat → List Chunk → Text
  | _, [] => []
  | number, chunk :: rest => block number chunk ++ blocks (number + 1) rest

/-- The section of the selected files. Files without content are left out, and so is a section
without files. -/
def excerpts (chunks : List Chunk) : Text :=
  let filled := chunks.filter fun chunk => !chunk.content.isEmpty
  if filled.isEmpty then [] else "\n## Related Code Context\n\n" ++ blocks 1 filled

def write (c : Codebase) (chunks : List Chunk) (scope : Scope) (target : Option Text)
    (insights : Option Insights) : Text :=
  Text.concat [preamble, heading scope target, "## Code Structure\n\n", describe c insights,
    excerpts chunks, requirements]

@[simp] theorem titled_nil (title : Text) : titled title [] = [] := rfl

end Prompt

end CodeAtlas
