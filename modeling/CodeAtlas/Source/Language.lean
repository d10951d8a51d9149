import CodeAtlas.Path
import CodeAtlas.Text.Blank
import CodeAtlas.Text.Case

set_option autoImplicit false

namespace CodeAtlas.Language

inductive Family where
  | ecmaScript | python
  deriving DecidableEq, Repr

def byExtension : List (Text × Text) :=
  [(".py", "python"), (".js", "javascript"), (".mjs", "javascript"), (".cjs", "javascript"),
   (".jsx", "javascript"), (".ts", "typescript"), (".mts", "typescript"), (".tsx", "tsx")]

def aliases : List (Text × Text) :=
  [("js", "javascript"), ("mjs", "javascript"), ("cjs", "javascript"), ("jsx", "javascript"),
   ("ts", "typescript"), ("py", "python")]

def ofExtension (extension : Text) : Text := (byExtension.lookup extension).getD []

/-- The full name of a language. A blank name stands for the language of the path's extension. -/
def normalize (language path : Text) : Text :=
  let name := Text.lower (Text.strip language)
  if name.isEmpty && !path.isEmpty then ofExtension (Text.lower (Path.splitExtension path).2)
  else (aliases.lookup name).getD name

def family? (name : Text) : Option Family :=
  if name = "javascript" ∨ name = "typescript" ∨ name = "tsx" then some .ecmaScript
  else if name = "python" then some .python
  else none

def isSupported (language : Text) : Bool := (family? (normalize language [])).isSome

end CodeAtlas.Language
