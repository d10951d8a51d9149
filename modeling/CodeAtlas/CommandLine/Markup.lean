import CodeAtlas.Text.Basic

set_option autoImplicit false

namespace CodeAtlas.CommandLine.Markup

def marks : List Text :=
  ["[red]", "[/red]", "[green]", "[/green]", "[bold]", "[/bold]"]

def dropMarks : Nat → Text → Text
  | _, [] => []
  | skip + 1, _ :: rest => dropMarks skip rest
  | 0, c :: rest =>
    match marks.find? fun mark => Text.startsWith (c :: rest) mark with
    | some mark => dropMarks (mark.length - 1) rest
    | none => c :: dropMarks 0 rest

def plain (t : Text) : Text := dropMarks 0 t

@[simp] theorem plain_nil : plain [] = [] := rfl

end CodeAtlas.CommandLine.Markup
