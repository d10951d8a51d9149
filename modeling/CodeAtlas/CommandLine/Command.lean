import CodeAtlas.CommandLine.Options
import CodeAtlas.Numeral
import CodeAtlas.Pipeline.Context
import CodeAtlas.Text.Case

set_option autoImplicit false

namespace CodeAtlas.CommandLine

structure Commission where
  scope : Scope := .repository
  target : Option Text := none
  output : Option Text := none
  provider : Option Text := none
  model : Option Text := none
  apiKey : Option Text := none
  maxTokens : Option Int := none
  deriving DecidableEq, Repr

inductive Command where
  | generate (project : Text) (commission : Commission)
  | analyze (project : Text) (asJson : Bool)
  | related (project file : Text) (hops : Nat)
  | module (project entry : Text)
  | setService (provider : Text) (model apiKey endpoint : Option Text)
  | unsetService (confirmed : Bool)
  | showService
  deriving DecidableEq, Repr

inductive Request where
  | version
  | help
  | command (c : Command)
  deriving DecidableEq, Repr

namespace Command

def project? : Command → Option Text
  | .generate project _ | .analyze project _ | .related project _ _ | .module project _ =>
    some project
  | .setService .. | .unsetService _ | .showService => none

def output? : Command → Option Text
  | .generate _ commission => commission.output
  | _ => none

def number? (least : Int) (most : Option Int) (t : Text) : Option Int :=
  (Numeral.readInt? t).filter fun n => decide (least ≤ n) && (most.all fun m => decide (n ≤ m))

def scope? (t : Text) : Option Scope := (Scope.ofData (.text (Text.lower t))).toOption

def given? {α : Type} (g : Given) (name : Text) (reader : Text → Option α) : Option (Option α) :=
  match g.value? name with
  | none => some none
  | some t => (reader t).map some

def valueOption (name : Text) (short : List Text) : OptionSpec :=
  { name, flags := (('-' :: '-' :: name) : Text) :: short }

def switch (name : Text) (short : List Text) : OptionSpec :=
  { valueOption name short with takesValue := false }

def helpSwitch : OptionSpec := switch "help" []

def options : List (Text × List OptionSpec) :=
  [("generate", [valueOption "scope" ["-s"], valueOption "target" ["-t"],
      valueOption "output" ["-o"], valueOption "provider" [], valueOption "model" [],
      valueOption "api-key" [], valueOption "max-tokens" []]),
   ("analyze", [switch "json" []]),
   ("related", [valueOption "depth" []]),
   ("module", []),
   ("set-llm", [valueOption "model" [], valueOption "api-key" [], valueOption "endpoint" []]),
   ("unset-llm", [switch "yes" ["-y"]]),
   ("show-llm", [])]

def ofGiven? (name : Text) (g : Given) : Option Command :=
  match g.operands with
  | [] =>
    if name = "unset-llm" then some (.unsetService (g.has "yes"))
    else if name = "show-llm" then some .showService
    else none
  | [operand] =>
    if name = "generate" then do
      let scope ← given? g "scope" scope?
      let maxTokens ← given? g "max-tokens" (number? 1 none)
      return .generate operand
        { scope := scope.getD .repository, target := g.value? "target", output := g.value? "output"
          provider := g.value? "provider", model := g.value? "model", apiKey := g.value? "api-key"
          maxTokens }
    else if name = "analyze" then some (.analyze operand (g.has "json"))
    else if name = "set-llm" then
      some (.setService operand (g.value? "model") (g.value? "api-key") (g.value? "endpoint"))
    else none
  | [project, file] =>
    if name = "related" then do
      let hops ← given? g "depth" (number? 1 (some 10))
      return .related project file (hops.getD 2).toNat
    else if name = "module" then some (.module project file)
    else none
  | _ => none

end Command

namespace Request

def globalOptions : List OptionSpec :=
  [Command.switch "version" ["-v"], Command.switch "verbose" [], Command.helpSwitch]

def read? (args : List Text) : Option Request := do
  let g ← CommandLine.read? globalOptions true {} args
  if g.has "version" then return .version
  else if g.has "help" then return .help
  else match g.operands with
    | [] => none
    | name :: rest =>
      let specs ← Command.options.lookup name
      let given ← CommandLine.read? (Command.helpSwitch :: specs) false {} rest
      if given.has "help" then return .help
      else return .command (← Command.ofGiven? name given)

theorem read?_nil : read? [] = none := rfl

end Request

end CodeAtlas.CommandLine
