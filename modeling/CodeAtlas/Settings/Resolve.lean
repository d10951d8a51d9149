import CodeAtlas.Settings.Basic
import CodeAtlas.Settings.Sections

/-!
Settings from three sources: what is asked for, what the settings file says, and the environment. A
value that is asked for wins, then the file counts, and a key may also come from the environment.
When another provider is asked for than the file names, nothing that the file says of its service
is used.
-/

set_option autoImplicit false

namespace CodeAtlas

abbrev Environment := List (Text × Text)

structure Overrides where
  provider : Data := .null
  model : Data := .null
  apiKey : Data := .null
  endpoint : Data := .null
  maxOutputTokens : Data := .null

def Environment.sharedKeyVariable : Text := "DOCGRAPH_API_KEY"

def Environment.value? (env : Environment) (name : Text) : Option Text :=
  (env.lookup name).filter fun v => !v.isEmpty

/-- The key that the environment has for a provider, empty if there is none. The variable for every
provider comes first. -/
def Environment.apiKey (env : Environment) (provider : Text) : Text :=
  let own := (Provider.ofName? provider).bind Provider.keyVariable?
  ((env.value? sharedKeyVariable).or (own.bind env.value?)).getD []

namespace Settings

def fieldOf (fields : Fields) (name : Text) : Data := (Fields.get? fields name).getD (.text [])

def askedProvider? (asked : Data) : Except Fault (Option Text) :=
  if asked.isPresent then
    match asked with
    | .text t => .ok (some (Text.lower t))
    | v => .error (.noMember v "lower")
  else .ok none

/-- The service to use: the one of the file, unless another provider is asked for. -/
def chooseService (asked : Data) (file : Fields) : Except Fault Fields := do
  let service ← Sections.effectiveService file
  match ← askedProvider? asked with
  | none => return service
  | some provider =>
    if Data.display (fieldOf service "provider") = provider then return service
    else return Fields.set "provider" (.text provider) (Provider.ofName provider).defaults

def limit (generation : Data) (name : Text) (standard : Data) : Except Fault Data := do
  return (Fields.get? (← generation.fields) name).getD standard

def ofSections (asked : Overrides) (service : Fields) (generation : Data) (env : Environment) :
    Except Fault Settings := do
  let standard : Settings := {}
  let provider := (fieldOf service "provider").display
  let apiKey := asked.apiKey.orElse
    ((fieldOf service "api_key").orElse (.text (env.apiKey provider)))
  let maxOutputTokens ←
    if asked.maxOutputTokens.isPresent then asked.maxOutputTokens.toInt
    else (← limit generation "max_output_tokens" (.int standard.maxOutputTokens)).toInt
  let timeout ← (← limit generation "timeout" (.float standard.timeout)).toFloat
  let relatedDepth ← (← limit generation "related_depth" (.int standard.relatedDepth)).toInt
  let workers ← (← limit generation "workers" (.int standard.workers)).toInt
  return { provider, apiKey, maxOutputTokens, timeout, relatedDepth, workers
           model := asked.model.orElse (fieldOf service "model")
           endpoint := asked.endpoint.orElse (fieldOf service "endpoint") }

def resolve (asked : Overrides) (file : Fields) (env : Environment) : Except Fault Settings := do
  ofSections asked (← chooseService asked.provider file) (Sections.generationValue file) env

end Settings

end CodeAtlas
