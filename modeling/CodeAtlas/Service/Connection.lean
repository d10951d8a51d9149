import CodeAtlas.Service.Reply
import CodeAtlas.Service.Transport
import CodeAtlas.Settings.Basic
import CodeAtlas.Text.Blank

/-!
Connections to text generation services. Services speak one of three dialects, which differ in the
form of a request and in where a reply holds its text. `answer` says what an outcome of a request
means, whatever the service replied.
-/

set_option autoImplicit false

namespace CodeAtlas

inductive Dialect where
  | messages
  | chat
  | completion
  deriving DecidableEq, Repr

structure Connection where
  dialect : Dialect
  provider : Text
  model : Data
  endpoint : Data
  apiKey : Data := .text []
  timeout : Float := 120.0

namespace Connection

def needsKey (c : Connection) : Bool := c.dialect ≠ .completion

def headers (c : Connection) : Fields :=
  match c.dialect with
  | .messages =>
    [("Content-Type", .text "application/json"), ("x-api-key", c.apiKey),
     ("anthropic-version", .text "2023-06-01")]
  | .chat =>
    [("Content-Type", .text "application/json"),
     ("Authorization", .text ("Bearer " ++ c.apiKey.display))]
  | .completion => [("Content-Type", .text "application/json")]

def userMessage (prompt : Text) : Data :=
  .list [.record [("role", .text "user"), ("content", .text prompt)]]

def body (c : Connection) (prompt : Text) (limit : Int) : Data :=
  match c.dialect with
  | .messages | .chat =>
    .record [("model", c.model), ("max_tokens", .int limit), ("messages", userMessage prompt)]
  | .completion =>
    .record [("model", c.model), ("prompt", .text prompt), ("stream", .bool false),
      ("options", .record [("num_predict", .int limit)])]

def request (c : Connection) (prompt : Text) (limit : Int) : Request where
  url := c.endpoint
  headers := c.headers
  body := c.body prompt limit
  timeout := c.timeout

def payload (c : Connection) : Outcome → Except Fault Fields
  | .unreachable reason => .error (.service (.requestFailed c.provider (.connection reason)))
  | .malformed reason => .error (.service (.invalidReply c.provider reason))
  | .failed fault => .error fault
  | .response status reason body =>
    if 400 ≤ status ∧ status < 600 then
      .error (.service (.requestFailed c.provider (.status status reason c.endpoint.display)))
    else match body.read with
      | .error refusal => .error (.service (.requestFailed c.provider (.body refusal)))
      | .ok (.record fields) => .ok fields
      | .ok _ => .error (.service (.unexpectedPayload c.provider))

def given (fields : Fields) (name : Text) (other : Data) : Data :=
  ((Fields.get? fields name).getD .null).orElse other

def modelOf (c : Connection) (fields : Fields) : Text :=
  ((Fields.get? fields "model").getD c.model).display

def textOf (fields : Fields) (name : Text) : Text :=
  ((Fields.get? fields name).map Data.display).getD []

def contentBlock? : Data → Option Block
  | .record fields => some ⟨textOf fields "type", textOf fields "text"⟩
  | _ => none

/-- The text block of a choice; a text of blanks alone is none. -/
def choiceBlock? (choice : Data) : Except Fault (Option Block) := do
  let message ← (given (← choice.fields) "message" (.record [])).fields
  match Fields.get? message "content" with
  | some (.text t) => return if (Text.strip t).isEmpty then none else some ⟨"text", t⟩
  | _ => return none

def tokenUsage (fields : Fields) (input output : Text) : Data :=
  .record [("input_tokens", (Fields.get? fields input).getD (.int 0)),
    ("output_tokens", (Fields.get? fields output).getD (.int 0))]

def interpret (c : Connection) (fields : Fields) : Except Fault Reply := do
  match c.dialect with
  | .messages =>
    let items ← (given fields "content" (.list [])).members
    return { content := items.filterMap contentBlock?, model := c.modelOf fields
             usage := given fields "usage" (.record []) }
  | .chat =>
    let choices ← (given fields "choices" (.list [])).members
    let blocks ← choices.mapM choiceBlock?
    let usage ← (given fields "usage" (.record [])).fields
    return { content := blocks.filterMap id, model := c.modelOf fields
             usage := tokenUsage usage "prompt_tokens" "completion_tokens" }
  | .completion =>
    let content : List Block := match Fields.get? fields "response" with
      | some (.text t) => if t.isEmpty then [] else [⟨"text", t⟩]
      | _ => []
    return { content, model := c.modelOf fields
             usage := tokenUsage fields "prompt_eval_count" "eval_count" }

def answer (c : Connection) (outcome : Outcome) : Except Fault Reply := do
  c.interpret (← c.payload outcome)

/-- Sends a prompt. Without the key that it needs nothing is sent. -/
def generate (c : Connection) (prompt : Text) (limit : Int) (t : Transport) :
    Except Fault Reply × Transport :=
  if c.needsKey && !c.apiKey.isPresent then (.error (.service (.keyRequired c.provider)), t)
  else
    let (outcome, t) := t.send (c.request prompt limit)
    (c.answer outcome, t)

def client (c : Connection) : Client Transport := ⟨c.generate⟩

def unknownProvider? (s : Settings) : Option Text :=
  if (Provider.ofName? (Text.lower s.provider)).isSome then none else some s.provider

def unknownProviderWarning (name : Text) : Text :=
  Text.concat ["Unknown provider '", name, "'; using anthropic"]

/-- The connection that settings ask for. An unknown provider is replaced by the standard one, with
its own model and endpoint. -/
def ofSettings (s : Settings) : Connection :=
  match Provider.ofName? (Text.lower s.provider) with
  | none =>
    { dialect := .messages, provider := Provider.standard.name
      model := .text Provider.standard.model, endpoint := .text Provider.standard.endpoint
      apiKey := s.apiKey, timeout := s.timeout }
  | some p =>
    let model := s.model.orElse (.text p.model)
    let endpoint := s.endpoint.orElse (.text p.endpoint)
    match p with
    | .anthropic =>
      { dialect := .messages, provider := p.name, model, endpoint
        apiKey := s.apiKey, timeout := s.timeout }
    | .ollama => { dialect := .completion, provider := p.name, model, endpoint, timeout := s.timeout }
    | .openai | .openrouter | .groq =>
      { dialect := .chat, provider := p.name, model, endpoint
        apiKey := s.apiKey, timeout := s.timeout }

end Connection

end CodeAtlas
