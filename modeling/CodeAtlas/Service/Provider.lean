import CodeAtlas.Data
import CodeAtlas.Text.Case

set_option autoImplicit false

namespace CodeAtlas

inductive Provider where
  | anthropic | openai | openrouter | groq | ollama
  deriving DecidableEq, Repr

namespace Provider

def all : List Provider := [.anthropic, .openai, .openrouter, .groq, .ollama]

def name : Provider → Text
  | .anthropic => "anthropic"
  | .openai => "openai"
  | .openrouter => "openrouter"
  | .groq => "groq"
  | .ollama => "ollama"

def model : Provider → Text
  | .anthropic => "claude-3-5-sonnet-20241022"
  | .openai => "gpt-4o"
  | .openrouter => "anthropic/claude-sonnet-4"
  | .groq => "llama-3.3-70b-versatile"
  | .ollama => "qwen2.5-coder:7b"

def endpoint : Provider → Text
  | .anthropic => "https://api.anthropic.com/v1/messages"
  | .openai => "https://api.openai.com/v1/chat/completions"
  | .openrouter => "https://openrouter.ai/api/v1/chat/completions"
  | .groq => "https://api.groq.com/openai/v1/chat/completions"
  | .ollama => "http://127.0.0.1:11434/api/generate"

def keyVariable? : Provider → Option Text
  | .anthropic => some "ANTHROPIC_API_KEY"
  | .openai => some "OPENAI_API_KEY"
  | .openrouter => some "OPENROUTER_API_KEY"
  | .groq => some "GROQ_API_KEY"
  | .ollama => none

def standard : Provider := .anthropic

def ofName? (name : Text) : Option Provider := all.find? fun p => p.name = name

/-- The provider of a name, or the standard one if the name is unknown. -/
def ofName (name : Text) : Provider := (ofName? name).getD standard

def defaults (p : Provider) : Fields :=
  [("provider", .text p.name), ("model", .text p.model), ("endpoint", .text p.endpoint)]

theorem ofName?_name (p : Provider) : ofName? p.name = some p := by
  cases p <;> rfl

theorem name_of_ofName? {name : Text} {p : Provider} (h : ofName? name = some p) :
    p.name = name := by
  simpa using List.find?_some h

end Provider

end CodeAtlas
