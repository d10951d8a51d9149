import CodeAtlas.Text.Basic

set_option autoImplicit false

namespace CodeAtlas

inductive Status where
  | idle | processing | completed | error
  deriving DecidableEq, Repr

namespace Status

def label : Status → Text
  | .idle => "idle"
  | .processing => "processing"
  | .completed => "completed"
  | .error => "error"

def next : Status → List Status
  | .idle => [.processing, .error]
  | .processing => [.processing, .completed, .error]
  | .completed => []
  | .error => []

def allows (source target : Status) : Bool := source.next.contains target

/-- How far the work has come; a move never goes back. -/
def rank : Status → Nat
  | .idle => 0
  | .processing => 1
  | .completed => 2
  | .error => 2

end Status

end CodeAtlas
