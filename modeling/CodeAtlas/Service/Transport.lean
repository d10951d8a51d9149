import CodeAtlas.Fault

/-!
Requests to a service and what comes of them. A transport holds the outcomes that are still to come
and the requests that were made; when no outcome is left, every further request has the same one.
-/

set_option autoImplicit false

namespace CodeAtlas

structure Request where
  url : Data
  headers : Fields
  body : Data
  timeout : Float

inductive Body where
  | json (v : Data)
  | raw (t : Text)

def Body.read : Body → Except Json.Refusal Data
  | .json v => .ok v
  | .raw t => Json.read t

inductive Outcome where
  | response (status : Int) (reason : Text) (body : Body)
  | unreachable (reason : Text)
  | malformed (reason : Text)
  | failed (fault : Fault)

structure Transport where
  pending : List Outcome
  otherwise : Outcome
  sent : List Request := []

def Transport.send (t : Transport) (request : Request) : Outcome × Transport :=
  match t.pending with
  | [] => (t.otherwise, { t with sent := t.sent ++ [request] })
  | o :: rest => (o, { t with pending := rest, sent := t.sent ++ [request] })

end CodeAtlas
