import CodeAtlas.Json.Reader
import CodeAtlas.Stage.Status

set_option autoImplicit false

namespace CodeAtlas

inductive TransportFault where
  | connection (reason : Text)
  | status (code : Int) (reason url : Text)
  | body (refusal : Json.Refusal)
  deriving DecidableEq, Repr

inductive ServiceFault where
  | keyRequired (provider : Text)
  | requestFailed (provider : Text) (cause : TransportFault)
  | invalidReply (provider reason : Text)
  | unexpectedPayload (provider : Text)
  | generationFailed (reason : Text)
  | noText
  | stated (reason : Text)
  deriving DecidableEq, Repr

/-- Who has to act on a fault. -/
inductive FaultKind where
  | input | service | retrieval | transition
  | value | missingKey | mismatch | attribute | overflow
  | runtime | connection | system | missingFile | directory | notDirectory | aborted
  deriving DecidableEq, Repr

inductive Fault where
  | noFiles
  | noStructure
  | nothingToSearch
  | entryNotFound (target : Text)
  | illegalMove (stage : Text) (source target : Status)
  | service (cause : ServiceFault)
  | missingField (name : Text)
  | unexpectedField (name : Text)
  | missingArgument (name : Text)
  | notIndexable (v : Data)
  | noMember (v : Data) (member : Text)
  | notIterable (v : Data)
  | notAPair (index length : Nat)
  | notAnEntry (index : Nat)
  | unusableKey (v : Data)
  | unknownScope (v : Data)
  | notAnInt (t : Text)
  | notAFloat (t : Text)
  | notANumber (v : Data)
  | notFinite (v : Data)
  | notSliceable (v : Data)
  | noSuchFile (path : Text)
  | occupied (path : Text)
  | noDirectory (path : Text)
  | noAnswer
  /-- A fault stated by a collaborator, with its own words. -/
  | stated (kind : FaultKind) (message : Text)
  deriving Inhabited

def TransportFault.message : TransportFault → Text
  | .connection reason => reason
  | .status code reason url =>
    Text.ofInt code ++ (if code < 500 then (" Client Error: " : Text) else " Server Error: ")
      ++ reason ++ " for url: " ++ url
  | .body refusal => refusal.message

def ServiceFault.message : ServiceFault → Text
  | .keyRequired provider => provider ++ ": an API key is required"
  | .requestFailed provider cause => provider ++ " request failed: " ++ cause.message
  | .invalidReply provider reason => provider ++ " returned invalid JSON: " ++ reason
  | .unexpectedPayload provider => provider ++ " returned an unexpected payload"
  | .generationFailed reason => "Text generation failed: " ++ reason
  | .noText => "Text generation service returned no text content"
  | .stated reason => reason

namespace Fault

def kind : Fault → FaultKind
  | .noFiles | .noStructure => .input
  | .nothingToSearch | .entryNotFound _ => .retrieval
  | .illegalMove .. => .transition
  | .service _ => .service
  | .missingField _ => .missingKey
  | .unexpectedField _ | .missingArgument _ | .notIndexable _ | .notIterable _ | .notAnEntry _
  | .unusableKey _ | .notANumber _ | .notSliceable _ => .mismatch
  | .noMember .. => .attribute
  | .notAPair .. | .unknownScope _ | .notAnInt _ | .notAFloat _ => .value
  | .notFinite (.float x) => if x.isNaN then .value else .overflow
  | .notFinite _ => .overflow
  | .noSuchFile _ => .missingFile
  | .occupied _ => .directory
  | .noDirectory _ => .notDirectory
  | .noAnswer => .aborted
  | .stated kind _ => kind

def message : Fault → Text
  | .noFiles => "No files provided for analysis"
  | .noStructure => "Structure data is required for documentation generation"
  | .nothingToSearch => "No graph or structure provided"
  | .entryNotFound target => "Entry file not found for module: " ++ target
  | .illegalMove stage source target =>
    stage ++ ": cannot move from " ++ source.label ++ " to " ++ target.label
  | .service cause => cause.message
  | .missingField name => Text.quoted name
  | .unexpectedField name => "got an unexpected keyword argument " ++ Text.quoted name
  | .missingArgument name => "missing a required argument: " ++ Text.quoted name
  | .notIndexable (.text _) => "string indices must be integers, not 'str'"
  | .notIndexable (.list _) => "list indices must be integers or slices, not str"
  | .notIndexable v => Text.quoted v.kindName ++ " object is not subscriptable"
  | .noMember v member =>
    Text.quoted v.kindName ++ " object has no attribute " ++ Text.quoted member
  | .notIterable v => Text.quoted v.kindName ++ " object is not iterable"
  | .notAPair index length =>
    "dictionary update sequence element #" ++ Text.ofNat index ++ " has length "
      ++ Text.ofNat length ++ "; 2 is required"
  | .notAnEntry index =>
    "cannot convert dictionary update sequence element #" ++ Text.ofNat index ++ " to a sequence"
  | .unusableKey v => "unhashable type: " ++ Text.quoted v.kindName
  | .unknownScope v => v.quoted ++ " is not a valid Scope"
  | .notAnInt t => "invalid literal for int() with base 10: " ++ Text.quoted t
  | .notAFloat t => "could not convert string to float: " ++ Text.quoted t
  | .notANumber v => "a string or a real number is required, not " ++ Text.quoted v.kindName
  | .notFinite (.float x) =>
    if x.isNaN then "cannot convert float NaN to integer"
    else "cannot convert float infinity to integer"
  | .notFinite _ => "int too large to convert to float"
  | .notSliceable v => Text.quoted v.kindName ++ " object is not subscriptable"
  | .noSuchFile path => "No such file or directory: " ++ Text.quoted path
  | .occupied path => "Is a directory: " ++ Text.quoted path
  | .noDirectory path => "Not a directory: " ++ Text.quoted path
  | .noAnswer => []
  | .stated _ message => message

end Fault

namespace Data

/-- The members that a value hands out one by one: the items of a list, the names of a record's
fields, the characters of a text. -/
def members : Data → Except Fault (List Data)
  | .list items => .ok items
  | .record fields => .ok (fields.map fun (n, _) => .text n)
  | .text t => .ok (t.map fun c => .text [c])
  | v => .error (.notIterable v)

def fields : Data → Except Fault Fields
  | .record fields => .ok fields
  | v => .error (.noMember v "get")

/-- A value as a whole number: a fraction is cut off, and a text is read. -/
def toInt : Data → Except Fault Int
  | .int n => .ok n
  | .bool b => .ok (if b then 1 else 0)
  | .float x =>
    match Numeral.truncate? x with
    | some n => .ok n
    | none => .error (.notFinite (.float x))
  | .text t =>
    match Numeral.readInt? t with
    | some n => .ok n
    | none => .error (.notAnInt t)
  | v => .error (.notANumber v)

def toFloat : Data → Except Fault Float
  | .int n =>
    let x := Numeral.ofInt n
    if x.isInf then .error (.notFinite (.int n)) else .ok x
  | .bool b => .ok (if b then 1.0 else 0.0)
  | .float x => .ok x
  | .text t =>
    match Numeral.readFloat? t with
    | some x => .ok x
    | none => .error (.notAFloat t)
  | v => .error (.notANumber v)

end Data

end CodeAtlas
