import CodeAtlas.Fault
import CodeAtlas.Path

set_option autoImplicit false

namespace CodeAtlas

inductive TreeEntry where
  | directory
  | file (bytes : List UInt8)
  deriving DecidableEq, Repr

structure FileTree where
  entries : List (List Text × TreeEntry) := []
  deriving Repr

namespace FileTree

def file? (t : FileTree) (place : List Text) : Option (List UInt8) :=
  match t.entries.lookup place with
  | some (.file bytes) => some bytes
  | _ => none

def isFile (t : FileTree) (place : List Text) : Bool := (t.file? place).isSome

/-- Whether a directory stands at a place: the root, a directory entry, or what an entry stands in. -/
def isDirectory (t : FileTree) (place : List Text) : Bool :=
  place.isEmpty || t.entries.any fun (segments, entry) =>
    if segments = place then entry = .directory else place.isPrefixOf segments

def filesBelow (t : FileTree) (place : List Text) : List (List Text × List UInt8) :=
  t.entries.filterMap fun (segments, entry) =>
    match entry with
    | .file bytes =>
      if place.isPrefixOf segments && segments ≠ place then
        some (segments.drop place.length, bytes)
      else none
    | .directory => none

def lost (t : FileTree) (path : Text) (here : List Text) : Fault :=
  if t.isFile here then .noDirectory path else .noSuchFile path

/-- Goes from a place along segments, `..` leading back. Only directories can be left. -/
def walk (t : FileTree) (path : Text) : List Text → List Text → Except Fault (List Text)
  | here, [] => .ok here
  | here, s :: rest =>
    if t.isDirectory here then
      if s = [] ∨ s = ['.'] then walk t path here rest
      else if s = ['.', '.'] then walk t path here.dropLast rest
      else walk t path (here ++ [s]) rest
    else .error (t.lost path here)

def locate (t : FileTree) (directory : List Text) (path : Text) : Except Fault (List Text) :=
  if path.isEmpty then .error (.noSuchFile path)
  else t.walk path (if Text.startsWith path ['/'] then [] else directory) (Text.splitAt '/' path)

def put (place : List Text) (entry : TreeEntry) :
    List (List Text × TreeEntry) → List (List Text × TreeEntry)
  | [] => [(place, entry)]
  | (p, e) :: rest => if p = place then (place, entry) :: rest else (p, e) :: put place entry rest

/-- Writes a file at a place. The directory of the file must be there, and the place must not be a
directory. The path is what faults name. -/
def write (t : FileTree) (path : Text) (place : List Text) (bytes : List UInt8) :
    Except Fault FileTree :=
  if t.isDirectory place then .error (.occupied path)
  else if t.isDirectory place.dropLast then .ok ⟨put place (.file bytes) t.entries⟩
  else .error (t.lost path place.dropLast)

theorem lookup_put (place : List Text) (entry : TreeEntry)
    (entries : List (List Text × TreeEntry)) :
    (put place entry entries).lookup place = some entry := by
  induction entries with
  | nil => simp [put]
  | cons e rest ih =>
    obtain ⟨p, x⟩ := e
    by_cases h : p = place
    · simp [put, h]
    · have hb : (place == p) = false := by simpa using fun e => h e.symm
      simp [put, h, List.lookup_cons, hb, ih]

/-- A file that was written holds the bytes written. -/
theorem file?_of_write {t u : FileTree} {path : Text} {place : List Text} {bytes : List UInt8}
    (h : t.write path place bytes = .ok u) : u.file? place = some bytes := by
  unfold write at h
  split at h
  · simp at h
  · split at h
    · simp only [Except.ok.injEq] at h
      subst h
      simp [file?, lookup_put]
    · simp at h

end FileTree

end CodeAtlas
