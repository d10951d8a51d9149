import CodeAtlas.Text.Basic

set_option autoImplicit false

namespace CodeAtlas.Path

def baseName (p : Text) : Text := (p.reverse.takeWhile (· != '/')).reverse

def head (p : Text) : Text := (p.reverse.dropWhile (· != '/')).reverse

/-- The directory of a path: what stands before the last slash, without slashes at its end unless
it has nothing else. -/
def directory (p : Text) : Text :=
  if (head p).all (· == '/') then head p else Text.dropRight (· == '/') (head p)

/-- A path without its extension, and the extension with its dot. Dots at the beginning of the file
name do not begin an extension. -/
def splitExtension (p : Text) : Text × Text :=
  let name := baseName p
  let ending := (name.reverse.takeWhile (· != '.')).reverse
  let stem := name.take (name.length - ending.length - 1)
  if ending.length < name.length && stem.any (· != '.') then (head p ++ stem, '.' :: ending)
  else (p, [])

def join (dir p : Text) : Text :=
  if Text.startsWith p ['/'] then p
  else if dir.isEmpty || Text.endsWith dir ['/'] then dir ++ p
  else dir ++ '/' :: p

/-- Drops empty and `.` segments and lets `..` cancel the segment before it. At the root `..` is
dropped; in a relative path it stays when nothing is left to cancel. The segments kept are given
last first. -/
def reduce (rooted : Bool) : List Text → List Text → List Text
  | kept, [] => kept
  | kept, s :: rest =>
    if s = [] ∨ s = ['.'] then reduce rooted kept rest
    else if s = ['.', '.'] then
      match kept with
      | [] => reduce rooted (if rooted then [] else [s]) rest
      | k :: ks => if k = ['.', '.'] then reduce rooted (s :: k :: ks) rest else reduce rooted ks rest
    else reduce rooted (s :: kept) rest

/-- The slashes that a normalised path keeps in front: one, or two when there are exactly two. -/
def rootMark (p : Text) : Text :=
  match p with
  | '/' :: '/' :: '/' :: _ => ['/']
  | '/' :: '/' :: _ => ['/', '/']
  | '/' :: _ => ['/']
  | _ => []

def normalize (p : Text) : Text :=
  let mark := rootMark p
  let whole := mark ++ Text.joinWith ['/'] (reduce (!mark.isEmpty) [] (Text.splitAt '/' p)).reverse
  if whole.isEmpty then ['.'] else whole

/-- A path without empty and `.` segments; `..` stays, since it may lead through a link. -/
def tidy (p : Text) : Text :=
  let segments := (Text.splitAt '/' p).filter fun s => s ≠ [] ∧ s ≠ ['.']
  let whole := rootMark p ++ Text.joinWith ['/'] segments
  if whole.isEmpty then ['.'] else whole

/-- The last dot of a file name and what follows it. A dot at the beginning or at the end of the
name begins no suffix. -/
def suffix (name : Text) : Text :=
  let ending := (name.reverse.takeWhile (· != '.')).reverse
  if ending.isEmpty || name.length ≤ ending.length + 1 then [] else '.' :: ending

theorem head_append_baseName (p : Text) : head p ++ baseName p = p := by
  rw [head, baseName, ← List.reverse_append, List.takeWhile_append_dropWhile, List.reverse_reverse]

end CodeAtlas.Path
