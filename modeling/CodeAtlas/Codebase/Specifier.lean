import CodeAtlas.Distinct
import CodeAtlas.Path

/-!
Finding the file that an import names. A specifier that is a path of the codebase names that file.
Otherwise a relative specifier of a script is tried with the usual extensions and as a directory
with an index file, and a dotted name of a Python module is tried as a file and as a package. Bare
package names of scripts lead nowhere.
-/

set_option autoImplicit false

namespace CodeAtlas.Specifier

def scriptExtensions : List Text := [".ts", ".tsx", ".mts", ".js", ".jsx", ".mjs", ".cjs"]

def isPythonPath (path : Text) : Bool := Text.endsWith path ".py"

def isRelative (specifier : Text) : Bool :=
  Text.startsWith specifier "./" || Text.startsWith specifier "../"
    || specifier = "." || specifier = ".."

/-- The paths that a script's relative specifier may mean, the preferred first: the path as it is
written, with an extension added, with its extension replaced, and the index files of a
directory. -/
def scriptCandidates (importer specifier : Text) : List Text :=
  let base := Path.normalize (Path.join (Path.directory importer) specifier)
  let (stem, extension) := Path.splitExtension base
  base :: scriptExtensions.map (base ++ ·)
    ++ (if extension ∈ scriptExtensions then scriptExtensions.map (stem ++ ·) else [])
    ++ scriptExtensions.map fun e => Path.join base ("index" ++ e)

def resolveScript (importer specifier : Text) (known : List Text) : Option Text :=
  if isRelative specifier then (scriptCandidates importer specifier).find? (· ∈ known) else none

def ancestor : Nat → Text → Text
  | 0, dir => dir
  | n + 1, dir => ancestor n (Path.directory dir)

/-- The paths that a relative module name may mean. The first dot stands for the package of the
importing file and every further dot for one package above. -/
def relativeCandidates (importer : Text) (dots : Nat) (rest : Text) : List Text :=
  let package := ancestor (dots - 1) (Path.directory importer)
  if rest.isEmpty then [Path.join package "__init__.py"]
  else
    let base := Path.join package rest
    [base ++ ".py", Path.join base "__init__.py"]

/-- The paths that a module name without leading dots may mean, seen from the root of its
package. -/
def absoluteCandidates (rest : Text) : List Text := [rest ++ ".py", rest ++ "/__init__.py"]

def only? (p : Text → Bool) (known : List Text) : Option Text :=
  match distinct (known.filter p) with
  | [path] => some path
  | _ => none

/-- A module name without leading dots is read from the root of the codebase, or else from any
directory of it, if only one file answers to it there. -/
def resolveAbsolute (rest : Text) (known : List Text) : Option Text :=
  if rest.isEmpty then none
  else
    ((absoluteCandidates rest).find? (· ∈ known)) <|>
      only? (fun path => (absoluteCandidates rest).any fun c => Text.endsWith path ('/' :: c)) known

def resolvePython (importer specifier : Text) (known : List Text) : Option Text :=
  let dots := (specifier.takeWhile (· == '.')).length
  let rest := Text.replaceChar '.' '/' (specifier.drop dots)
  if dots = 0 then resolveAbsolute rest known
  else
    ((relativeCandidates importer dots rest).map (·.dropWhile (· == '/'))).find? (· ∈ known)

def resolve (importer specifier : Text) (known : List Text) : Option Text :=
  if specifier ∈ known then some specifier
  else if isPythonPath importer then resolvePython importer specifier known
  else resolveScript importer specifier known

theorem only?_mem {p : Text → Bool} {known : List Text} {path : Text}
    (h : only? p known = some path) : path ∈ known ∧ p path = true := by
  unfold only? at h
  split at h
  · rename_i x hx
    have hm : path ∈ distinct (known.filter p) := by
      rw [hx]; simpa using h.symm
    simpa [List.mem_filter] using hm
  · simp at h

theorem mem_of_resolve {importer specifier path : Text} {known : List Text}
    (h : resolve importer specifier known = some path) : path ∈ known := by
  unfold resolve at h
  split at h
  · simp only [Option.some.injEq] at h; exact h ▸ ‹_›
  · split at h
    · simp only [resolvePython] at h
      split at h
      · unfold resolveAbsolute at h
        split at h
        · simp at h
        · rw [Option.orElse_eq_orElse, Option.orElse_eq_or, Option.or_eq_some_iff] at h
          rcases h with h | ⟨_, h⟩
          · simpa using List.find?_some h
          · exact (only?_mem h).1
      · simpa using List.find?_some h
    · unfold resolveScript at h
      split at h
      · simpa using List.find?_some h
      · simp at h

end CodeAtlas.Specifier
