import CodeAtlas.Graph.Imports
import CodeAtlas.Graph.Related
import CodeAtlas.Pipeline.Prompt
import CodeAtlas.Pipeline.Structural

/-!
The retrieval stage: it selects the files that serve as context. For a file these are the files
related to it and the file itself, for a module the files that its entry imports, and for a
repository all files. A fault does not end the run; the context is then empty.
-/

set_option autoImplicit false

namespace CodeAtlas

/-- The look-ups in a graph that retrieval makes: the files related to a file, and the files of a
module. Any of them may fail. -/
structure GraphQueries where
  related : Graph → Text → Nat → Except Fault (List Text)
  module : Graph → Text → Except Fault (List Text)

def Graph.queries : GraphQueries where
  related g file hops := .ok (g.related file hops)
  module g entry := .ok (g.preorder entry)

namespace Retrieval

def entry? (c : Codebase) (target : Text) : Option Text :=
  c.paths.find? fun path => Text.occursIn target path

def select (queries : GraphQueries) (hops : Nat) (scope : Scope) (target : Option Text)
    (c : Codebase) (g : Graph) : Except Fault (List Text) :=
  let target := target.getD []
  match scope with
  | .file =>
    if target.isEmpty then .ok c.paths
    else (queries.related g target hops).map (· ++ [target])
  | .module =>
    if target.isEmpty then .ok c.paths
    else match entry? c target with
      | some entry => queries.module g entry
      | none => .error (.entryNotFound target)
  | .repository => .ok c.paths

/-- The language of a path; of files that share a path the last counts. -/
def languageOf (c : Codebase) (path : Text) : Text :=
  match c.files.reverse.find? (·.path = path) with
  | some f => if f.language.isEmpty then "text" else f.language
  | none => "text"

def chunks (c : Codebase) (paths : List Text) : List Chunk :=
  (distinct paths).map fun path => ⟨path, [], languageOf c path⟩

/-- The content of a path; of files that share a path the first counts. -/
def contentOf (files : List SourceFile) (path : Text) : Text :=
  match files.find? (·.path = path) with
  | some f => f.content
  | none => []

/-- Gives every chunk the content of its file, and drops those that stay empty. -/
def hydrate (chunks : List Chunk) (files : List SourceFile) : List Chunk :=
  (chunks.map fun chunk => { chunk with content := contentOf files chunk.path }).filter
    fun chunk => !chunk.content.isEmpty

theorem content_ne_nil_of_mem_hydrate {chunks : List Chunk} {files : List SourceFile}
    {chunk : Chunk} (h : chunk ∈ hydrate chunks files) : chunk.content ≠ [] := by
  simpa using (List.mem_filter.1 h).2

theorem length_hydrate_le (chunks : List Chunk) (files : List SourceFile) :
    (hydrate chunks files).length ≤ chunks.length := by
  unfold hydrate
  exact Nat.le_trans (List.length_filter_le ..) (by simp)

end Retrieval

namespace Run

variable {σ : Type}

def choose (queries : GraphQueries) (hops : Nat) (ctx : Context) (target : Option Text)
    (given : Option (Codebase × Graph)) : Run σ (List Chunk) := do
  match given with
  | none => throw .nothingToSearch
  | some (c, g) =>
    let paths ← orFault (Retrieval.select queries hops ctx.scope target c g)
    let chunks := Retrieval.chunks c paths
    note ctx (.retrievalCompleted chunks.length)
    perform .retrieval .complete
    return chunks

def retrieval (queries : GraphQueries) (hops : Nat) (ctx : Context) (target : Option Text)
    (given : Option (Codebase × Graph)) : Run σ (List Chunk) := do
  perform .retrieval .reset
  perform .retrieval (.start (some "Finding relevant context"))
  note ctx (.retrievalStarted ctx.scope target)
  tryCatch (choose queries hops ctx target given) fun fault => do
    perform .retrieval (.fail fault.message)
    note ctx (.retrievalDegraded fault.message)
    return []

end Run

end CodeAtlas
