import CodeAtlas.Graph.Basic

/-!
Files related to a file. Edges are followed in either direction. Walking through the declarations of
the file at hand costs nothing, and reaching another file, or a declaration of another file, costs
one hop. `adjacentFiles` gives the files one hop away and `related` those within a number of hops,
nearest first.
-/

set_option autoImplicit false

namespace CodeAtlas.Graph

/-- Where a walk that stands on an id of the file at hand may go next. -/
inductive Step where
  | inside (id : Text)
  | file (path : Text)
  | nowhere
  deriving DecidableEq, Repr

def step (g : Graph) (file neighbor : Text) : Step :=
  match g.node? neighbor with
  | none => .nowhere
  | some n =>
    if n.kind = .file then .file neighbor
    else if n.path = some file then .inside neighbor
    else match n.path with
      | some path => if !path.isEmpty && g.isFile path then .file path else .nowhere
      | none => .nowhere

def Step.inside? : Step → Option Text
  | .inside id => some id
  | _ => none

def Step.file? : Step → Option Text
  | .file path => some path
  | _ => none

/-- Walks through the declarations of a file in the order in which they are reached, and lists the
files reached, with repetitions. Every id of the queue was seen before; the fuel bounds the number
of ids still to be visited. -/
def walk (g : Graph) (file : Text) : Nat → List Text → List Text → List Text
  | 0, _, _ => []
  | _ + 1, _, [] => []
  | fuel + 1, seen, id :: queue =>
    let fresh := (g.neighbors id).filter (· ∉ seen)
    let steps := fresh.map (g.step file)
    steps.filterMap Step.file?
      ++ walk g file fuel (seen ++ fresh) (queue ++ steps.filterMap Step.inside?)

/-- The files one hop away from a file, each once, in the order in which they are reached. No id is
visited twice, so a walk ends after as many visits as there are nodes, and one. -/
def adjacentFiles (g : Graph) (file : Text) : List Text :=
  (distinct (g.walk file (g.nodes.length + 1) [file] [file])).filter (· ≠ file)

def nextLevel (g : Graph) (visited level : List Text) : List Text :=
  (distinct (level.flatMap g.adjacentFiles)).filter (· ∉ visited)

def levels (g : Graph) : Nat → List Text → List Text → List Text
  | 0, _, _ => []
  | _ + 1, _, [] => []
  | hops + 1, visited, file :: level =>
    let next := g.nextLevel visited (file :: level)
    next ++ levels g hops (visited ++ next) next

def related (g : Graph) (file : Text) (hops : Nat) : List Text := g.levels hops [file] [file]

@[simp] theorem related_zero (g : Graph) (file : Text) : g.related file 0 = [] := rfl

theorem not_mem_visited_of_mem_levels {g : Graph} {hops : Nat} {visited level : List Text}
    {path : Text} (h : path ∈ g.levels hops visited level) : path ∉ visited := by
  induction hops generalizing visited level with
  | zero => simp [levels] at h
  | succ hops ih =>
    cases level with
    | nil => simp [levels] at h
    | cons file level =>
      simp only [levels, List.mem_append] at h
      rcases h with h | h
      · simpa using (List.mem_filter.1 h).2
      · exact fun hv => ih h (List.mem_append_left _ hv)

theorem not_mem_related_self (g : Graph) (file : Text) (hops : Nat) :
    file ∉ g.related file hops := fun h => not_mem_visited_of_mem_levels h (.head _)

end CodeAtlas.Graph
