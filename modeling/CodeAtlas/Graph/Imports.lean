import CodeAtlas.Graph.Basic

set_option autoImplicit false

namespace CodeAtlas.Graph

def importedFiles (g : Graph) (id : Text) : List Text :=
  ((g.outgoing id (some .imports)).map (·.target)).filter (g.isFile ·)

/-- Visits the ids of a stack, the first on top, and lists those visited for the first time. The
fuel bounds the number of ids taken from the stack. -/
def visit (g : Graph) : Nat → List Text → List Text → List Text
  | 0, _, _ => []
  | _ + 1, _, [] => []
  | fuel + 1, visited, id :: stack =>
    if id ∈ visited then visit g fuel visited stack
    else id :: visit g fuel (id :: visited) (g.importedFiles id ++ stack)

/-- A file and all files that it imports, directly or through others. Every import edge puts its
target on the stack once at most, which bounds the number of ids taken from it. -/
def preorder (g : Graph) (entry : Text) : List Text := g.visit (g.edges.length + 1) [] [entry]

theorem not_mem_visited_of_mem_visit {g : Graph} {fuel : Nat} {visited stack : List Text}
    {id : Text} (h : id ∈ g.visit fuel visited stack) : id ∉ visited := by
  induction fuel generalizing visited stack with
  | zero => simp [visit] at h
  | succ fuel ih =>
    cases stack with
    | nil => simp [visit] at h
    | cons top stack =>
      simp only [visit] at h
      split at h
      · exact ih h
      · rcases List.mem_cons.1 h with rfl | h
        · assumption
        · exact fun hv => ih h (List.mem_cons_of_mem _ hv)

theorem nodup_visit (g : Graph) (fuel : Nat) (visited stack : List Text) :
    (g.visit fuel visited stack).Nodup := by
  induction fuel generalizing visited stack with
  | zero => simp [visit]
  | succ fuel ih =>
    cases stack with
    | nil => simp [visit]
    | cons top stack =>
      simp only [visit]
      split
      · exact ih _ _
      · exact List.nodup_cons.2 ⟨fun h => not_mem_visited_of_mem_visit h (.head _), ih _ _⟩

theorem nodup_preorder (g : Graph) (entry : Text) : (g.preorder entry).Nodup :=
  nodup_visit g _ _ _

theorem head?_preorder (g : Graph) (entry : Text) : (g.preorder entry).head? = some entry := by
  simp [preorder, visit]

end CodeAtlas.Graph
