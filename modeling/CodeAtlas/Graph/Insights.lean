import CodeAtlas.Graph.Build

set_option autoImplicit false

namespace CodeAtlas

structure Insights where
  keyComponents : List Text := []
  modules : List Text := []
  criticalPaths : List Text := []
  deriving DecidableEq, Repr

namespace Insights

def criticalPathLimit : Nat := 5

def exportedIds (f : ParsedFile) : List Text :=
  ((Declaration.all f).filter (·.isExported)).map (·.id f.path)

def inbound (g : Graph) (path : Text) : Nat := (g.incoming path (some .imports)).length

/-- The imported paths by the number of imports that lead to them, the most imported first. Paths
with equal numbers keep their order. -/
def ranked (g : Graph) (paths : List Text) : List Text :=
  ((distinct paths).filter fun p => 0 < inbound g p).mergeSort fun p q => inbound g q ≤ inbound g p

def of (c : Codebase) (g : Graph) : Insights where
  keyComponents := distinct (c.files.flatMap exportedIds)
  modules := distinct (c.files.map fun f => Module.nameOf f.path)
  criticalPaths := (ranked g c.paths).take criticalPathLimit

theorem length_criticalPaths (c : Codebase) (g : Graph) :
    (of c g).criticalPaths.length ≤ criticalPathLimit :=
  List.length_take_le _ _

theorem nodup_keyComponents (c : Codebase) (g : Graph) : (of c g).keyComponents.Nodup :=
  nodup_distinct _

end Insights

end CodeAtlas
