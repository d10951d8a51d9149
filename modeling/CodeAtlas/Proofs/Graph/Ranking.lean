import CodeAtlas.Graph.Insights
import CodeAtlas.Proofs.Graph.Structure
import CodeAtlas.Proofs.Order

set_option autoImplicit false

namespace CodeAtlas

namespace Codebase

def importCount (c : Codebase) (path : Text) : Nat :=
  c.dependencies.countP fun d => Specifier.resolve d.importer d.target c.paths = some path

/-- A path outranks those that are named less often, and those named as often that come up later. -/
def Outranks (c : Codebase) (p q : Text) : Prop :=
  c.importCount q < c.importCount p ∨
    c.importCount p = c.importCount q ∧ c.paths.idxOf p < c.paths.idxOf q

structure Leading (c : Codebase) (limit : Nat) (top : List Text) : Prop where
  short : top.length ≤ limit
  once : top.Nodup
  files : ∀ p ∈ top, p ∈ (Graph.ofCodebase c).fileNodes.map (·.id)
  imported : ∀ p ∈ top, 1 ≤ c.importCount p
  order : top.Pairwise c.Outranks
  rest : ∀ p ∈ c.paths, p ∉ top → c.importCount p = 0 ∨
    top.length = limit ∧ ∃ last ∈ top.getLast?, c.Outranks last p

end Codebase

namespace Insights

variable {c : Codebase} (hl : ∀ d ∈ c.dependencies, d.link = .imports)
include hl

/-- The edges that reach a file stand for the dependencies that name it. -/
theorem inbound_eq_importCount {path : Text} (hp : path ∈ c.paths) :
    inbound (Graph.ofCodebase c) path = c.importCount path := by
  have hedges : (Graph.ofCodebase c).incoming path (some .imports) =
      (c.dependencies.map (Graph.dependencyEdge c.paths)).filter fun e => e.target = path := by
    rw [← Graph.imports_ofCodebase hl, List.filter_filter]
    simp only [Graph.incoming, Option.all_some, eq_comm (a := Link.imports)]
  have hnames : ∀ d ∈ c.dependencies, (Graph.dependencyEdge c.paths d).target = path ↔
      Specifier.resolve d.importer d.target c.paths = some path := by
    intro d hd
    rw [Graph.target_dependencyEdge (hl d hd)]
    cases hr : Specifier.resolve d.importer d.target c.paths with
    | some found => simp
    | none =>
      have hne : d.target ≠ path := fun he => Graph.not_mem_of_resolve_eq_none hr (he ▸ hp)
      simp [hne]
  rw [inbound, hedges, ← List.countP_eq_length_filter, List.countP_map, Codebase.importCount]
  exact List.countP_congr fun d hd => by simpa using hnames d hd

theorem mem_ranked {path : Text} :
    path ∈ ranked (Graph.ofCodebase c) c.paths ↔ path ∈ c.paths ∧ 1 ≤ c.importCount path := by
  rw [ranked, List.mem_mergeSort, List.mem_filter, mem_distinct, decide_eq_true_eq]
  refine and_congr_right fun hp => ?_
  rw [inbound_eq_importCount hl hp]
  rfl

theorem outranks_ranked : (ranked (Graph.ofCodebase c) c.paths).Pairwise c.Outranks := by
  have horder := (firstSeen_distinct c.paths).order.filter
    fun p => 0 < inbound (Graph.ofCodebase c) p
  refine (pairwise_mergeSort_falling horder).imp_of_mem fun {p q} hp hq h => ?_
  have hpath := ((mem_ranked hl).1 hp).1
  have hother := ((mem_ranked hl).1 hq).1
  rw [inbound_eq_importCount hl hpath, inbound_eq_importCount hl hother] at h
  exact h

theorem leading_take (limit : Nat) (hlimit : 0 < limit) :
    c.Leading limit ((ranked (Graph.ofCodebase c) c.paths).take limit) := by
  have horder := outranks_ranked hl
  have hnodup : (ranked (Graph.ofCodebase c) c.paths).Nodup :=
    (List.mergeSort_perm _ _).nodup_iff.2 ((nodup_distinct c.paths).filter _)
  have hmem : ∀ p ∈ (ranked (Graph.ofCodebase c) c.paths).take limit,
      p ∈ c.paths ∧ 1 ≤ c.importCount p :=
    fun p hp => (mem_ranked hl).1 (List.mem_of_mem_take hp)
  refine ⟨List.length_take_le _ _, hnodup.take, ?_, fun p hp => (hmem p hp).2, horder.take, ?_⟩
  · intro p hp
    rw [Graph.fileNodes_ofCodebase, List.map_map]
    exact (hmem p hp).1
  · intro p hp hout
    rcases Nat.eq_zero_or_pos (c.importCount p) with hcount | hcount
    · exact .inl hcount
    · exact .inr (behind_take horder hlimit ((mem_ranked hl).2 ⟨hp, hcount⟩) hout)

omit hl in
/-- The critical paths are the five files that outrank all others. -/
theorem leading_criticalPaths (files : List SourceFile) :
    let c := Codebase.ofFiles files
    c.Leading 5 (Insights.of c (Graph.ofCodebase c)).criticalPaths :=
  leading_take (fun _ hd => Graph.link_of_mem_dependencies hd) 5 (by decide)

end Insights

end CodeAtlas
