import StrategyGraph.Proofs.Compile.Unfolding
import StrategyGraph.Proofs.Graph.WellFormed

/-!
# Graphs in another order

A graph says the same when its nodes and its edges are listed in another order. A node
has the same kind, the same operand and the same nodes flowing in, though in another
order; and a reordering of a well-formed graph is well-formed.
-/

namespace StrategyGraph
namespace Graph

/-- The nodes and the edges of one graph, in any order. -/
structure Reorders (other graph : Graph) : Prop where
  nodes : other.nodes.Perm graph.nodes
  edges : other.edges.Perm graph.edges

variable {graph other : Graph}

namespace Reorders

variable (reorders : other.Reorders graph)

include reorders

theorem nodeIds : other.nodeIds.Perm graph.nodeIds :=
  reorders.nodes.map Node.id

theorem actions : other.actions.Perm graph.actions :=
  reorders.nodes.filter Node.isAction

theorem flowParents (id : NodeId) : (other.flowParents id).Perm (graph.flowParents id) :=
  reorders.edges.filterMap _

theorem flow_eq : other.Flow = graph.Flow := by
  funext source target
  rw [← mem_flowParents_iff, ← mem_flowParents_iff, (reorders.flowParents target).mem_iff]

theorem compares_eq : other.Compares = graph.Compares := by
  funext source target
  simp only [Compares, reorders.edges.mem_iff]

theorem feedsAction_iff {id : NodeId} : other.FeedsAction id ↔ graph.FeedsAction id := by
  simp only [FeedsAction, Reaches, reorders.flow_eq, reorders.actions.mem_iff]

theorem onFlowCycle_iff {id : NodeId} : other.OnFlowCycle id ↔ graph.OnFlowCycle id := by
  simp only [OnFlowCycle, reorders.flow_eq]

/-- A reordering of a well-formed graph is well-formed. -/
theorem wellFormed (wellFormed : graph.WellFormed) : other.WellFormed where
  distinct := reorders.nodeIds.nodup_iff.2 wellFormed.distinct
  acts := by
    obtain ⟨node, member, acts⟩ := wellFormed.acts
    exact ⟨node, reorders.nodes.mem_iff.2 member, acts⟩
  endpoints := by
    intro edge member
    rw [reorders.nodeIds.mem_iff, reorders.nodeIds.mem_iff]
    exact wellFormed.endpoints edge (reorders.edges.mem_iff.1 member)
  exitsApart := fun edge member node isNode =>
    wellFormed.exitsApart edge (reorders.edges.mem_iff.1 member) node
      (reorders.nodes.mem_iff.1 isNode)
  actionsLast := fun edge member flows node isNode =>
    wellFormed.actionsLast edge (reorders.edges.mem_iff.1 member) flows node
      (reorders.nodes.mem_iff.1 isNode)
  compareConditions := fun edge member compares node isNode =>
    wellFormed.compareConditions edge (reorders.edges.mem_iff.1 member) compares node
      (reorders.nodes.mem_iff.1 isNode)
  compareOnce :=
    ((reorders.edges.filter _).map Edge.target).nodup_iff.2 wellFormed.compareOnce
  acyclic := by
    intro id feeds cycle
    exact wellFormed.acyclic id (reorders.feedsAction_iff.1 feeds)
      (reorders.onFlowCycle_iff.1 cycle)
  negations := by
    intro node isNode negates
    rw [(reorders.edges.filter _).length_eq]
    exact wellFormed.negations node (reorders.nodes.mem_iff.1 isNode) negates
  parameters := fun node isNode =>
    wellFormed.parameters node (reorders.nodes.mem_iff.1 isNode)

section

variable (wellFormed : graph.WellFormed)

include wellFormed

theorem node_eq : other.node? = graph.node? := by
  funext id
  ext node
  rw [node_eq_some_iff (reorders.wellFormed wellFormed).distinct,
    node_eq_some_iff wellFormed.distinct, reorders.nodes.mem_iff]

theorem kind_eq : other.kind? = graph.kind? := by
  funext id
  rw [kind?, kind?, reorders.node_eq wellFormed]

theorem compareInput_eq : other.compareInput? = graph.compareInput? := by
  funext id
  ext source
  rw [compareInput_eq_some_iff (reorders.wellFormed wellFormed).compareOnce,
    compareInput_eq_some_iff wellFormed.compareOnce, reorders.compares_eq]

theorem operand_eq : other.operand = graph.operand := by
  funext id condition
  unfold operand
  rw [reorders.compareInput_eq wellFormed, reorders.node_eq wellFormed]

end

end Reorders
end Graph

/-- The same nodes are reachable in a valid graph and in a reordering of it. -/
theorem ValidGraph.isReachable_eq
    {valid other : ValidGraph}
    (reorders : other.graph.Reorders valid.graph) :
    other.isReachable = valid.isReachable := by
  funext id
  rw [Bool.eq_iff_iff, isReachable_iff, isReachable_iff]
  simp only [Graph.Reachable, reorders.feedsAction_iff, reorders.compares_eq]

end StrategyGraph
