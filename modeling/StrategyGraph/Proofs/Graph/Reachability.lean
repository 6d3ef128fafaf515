import Mathlib.Logic.Relation
import StrategyGraph.Graph.Basic

/-!
# Flow paths

Flow edges relate their sources to their targets. A node feeds an action if a
flow path, possibly an empty one, leads from it to an action, and it lies on a
flow cycle if a path of at least one edge leads back to it. An action can observe the
nodes that feed it and those that they compare with; a condition or a gate that no action
can observe is idle.
-/

namespace StrategyGraph
namespace Graph

/-- A flow edge leads from one node to another. -/
def Flow (graph : Graph) (source target : NodeId) : Prop :=
  ∃ edge ∈ graph.edges,
    edge.role = .flow ∧ edge.source = source ∧ edge.target = target

/-- A flow path, possibly an empty one, leads from one node to another. -/
def Reaches (graph : Graph) : NodeId -> NodeId -> Prop :=
  Relation.ReflTransGen graph.Flow

/-- A flow path, possibly an empty one, leads from the node to an action. -/
def FeedsAction (graph : Graph) (id : NodeId) : Prop :=
  ∃ action ∈ graph.actions, graph.Reaches id action.id

/-- A compare edge leads from one node to another. -/
def Compares (graph : Graph) (source target : NodeId) : Prop :=
  ∃ edge ∈ graph.edges,
    edge.role = .compareInput ∧ edge.source = source ∧ edge.target = target

/-- The node feeds an action or supplies the operand of a node that does. -/
def Reachable (graph : Graph) (id : NodeId) : Prop :=
  graph.FeedsAction id ∨ ∃ target, graph.Compares id target ∧ graph.FeedsAction target

/-- A node of this identity is neither an action nor a risk exit, and it is not reachable. -/
def Idle (graph : Graph) (id : NodeId) : Prop :=
  ∃ node ∈ graph.nodes, node.isAction = false ∧ node.isExit = false ∧
    ¬ graph.Reachable node.id ∧ node.id = id

/-- A flow path of at least one edge leads from the node back to it. -/
def OnFlowCycle (graph : Graph) (id : NodeId) : Prop :=
  Relation.TransGen graph.Flow id id

section

variable {graph : Graph} {source target : NodeId}

theorem mem_flowParents_iff :
    source ∈ graph.flowParents target ↔ graph.Flow source target := by
  unfold flowParents Flow
  rw [List.mem_filterMap]
  constructor
  · rintro ⟨edge, member, kept⟩
    split at kept
    next flows =>
      rw [Bool.and_eq_true, decide_eq_true_iff, beq_iff_eq] at flows
      exact ⟨edge, member, flows.1, Option.some.inj kept, flows.2⟩
    next => cases kept
  · rintro ⟨edge, member, isFlow, starts, ends⟩
    exact ⟨edge, member, by simp [isFlow, starts, ends]⟩

theorem Flow.reaches (flow : graph.Flow source target) : graph.Reaches source target :=
  Relation.ReflTransGen.single flow

/-- What flows into a node that feeds an action feeds it as well. -/
theorem FeedsAction.of_flow
    (feeds : graph.FeedsAction target)
    (flow : graph.Flow source target) :
    graph.FeedsAction source := by
  obtain ⟨action, isAction, reaches⟩ := feeds
  exact ⟨action, isAction, reaches.head flow⟩

theorem mem_compareSources_iff :
    source ∈ graph.compareSources target ↔ graph.Compares source target := by
  unfold compareSources Compares
  rw [List.mem_filterMap]
  constructor
  · rintro ⟨edge, member, kept⟩
    split at kept
    next compares =>
      rw [Bool.and_eq_true, decide_eq_true_iff, beq_iff_eq] at compares
      exact ⟨edge, member, compares.1, Option.some.inj kept, compares.2⟩
    next => cases kept
  · rintro ⟨edge, member, isCompare, starts, ends⟩
    exact ⟨edge, member, by simp [isCompare, starts, ends]⟩

end

/-- A list of nodes in which everything that flows into a node stands behind it. -/
inductive Settled (graph : Graph) : List NodeId -> Prop
  | nil : Settled graph []
  | cons
      {id : NodeId} {rest : List NodeId}
      (parents : ∀ parent, graph.Flow parent id -> parent ∈ rest)
      (settled : Settled graph rest) :
      Settled graph (id :: rest)

namespace Settled

variable {graph : Graph} {order : List NodeId} {id earlier : NodeId}

/-- Whatever flows into a node of a settled list belongs to it. -/
theorem flow_mem
    (settled : graph.Settled order)
    (member : id ∈ order)
    (flow : graph.Flow earlier id) :
    earlier ∈ order := by
  induction settled with
  | nil => cases member
  | @cons first rest parents _ hypothesis =>
      rcases List.mem_cons.1 member with equal | later
      · subst equal
        exact List.mem_cons_of_mem id (parents earlier flow)
      · exact List.mem_cons_of_mem first (hypothesis later)

/-- Whatever reaches a node of a settled list belongs to it. -/
theorem reaches_mem
    (settled : graph.Settled order)
    (member : id ∈ order)
    (reaches : graph.Reaches earlier id) :
    earlier ∈ order := by
  induction reaches using Relation.ReflTransGen.head_induction_on with
  | refl => exact member
  | head flow _ hypothesis => exact settled.flow_mem hypothesis flow

/-- No node of a settled list lies on a flow cycle. -/
theorem not_onFlowCycle
    (settled : graph.Settled order)
    (member : id ∈ order) :
    ¬ graph.OnFlowCycle id := by
  intro cycle
  induction settled with
  | nil => cases member
  | @cons first rest parents settled hypothesis =>
      rcases List.mem_cons.1 member with equal | later
      · subst equal
        -- The last edge of the cycle comes from a node behind, and so does its whole path.
        obtain ⟨parent, path, flow⟩ := Relation.TransGen.tail'_iff.1 cycle
        exact hypothesis (settled.reaches_mem (parents parent flow) path)
      · exact hypothesis later

end Settled
end Graph
end StrategyGraph
