import StrategyGraph.Graph.Flow
import StrategyGraph.Proofs.Graph.Search

/-!
# Visited nodes

Nodes are visited breadth first from the actions, and those visited are exactly the
ones that feed an action. Cycles do no harm to that: whatever flows into a visited
node has been visited before or still waits in the queue, so nothing is left out when
the queue is empty. Where the search for cycles succeeds, it finishes the same nodes.
-/

namespace StrategyGraph
namespace Graph

variable {graph : Graph} {visited queue : List NodeId} {id parent : NodeId}

/-- What flows into a visited node has been visited or waits in the queue. -/
def Covers (graph : Graph) (visited queue : List NodeId) : Prop :=
  ∀ id ∈ visited, ∀ parent, graph.Flow parent id -> parent ∈ visited ∨ parent ∈ queue

namespace Covers

/-- A node that was visited before need not wait. -/
theorem pass
    (covers : graph.Covers visited (id :: queue))
    (seen : id ∈ visited) :
    graph.Covers visited queue := by
  intro other member parent flow
  rcases covers other member parent flow with before | waits
  · exact Or.inl before
  · rcases List.mem_cons.1 waits with rfl | later
    · exact Or.inl seen
    · exact Or.inr later

/-- A node is visited when what flows into it is sent to the queue. -/
theorem visit
    (covers : graph.Covers visited (id :: queue)) :
    graph.Covers (id :: visited) (queue ++ graph.flowParents id) := by
  intro other member parent flow
  rcases List.mem_cons.1 member with rfl | before
  · exact Or.inr (List.mem_append_right queue (mem_flowParents_iff.2 flow))
  · rcases covers other before parent flow with seen | waits
    · exact Or.inl (List.mem_cons_of_mem id seen)
    · rcases List.mem_cons.1 waits with rfl | later
      · exact Or.inl List.mem_cons_self
      · exact Or.inr (List.mem_append_left _ later)

end Covers

/-- Nothing that was visited or waits is left out. -/
theorem mem_visit_of_mem (member : id ∈ visited ∨ id ∈ queue) :
    id ∈ graph.visit visited queue := by
  induction visited, queue using Graph.visit.induct graph with
  | case1 visited =>
      rw [Graph.visit]
      exact member.resolve_right List.not_mem_nil
  | case2 visited first queue seen hypothesis =>
      rw [Graph.visit, if_pos seen]
      refine hypothesis (member.elim Or.inl fun waits => ?_)
      rcases List.mem_cons.1 waits with rfl | later
      · exact Or.inl seen
      · exact Or.inr later
  | case3 visited first queue fresh hypothesis =>
      rw [Graph.visit, if_neg fresh]
      refine hypothesis (member.elim (fun before => ?_) fun waits => ?_)
      · exact Or.inl (List.mem_cons_of_mem first before)
      · rcases List.mem_cons.1 waits with rfl | later
        · exact Or.inl List.mem_cons_self
        · exact Or.inr (List.mem_append_left _ later)

/-- In the end whatever flows into a visited node has been visited. -/
theorem flow_mem_visit
    (covers : graph.Covers visited queue)
    (member : id ∈ graph.visit visited queue)
    (flow : graph.Flow parent id) :
    parent ∈ graph.visit visited queue := by
  induction visited, queue using Graph.visit.induct graph with
  | case1 visited =>
      rw [Graph.visit] at member ⊢
      exact (covers id member parent flow).resolve_right List.not_mem_nil
  | case2 visited first queue seen hypothesis =>
      rw [Graph.visit, if_pos seen] at member ⊢
      exact hypothesis (covers.pass seen) member
  | case3 visited first queue fresh hypothesis =>
      rw [Graph.visit, if_neg fresh] at member ⊢
      exact hypothesis covers.visit member

/-- A visited node was visited before or reaches a node of the queue. -/
theorem exists_reaches_of_mem_visit (member : id ∈ graph.visit visited queue) :
    id ∈ visited ∨ ∃ target ∈ queue, graph.Reaches id target := by
  induction visited, queue using Graph.visit.induct graph with
  | case1 visited =>
      rw [Graph.visit] at member
      exact Or.inl member
  | case2 visited first queue seen hypothesis =>
      rw [Graph.visit, if_pos seen] at member
      refine (hypothesis member).imp_right ?_
      rintro ⟨target, waits, reaches⟩
      exact ⟨target, List.mem_cons_of_mem first waits, reaches⟩
  | case3 visited first queue fresh hypothesis =>
      rw [Graph.visit, if_neg fresh] at member
      rcases hypothesis member with before | ⟨target, waits, reaches⟩
      · rcases List.mem_cons.1 before with rfl | before
        · exact Or.inr ⟨id, List.mem_cons_self, .refl⟩
        · exact Or.inl before
      · rcases List.mem_append.1 waits with later | parent
        · exact Or.inr ⟨target, List.mem_cons_of_mem first later, reaches⟩
        · exact Or.inr ⟨first, List.mem_cons_self, reaches.tail (mem_flowParents_iff.1 parent)⟩

/-- Visiting some nodes visits exactly what reaches one of them. -/
theorem mem_visit_iff {targets : List NodeId} :
    id ∈ graph.visit [] targets ↔ ∃ target ∈ targets, graph.Reaches id target := by
  constructor
  · intro member
    exact (exists_reaches_of_mem_visit member).resolve_left List.not_mem_nil
  · rintro ⟨target, isTarget, reaches⟩
    have covers : graph.Covers [] targets := fun _ none => absurd none List.not_mem_nil
    induction reaches using Relation.ReflTransGen.head_induction_on with
    | refl => exact mem_visit_of_mem (Or.inr isTarget)
    | head flow _ hypothesis => exact flow_mem_visit covers hypothesis flow

/-- The nodes visited from the actions are those that feed an action. -/
theorem mem_visit_actions_iff :
    id ∈ graph.visit [] (graph.actions.map Node.id) ↔ graph.FeedsAction id := by
  rw [mem_visit_iff, FeedsAction, exists_action_iff]

/-- A search that meets no cycle finishes the nodes that are visited. -/
theorem mem_visit_actions_iff_mem_ancestors
    {ancestors : List NodeId}
    (inside : graph.FlowFromNodes)
    (searched : graph.ancestors = .ok ancestors) :
    id ∈ graph.visit [] (graph.actions.map Node.id) ↔ id ∈ ancestors := by
  rw [mem_visit_actions_iff, (settled_ancestors inside searched).2]

end Graph
end StrategyGraph
