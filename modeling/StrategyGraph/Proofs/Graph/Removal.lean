import StrategyGraph.Proofs.Compile.Unfolding
import StrategyGraph.Proofs.Graph.WellFormed

/-!
# Graphs without their idle nodes

Taking the idle nodes out of a well-formed graph, with every edge that touches one, leaves a
well-formed graph: what remains of the flow is all that leads to an action, and a negation
that remains feeds an action, so it keeps its input. Nothing in the remaining graph is idle.
-/

namespace StrategyGraph
namespace Graph

/-- A graph without some nodes and the edges that touch them. -/
def without (graph : Graph) (gone : List NodeId) : Graph where
  nodes := graph.nodes.filter fun node => node.id ∉ gone
  edges := graph.edges.filter fun edge => edge.source ∉ gone ∧ edge.target ∉ gone

section

variable {graph : Graph} {gone : List NodeId}

theorem mem_nodes_without_iff {node : Node} :
    node ∈ (graph.without gone).nodes ↔ node ∈ graph.nodes ∧ node.id ∉ gone := by
  rw [without, List.mem_filter, decide_eq_true_iff]

theorem mem_edges_without_iff {edge : Edge} :
    edge ∈ (graph.without gone).edges ↔
      edge ∈ graph.edges ∧ edge.source ∉ gone ∧ edge.target ∉ gone := by
  rw [without, List.mem_filter, decide_eq_true_iff]

theorem flow_without_iff {source target : NodeId} :
    (graph.without gone).Flow source target ↔
      graph.Flow source target ∧ source ∉ gone ∧ target ∉ gone := by
  constructor
  · rintro ⟨edge, isEdge, flows, rfl, rfl⟩
    obtain ⟨member, stays⟩ := mem_edges_without_iff.1 isEdge
    exact ⟨⟨edge, member, flows, rfl, rfl⟩, stays⟩
  · rintro ⟨⟨edge, member, flows, rfl, rfl⟩, stays⟩
    exact ⟨edge, mem_edges_without_iff.2 ⟨member, stays⟩, flows, rfl, rfl⟩

theorem compares_without_iff {source target : NodeId} :
    (graph.without gone).Compares source target ↔
      graph.Compares source target ∧ source ∉ gone ∧ target ∉ gone := by
  constructor
  · rintro ⟨edge, isEdge, compares, rfl, rfl⟩
    obtain ⟨member, stays⟩ := mem_edges_without_iff.1 isEdge
    exact ⟨⟨edge, member, compares, rfl, rfl⟩, stays⟩
  · rintro ⟨⟨edge, member, compares, rfl, rfl⟩, stays⟩
    exact ⟨edge, mem_edges_without_iff.2 ⟨member, stays⟩, compares, rfl, rfl⟩

/-- No new flow arises. -/
theorem flow_without_le : (graph.without gone).Flow ≤ graph.Flow :=
  fun _ _ flow => (flow_without_iff.1 flow).1

end

section

variable
  {graph : Graph}
  {gone : List NodeId}
  (idle : ∀ id, id ∈ gone ↔ graph.Idle id)
  {id source : NodeId}

include idle

/-- What an action can observe stays. -/
theorem stays_of_reachable (reachable : graph.Reachable id) : id ∉ gone := by
  intro removed
  obtain ⟨node, _, _, _, unreachable, rfl⟩ := (idle id).1 removed
  exact unreachable reachable

theorem stays_of_feedsAction (feeds : graph.FeedsAction id) : id ∉ gone :=
  stays_of_reachable idle (Or.inl feeds)

/-- What remains acts, limits risk or can be observed by an action. -/
theorem reachable_of_stays
    {node : Node}
    (isNode : node ∈ (graph.without gone).nodes)
    (noAction : node.isAction = false)
    (noExit : node.isExit = false) :
    graph.Reachable node.id := by
  obtain ⟨member, stays⟩ := mem_nodes_without_iff.1 isNode
  by_contra unreachable
  exact stays ((idle node.id).2 ⟨node, member, noAction, noExit, unreachable, rfl⟩)

theorem actions_without : (graph.without gone).actions = graph.actions := by
  rw [actions, without, List.filter_filter, actions]
  refine List.filter_congr fun node isNode => ?_
  cases acts : node.isAction with
  | false => rfl
  | true =>
      have feeds : graph.FeedsAction node.id :=
        ⟨node, List.mem_filter.2 ⟨isNode, acts⟩, .refl⟩
      simpa using stays_of_feedsAction idle feeds

/-- The same flow paths lead to actions. -/
theorem feedsAction_without_iff :
    (graph.without gone).FeedsAction id ↔ graph.FeedsAction id := by
  unfold FeedsAction
  rw [actions_without idle]
  refine exists_congr fun action => and_congr_right fun isAction => ?_
  constructor
  · exact Relation.ReflTransGen.mono flow_without_le id action.id
  · intro reaches
    induction reaches using Relation.ReflTransGen.head_induction_on with
    | refl => exact .refl
    | @head first next flow further remains =>
        have feeds : graph.FeedsAction next := ⟨action, isAction, further⟩
        exact remains.head (flow_without_iff.2 ⟨flow,
          stays_of_feedsAction idle (feeds.of_flow flow), stays_of_feedsAction idle feeds⟩)

theorem reachable_without_iff : (graph.without gone).Reachable id ↔ graph.Reachable id := by
  unfold Reachable
  simp only [feedsAction_without_iff idle, compares_without_iff]
  refine or_congr_right (exists_congr fun target => ?_)
  constructor
  · rintro ⟨⟨compares, _⟩, feeds⟩
    exact ⟨compares, feeds⟩
  · rintro ⟨compares, feeds⟩
    have reachable : graph.Reachable id := Or.inr ⟨target, compares, feeds⟩
    exact ⟨⟨compares, stays_of_reachable idle reachable, stays_of_feedsAction idle feeds⟩, feeds⟩

/-- Nothing that remains is idle. -/
theorem not_idle_without : ¬ (graph.without gone).Idle id := by
  rintro ⟨node, isNode, noAction, noExit, unreachable, _⟩
  exact unreachable ((reachable_without_iff idle).2
    (reachable_of_stays idle isNode noAction noExit))

/-- The same nodes flow, in the same order, into what feeds an action. -/
theorem flowParents_without (feeds : graph.FeedsAction id) :
    (graph.without gone).flowParents id = graph.flowParents id := by
  rw [flowParents_eq_map, flowParents_eq_map, without, List.filter_filter]
  refine congrArg _ (List.filter_congr fun edge isEdge => ?_)
  by_cases enters : edge.role = .flow ∧ edge.target = id
  · obtain ⟨flows, rfl⟩ := enters
    have flow : graph.Flow edge.source edge.target := ⟨edge, isEdge, flows, rfl, rfl⟩
    simp [flows, stays_of_feedsAction idle feeds, stays_of_feedsAction idle (feeds.of_flow flow)]
  · simp [enters]

variable (wellFormed : graph.WellFormed)

include wellFormed

theorem exits_without : (graph.without gone).exits = graph.exits := by
  rw [exits, without, List.filter_filter, exits]
  refine List.filter_congr fun node isNode => ?_
  cases limits : node.isExit with
  | false => rfl
  | true =>
      have stays : node.id ∉ gone := by
        intro removed
        obtain ⟨other, isOther, _, noExit, _, same⟩ := (idle node.id).1 removed
        rw [List.inj_on_of_nodup_map wellFormed.distinct isOther isNode same, limits] at noExit
        cases noExit
      simpa using stays

/-- Without its idle nodes, a well-formed graph is well-formed. -/
theorem WellFormed.without : (graph.without gone).WellFormed where
  distinct := wellFormed.distinct.sublist (List.filter_sublist.map Node.id)
  acts := by
    obtain ⟨node, isNode, acts⟩ := wellFormed.acts
    have isAction : node ∈ (graph.without gone).actions :=
      actions_without idle ▸ List.mem_filter.2 ⟨isNode, acts⟩
    exact ⟨node, List.mem_of_mem_filter isAction, acts⟩
  endpoints := by
    intro edge isEdge
    obtain ⟨member, sourceStays, targetStays⟩ := mem_edges_without_iff.1 isEdge
    obtain ⟨sourceNode, targetNode⟩ := wellFormed.endpoints edge member
    have nodeStays {id : NodeId} (isNode : id ∈ graph.nodeIds) (stays : id ∉ gone) :
        id ∈ (graph.without gone).nodeIds := by
      obtain ⟨node, member, rfl⟩ := List.mem_map.1 isNode
      exact List.mem_map_of_mem (mem_nodes_without_iff.2 ⟨member, stays⟩)
    exact ⟨nodeStays sourceNode sourceStays, nodeStays targetNode targetStays⟩
  exitsApart := fun edge isEdge node isNode =>
    wellFormed.exitsApart edge (mem_edges_without_iff.1 isEdge).1 node
      (mem_nodes_without_iff.1 isNode).1
  actionsLast := fun edge isEdge flows node isNode =>
    wellFormed.actionsLast edge (mem_edges_without_iff.1 isEdge).1 flows node
      (mem_nodes_without_iff.1 isNode).1
  compareConditions := fun edge isEdge compares node isNode =>
    wellFormed.compareConditions edge (mem_edges_without_iff.1 isEdge).1 compares node
      (mem_nodes_without_iff.1 isNode).1
  compareOnce :=
    wellFormed.compareOnce.sublist ((List.filter_sublist.filter _).map Edge.target)
  acyclic := fun id feeds cycle =>
    wellFormed.acyclic id ((feedsAction_without_iff idle).1 feeds)
      (Relation.TransGen.mono flow_without_le id id cycle)
  negations := by
    intro node isNode negates
    have member := (mem_nodes_without_iff.1 isNode).1
    -- A negation cannot be compared with, so an action observes it only by being fed.
    have feeds : graph.FeedsAction node.id := by
      rcases reachable_of_stays idle isNode (by rw [Node.isAction, negates])
        (by rw [Node.isExit, negates]) with feeds | ⟨_, ⟨edge, isEdge, compares, same, _⟩, _⟩
      · exact feeds
      · have isCondition :=
          wellFormed.compareConditions edge isEdge compares node member (Or.inl same)
        rw [Node.isCondition, Node.condition?, negates] at isCondition
        cases isCondition
    have inputs := congrArg List.length (flowParents_without idle feeds)
    rw [flowParents_eq_map, flowParents_eq_map, List.length_map, List.length_map] at inputs
    exact inputs.trans (wellFormed.negations node member negates)
  parameters := fun node isNode =>
    wellFormed.parameters node (mem_nodes_without_iff.1 isNode).1

/-- What remains is found as before. -/
theorem node_without (stays : id ∉ gone) : (graph.without gone).node? id = graph.node? id := by
  ext node
  rw [node_eq_some_iff (wellFormed.without idle).distinct, node_eq_some_iff wellFormed.distinct,
    mem_nodes_without_iff]
  constructor
  · rintro ⟨⟨isNode, _⟩, same⟩
    exact ⟨isNode, same⟩
  · rintro ⟨isNode, rfl⟩
    exact ⟨⟨isNode, stays⟩, rfl⟩

theorem kind_without (feeds : graph.FeedsAction id) :
    (graph.without gone).kind? id = graph.kind? id := by
  rw [kind?, kind?, node_without idle wellFormed (stays_of_feedsAction idle feeds)]

/-- What feeds an action compares with the same as before. -/
theorem compareInput_without (feeds : graph.FeedsAction id) :
    (graph.without gone).compareInput? id = graph.compareInput? id := by
  ext source
  rw [compareInput_eq_some_iff (wellFormed.without idle).compareOnce,
    compareInput_eq_some_iff wellFormed.compareOnce, compares_without_iff]
  constructor
  · exact And.left
  · intro compares
    have reachable : graph.Reachable source := Or.inr ⟨id, compares, feeds⟩
    exact ⟨compares, stays_of_reachable idle reachable, stays_of_feedsAction idle feeds⟩

theorem operand_without (feeds : graph.FeedsAction id) :
    (graph.without gone).operand id = graph.operand id := by
  funext condition
  rw [operand, operand, compareInput_without idle wellFormed feeds]
  cases compared : graph.compareInput? id with
  | none => rfl
  | some source =>
      have compares := (compareInput_eq_some_iff wellFormed.compareOnce).1 compared
      have reachable : graph.Reachable source := Or.inr ⟨id, compares, feeds⟩
      dsimp only
      rw [node_without idle wellFormed (stays_of_reachable idle reachable)]

end

end Graph
end StrategyGraph
