import StrategyGraph.Graph.Flow
import StrategyGraph.Proofs.Graph.Reachability
import StrategyGraph.Proofs.Outcome

/-!
# The search for ancestors

The depth-first search from the actions succeeds exactly when no node that feeds
an action lies on a flow cycle. It then finds the nodes that feed an action, each
in front of everything that flows into it; otherwise it names a node that feeds
an action and lies on a cycle.
-/

namespace StrategyGraph
namespace Graph

/-- All flow comes from nodes of the graph. -/
def FlowFromNodes (graph : Graph) : Prop :=
  ∀ source target, graph.Flow source target -> source ∈ graph.nodeIds

/-- What a search back from some nodes adds to the finished ones: the nodes
themselves and nothing but what reaches them, in a settled order. -/
structure Finds (graph : Graph) (finished targets found : List NodeId) : Prop where
  settled : graph.Settled finished -> graph.Settled found
  keeps : ∀ id ∈ finished, id ∈ found
  includes : ∀ id ∈ targets, id ∈ found
  only : ∀ id ∈ found, id ∈ finished ∨ ∃ target ∈ targets, graph.Reaches id target

/-- A node on a cycle that reaches one of the nodes searched from. -/
def CyclesInto (graph : Graph) (targets : List NodeId) (id : NodeId) : Prop :=
  graph.OnFlowCycle id ∧ ∃ target ∈ targets, graph.Reaches id target

/-- Searches from several nodes, one after the other, add up. -/
theorem finds_of_foldlM
    {graph : Graph}
    {step : List NodeId -> NodeId -> Except NodeId (List NodeId)}
    {targets finished found : List NodeId}
    (finds : ∀ target ∈ targets, ∀ before after, step before target = .ok after ->
      graph.Finds before [target] after)
    (folded : targets.foldlM step finished = .ok found) :
    graph.Finds finished targets found := by
  induction targets generalizing finished with
  | nil =>
      cases folded
      exact ⟨id, fun _ member => member, fun _ none => absurd none List.not_mem_nil,
        fun _ member => Or.inl member⟩
  | cons target targets hypothesis =>
      rw [List.foldlM_cons] at folded
      obtain ⟨between, stepped, remaining⟩ := Outcome.bind_eq_ok_iff.1 folded
      have first := finds target List.mem_cons_self finished between stepped
      have rest := hypothesis
        (fun other member => finds other (List.mem_cons_of_mem target member)) remaining
      refine ⟨fun settled => rest.settled (first.settled settled),
        fun id member => rest.keeps id (first.keeps id member), fun id member => ?_,
        fun id member => ?_⟩
      · rcases List.mem_cons.1 member with equal | later
        · exact rest.keeps id (first.includes id (List.mem_singleton.2 equal))
        · exact rest.includes id later
      · rcases rest.only id member with before | ⟨other, later, reaches⟩
        · rcases first.only id before with old | ⟨other, single, reaches⟩
          · exact Or.inl old
          · have equal := List.mem_singleton.1 single
            exact Or.inr ⟨target, List.mem_cons_self, equal ▸ reaches⟩
        · exact Or.inr ⟨other, List.mem_cons_of_mem target later, reaches⟩

/-- A pass over several nodes fails at one of them. -/
theorem exists_error_of_foldlM
    {step : State -> Item -> Except Fault State}
    {items : List Item}
    {state : State}
    {fault : Fault}
    (folded : items.foldlM step state = .error fault) :
    ∃ item ∈ items, ∃ before, step before item = .error fault := by
  induction items generalizing state with
  | nil => cases folded
  | cons item items hypothesis =>
      rw [List.foldlM_cons] at folded
      rcases Outcome.bind_eq_error_iff.1 folded with failed | ⟨between, _, remaining⟩
      · exact ⟨item, List.mem_cons_self, state, failed⟩
      · obtain ⟨other, member, before, failed⟩ := hypothesis remaining
        exact ⟨other, List.mem_cons_of_mem item member, before, failed⟩

/-- A successful search finds the node it starts from. -/
theorem finds_of_search
    {graph : Graph}
    (inside : graph.FlowFromNodes)
    {path finished found : List NodeId}
    {id : NodeId}
    (isNode : id ∈ graph.nodeIds)
    (searched : graph.search path finished id = .ok found) :
    graph.Finds finished [id] found := by
  induction path, finished, id using Graph.search.induct graph generalizing found with
  | case1 path finished id done =>
      rw [search, if_pos done] at searched
      cases searched
      exact ⟨fun settled => settled, fun _ member => member,
        fun other single => List.mem_singleton.1 single ▸ done,
        fun _ member => Or.inl member⟩
  | case2 path finished id fresh onPath =>
      rw [search, if_neg fresh, dif_pos onPath] at searched
      cases searched
  | case3 path finished id fresh offPath _ _ hypothesis =>
      rw [search, if_neg fresh, dif_neg offPath, dif_pos isNode] at searched
      obtain ⟨between, folded, equal⟩ := Outcome.bind_eq_ok_iff.1 searched
      cases equal
      have parents : graph.Finds finished (graph.flowParents id) between := by
        refine finds_of_foldlM (fun parent member before after stepped => ?_) folded
        have flow := mem_flowParents_iff.1 member
        exact hypothesis before parent (inside parent id flow) stepped
      refine ⟨fun settled => ?_, fun other member => ?_, fun other single => ?_,
        fun other member => ?_⟩
      · refine .cons (fun parent flow => ?_) (parents.settled settled)
        exact parents.includes parent (mem_flowParents_iff.2 flow)
      · exact List.mem_cons_of_mem id (parents.keeps other member)
      · exact List.mem_singleton.1 single ▸ List.mem_cons_self
      · rcases List.mem_cons.1 member with equal | later
        · exact Or.inr ⟨id, List.mem_cons_self, equal ▸ Relation.ReflTransGen.refl⟩
        · rcases parents.only other later with old | ⟨parent, flows, reaches⟩
          · exact Or.inl old
          · exact Or.inr ⟨id, List.mem_cons_self,
              reaches.tail (mem_flowParents_iff.1 flows)⟩
  | case4 path finished id fresh offPath notNode => exact absurd isNode notNode

/-- A failed search names a node on a cycle from which its own start is reached,
provided that the start reaches all of the path. -/
theorem cyclesInto_of_search
    {graph : Graph}
    {path finished : List NodeId}
    {id culprit : NodeId}
    (leads : ∀ later ∈ path, Relation.TransGen graph.Flow id later)
    (searched : graph.search path finished id = .error culprit) :
    graph.CyclesInto [id] culprit := by
  induction path, finished, id using Graph.search.induct graph with
  | case1 path finished id done =>
      rw [search, if_pos done] at searched
      cases searched
  | case2 path finished id fresh onPath =>
      rw [search, if_neg fresh, dif_pos onPath] at searched
      cases searched
      exact ⟨leads culprit onPath, culprit, List.mem_cons_self, Relation.ReflTransGen.refl⟩
  | case3 path finished id fresh offPath isNode _ hypothesis =>
      rw [search, if_neg fresh, dif_neg offPath, dif_pos isNode] at searched
      rcases Outcome.bind_eq_error_iff.1 searched with folded | ⟨_, _, impossible⟩
      · obtain ⟨parent, member, before, failed⟩ := exists_error_of_foldlM folded
        have flow : graph.Flow parent id := mem_flowParents_iff.1 member
        have extended : ∀ later ∈ id :: path, Relation.TransGen graph.Flow parent later := by
          intro later onPath
          rcases List.mem_cons.1 onPath with equal | old
          · exact equal ▸ Relation.TransGen.single flow
          · exact Relation.TransGen.head flow (leads later old)
        obtain ⟨cycle, target, single, reaches⟩ := hypothesis before parent extended failed
        have equal := List.mem_singleton.1 single
        exact ⟨cycle, id, List.mem_cons_self, (equal ▸ reaches).tail flow⟩
      · cases impossible
  | case4 path finished id fresh offPath notNode =>
      rw [search, if_neg fresh, dif_neg offPath, dif_neg notNode] at searched
      cases searched

/-- Actions are searched one after the other. -/
theorem ancestors_eq_foldlM (graph : Graph) :
    graph.ancestors = (graph.actions.map Node.id).foldlM (graph.search []) [] := by
  rw [ancestors, List.foldlM_map]

theorem exists_action_iff
    {graph : Graph}
    {holds : NodeId -> Prop} :
    (∃ target ∈ graph.actions.map Node.id, holds target) ↔
      ∃ action ∈ graph.actions, holds action.id := by
  constructor
  · rintro ⟨target, member, holding⟩
    obtain ⟨action, isAction, equal⟩ := List.mem_map.1 member
    exact ⟨action, isAction, equal ▸ holding⟩
  · rintro ⟨action, isAction, holding⟩
    exact ⟨action.id, List.mem_map_of_mem isAction, holding⟩

/-- A successful search lists the nodes that feed an action, in a settled order. -/
theorem settled_ancestors
    {graph : Graph}
    {ancestors : List NodeId}
    (inside : graph.FlowFromNodes)
    (searched : graph.ancestors = .ok ancestors) :
    graph.Settled ancestors ∧ ∀ id, id ∈ ancestors ↔ graph.FeedsAction id := by
  rw [ancestors_eq_foldlM] at searched
  have finds : graph.Finds [] (graph.actions.map Node.id) ancestors := by
    refine finds_of_foldlM (fun target member before after stepped => ?_) searched
    obtain ⟨action, isAction, equal⟩ := List.mem_map.1 member
    have isNode : target ∈ graph.nodeIds :=
      equal ▸ List.mem_map_of_mem (List.mem_of_mem_filter isAction)
    exact finds_of_search inside isNode stepped
  have settled := finds.settled .nil
  refine ⟨settled, fun id => ?_⟩
  rw [FeedsAction, ← exists_action_iff]
  constructor
  · intro member
    exact (finds.only id member).resolve_left List.not_mem_nil
  · rintro ⟨target, member, reaches⟩
    exact settled.reaches_mem (finds.includes target member) reaches

/-- A failed search names a node that feeds an action and lies on a cycle. -/
theorem feedsAction_of_ancestors
    {graph : Graph}
    {culprit : NodeId}
    (searched : graph.ancestors = .error culprit) :
    graph.OnFlowCycle culprit ∧ graph.FeedsAction culprit := by
  rw [ancestors_eq_foldlM] at searched
  obtain ⟨target, member, before, failed⟩ := exists_error_of_foldlM searched
  obtain ⟨cycle, other, single, reaches⟩ :=
    cyclesInto_of_search (fun _ none => absurd none List.not_mem_nil) failed
  have equal := List.mem_singleton.1 single
  exact ⟨cycle, exists_action_iff.1 ⟨target, member, equal ▸ reaches⟩⟩

/-- The search succeeds exactly when no node that feeds an action lies on a flow
cycle. -/
theorem ancestors_ok_iff
    {graph : Graph}
    (inside : graph.FlowFromNodes) :
    (∃ ancestors, graph.ancestors = .ok ancestors) ↔
      ∀ id, graph.FeedsAction id -> ¬ graph.OnFlowCycle id := by
  constructor
  · rintro ⟨ancestors, searched⟩ id feeds
    obtain ⟨settled, complete⟩ := settled_ancestors inside searched
    exact settled.not_onFlowCycle ((complete id).2 feeds)
  · intro acyclic
    cases searched : graph.ancestors with
    | ok ancestors => exact ⟨ancestors, rfl⟩
    | error culprit =>
        obtain ⟨cycle, feeds⟩ := feedsAction_of_ancestors searched
        exact absurd cycle (acyclic culprit feeds)

end Graph
end StrategyGraph
