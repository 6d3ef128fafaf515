import Mathlib.Data.List.Nodup
import StrategyGraph.Proofs.Graph.Identity
import StrategyGraph.Proofs.Graph.Parameters
import StrategyGraph.Proofs.Graph.Visit

/-!
# Well-formed graphs

What a graph has to satisfy to be compiled, said about its nodes, edges and flow
paths and without any order of checks. Validation accepts exactly the graphs that
satisfy it, and what it keeps of an accepted graph is what the edges say.
-/

namespace StrategyGraph

/-- An edge between two nodes is allowed exactly when neither is an exit, a flow
edge does not leave an action, and a compare edge connects conditions. -/
theorem edgeFault_eq_none_iff {role : EdgeRole} {source target : Node} :
    edgeFault? role source target = none ↔
      source.isExit = false ∧ target.isExit = false ∧
        (role = .flow -> source.isAction = false) ∧
        (role = .compareInput -> source.isCondition = true ∧ target.isCondition = true) := by
  unfold edgeFault?
  cases source.isExit <;> cases target.isExit <;> cases role <;>
    cases source.isAction <;> cases source.isCondition <;> cases target.isCondition <;> simp

namespace Graph

/-- Targets of the compare edges in a list, in order. -/
def compareTargets (edges : List Edge) : List NodeId :=
  (edges.filter fun edge => edge.role = .compareInput).map Edge.target

/-- What a graph has to satisfy to be compiled. -/
structure WellFormed (graph : Graph) : Prop where
  /-- Identities of nodes are distinct. -/
  distinct : graph.nodeIds.Nodup
  /-- There is something to do. -/
  acts : ∃ node ∈ graph.nodes, node.isAction = true
  /-- Edges connect nodes. -/
  endpoints : ∀ edge ∈ graph.edges,
    edge.source ∈ graph.nodeIds ∧ edge.target ∈ graph.nodeIds
  /-- No edge touches an exit. -/
  exitsApart : ∀ edge ∈ graph.edges, ∀ node ∈ graph.nodes, node.isExit = true ->
    edge.source ≠ node.id ∧ edge.target ≠ node.id
  /-- No flow edge leaves an action. -/
  actionsLast : ∀ edge ∈ graph.edges, edge.role = .flow ->
    ∀ node ∈ graph.nodes, node.isAction = true -> edge.source ≠ node.id
  /-- Compare edges connect conditions. -/
  compareConditions : ∀ edge ∈ graph.edges, edge.role = .compareInput ->
    ∀ node ∈ graph.nodes, edge.source = node.id ∨ edge.target = node.id ->
      node.isCondition = true
  /-- A condition compares with one other node at most. -/
  compareOnce : (compareTargets graph.edges).Nodup
  /-- Nothing that feeds an action lies on a flow cycle. -/
  acyclic : ∀ id, graph.FeedsAction id -> ¬ graph.OnFlowCycle id
  /-- A negation has one input. -/
  negations : ∀ node ∈ graph.nodes, node.kind = .gate .not ->
    (graph.edges.filter fun edge => edge.role = .flow ∧ edge.target = node.id).length = 1
  /-- All parameters are in range. -/
  parameters : ∀ node ∈ graph.nodes, node.InRange

variable {graph : Graph}

theorem checkActions_eq_ok_iff :
    graph.checkActions = .ok () ↔ ∃ node ∈ graph.nodes, node.isAction = true := by
  unfold checkActions
  rw [← List.any_eq_true]
  cases graph.nodes.any Node.isAction <;> simp

theorem checkEndpoints_eq_ok_iff :
    graph.checkEndpoints = .ok () ↔
      ∀ edge ∈ graph.edges, edge.source ∈ graph.nodeIds ∧ edge.target ∈ graph.nodeIds := by
  unfold checkEndpoints
  rw [Outcome.forM_eq_ok_iff]
  refine forall₂_congr fun edge member => ?_
  rw [← isSome_node_iff, ← isSome_node_iff]
  cases (graph.node? edge.source).isSome <;> cases (graph.node? edge.target).isSome <;> simp

/-- The ends of an edge are nodes between which it is allowed. -/
def AllowsEdge (graph : Graph) (edge : Edge) : Prop :=
  ∃ source target, graph.node? edge.source = some source ∧
    graph.node? edge.target = some target ∧ edgeFault? edge.role source target = none

/-- The first edge passes if it is allowed and, for a compare edge, its target is
not compared before. -/
theorem checkEdges_cons_eq_ok_iff
    {compared : List NodeId}
    {edge : Edge}
    {edges : List Edge} :
    graph.checkEdges compared (edge :: edges) = .ok () ↔
      graph.AllowsEdge edge ∧
        (edge.role = .flow ∧ graph.checkEdges compared edges = .ok () ∨
          edge.role = .compareInput ∧ edge.target ∉ compared ∧
            graph.checkEdges (edge.target :: compared) edges = .ok ()) := by
  rw [checkEdges, AllowsEdge]
  split
  next source target sourceFound targetFound =>
    rw [sourceFound, targetFound]
    split
    next fault faulty => simp [faulty]
    next faultless =>
      split
      next flows => simp [flows, flows ▸ faultless]
      next compares =>
        by_cases before : edge.target ∈ compared
        · simp [compares, before]
        · simp [compares, before, compares ▸ faultless]
  next missing =>
    constructor
    · intro refused
      cases refused
    · rintro ⟨⟨source, target, sourceFound, targetFound, _⟩, _⟩
      exact (missing source target sourceFound targetFound).elim

theorem compareTargets_of_flow
    {edge : Edge}
    (flows : edge.role = .flow)
    (edges : List Edge) :
    compareTargets (edge :: edges) = compareTargets edges := by
  simp [compareTargets, flows]

theorem compareTargets_of_compare
    {edge : Edge}
    (compares : edge.role = .compareInput)
    (edges : List Edge) :
    compareTargets (edge :: edges) = edge.target :: compareTargets edges := by
  simp [compareTargets, compares]

/-- Edges pass their check exactly when each is allowed and no target is compared
twice. -/
theorem checkEdges_eq_ok_iff {compared : List NodeId} {edges : List Edge} :
    graph.checkEdges compared edges = .ok () ↔
      (∀ edge ∈ edges, graph.AllowsEdge edge) ∧ (compareTargets edges).Nodup ∧
        ∀ target ∈ compareTargets edges, target ∉ compared := by
  induction edges generalizing compared with
  | nil => simp [checkEdges, compareTargets]
  | cons edge edges hypothesis =>
      rw [checkEdges_cons_eq_ok_iff, List.forall_mem_cons, hypothesis, hypothesis]
      cases role : edge.role with
      | flow =>
          rw [compareTargets_of_flow role]
          simp [and_assoc]
      | compareInput =>
          rw [compareTargets_of_compare role, List.nodup_cons, List.forall_mem_cons]
          constructor
          · rintro ⟨allowed, ⟨flows, _⟩ | ⟨_, fresh, others, distinct, unseen⟩⟩
            · cases flows
            · refine ⟨⟨allowed, others⟩, ⟨fun again => ?_, distinct⟩, fresh, ?_⟩
              · exact unseen edge.target again List.mem_cons_self
              · intro target member before
                exact unseen target member (List.mem_cons_of_mem edge.target before)
          · rintro ⟨⟨allowed, others⟩, ⟨single, distinct⟩, fresh, unseen⟩
            refine ⟨allowed, Or.inr ⟨rfl, fresh, others, distinct, ?_⟩⟩
            intro target member seen
            rcases List.mem_cons.1 seen with equal | before
            · exact single (equal ▸ member)
            · exact unseen target member before

theorem checkCycles_eq_ok_iff {ancestors : List NodeId} :
    graph.checkCycles = .ok ancestors ↔ graph.ancestors = .ok ancestors := by
  unfold checkCycles
  cases graph.ancestors <;> simp

theorem checkNegations_eq_ok_iff :
    graph.checkNegations = .ok () ↔
      ∀ node ∈ graph.nodes, node.kind = .gate .not ->
        (graph.flowParents node.id).length = 1 := by
  unfold checkNegations
  rw [Outcome.forM_eq_ok_iff]
  refine forall₂_congr fun node member => ?_
  by_cases negates : node.kind = .gate .not
  · by_cases single : (graph.flowParents node.id).length = 1 <;> simp [negates, single]
  · simp [negates]

theorem checkNodes_eq_ok_iff :
    graph.checkNodes = .ok () ↔ ∀ node ∈ graph.nodes, node.InRange := by
  unfold checkNodes
  rw [Outcome.forM_eq_ok_iff]
  exact forall₂_congr fun node _ => node.check_eq_ok_iff

/-- The checks taken together, with the nodes they return. -/
theorem check_eq_ok_iff {reachable : List NodeId} :
    graph.check = .ok reachable ↔
      graph.checkIdentities = .ok () ∧ graph.checkActions = .ok () ∧
        graph.checkEndpoints = .ok () ∧ graph.checkEdges [] graph.edges = .ok () ∧
        (∃ ancestors, graph.ancestors = .ok ancestors) ∧ graph.checkNegations = .ok () ∧
        graph.checkNodes = .ok () ∧ graph.reachableNodes = reachable := by
  unfold check
  rw [Outcome.check_then_eq_ok_iff, Outcome.check_then_eq_ok_iff,
    Outcome.check_then_eq_ok_iff, Outcome.check_then_eq_ok_iff, Outcome.bind_eq_ok_iff]
  refine and_congr_right' (and_congr_right' (and_congr_right' (and_congr_right' ?_)))
  constructor
  · rintro ⟨ancestors, searched, remaining⟩
    obtain ⟨negations, nodes⟩ := Outcome.check_then_eq_ok_iff.1 remaining
    obtain ⟨checked, equal⟩ := Outcome.check_then_eq_ok_iff.1 nodes
    exact ⟨⟨ancestors, checkCycles_eq_ok_iff.1 searched⟩, negations, checked,
      Except.ok.inj equal⟩
  · rintro ⟨⟨ancestors, searched⟩, negations, checked, rfl⟩
    exact ⟨ancestors, checkCycles_eq_ok_iff.2 searched, Outcome.check_then_eq_ok_iff.2
      ⟨negations, Outcome.check_then_eq_ok_iff.2 ⟨checked, rfl⟩⟩⟩

/-- No target is compared twice, so a compare input is the source of the compare
edge there is. -/
theorem compareInput_eq_some_iff
    (once : (compareTargets graph.edges).Nodup)
    {id source : NodeId} :
    graph.compareInput? id = some source ↔ graph.Compares source id := by
  rw [← mem_compareSources_iff]
  unfold compareInput?
  constructor
  · intro first
    exact List.mem_of_mem_head? first
  · intro member
    obtain ⟨first, found⟩ :=
      Option.isSome_iff_exists.1 (List.isSome_head?.2 (List.ne_nil_of_mem member))
    obtain ⟨edge, isEdge, compares, leaves, into⟩ := mem_compareSources_iff.1 member
    obtain ⟨other, otherEdge, otherCompares, otherLeaves, otherInto⟩ :=
      mem_compareSources_iff.1 (List.mem_of_mem_head? found)
    have same : edge = other := by
      refine List.inj_on_of_nodup_map once ?_ ?_ (into.trans otherInto.symm)
      · exact List.mem_filter.2 ⟨isEdge, decide_eq_true compares⟩
      · exact List.mem_filter.2 ⟨otherEdge, decide_eq_true otherCompares⟩
    rw [found, ← leaves, ← otherLeaves, same]

/-- With distinct identities there is one node of an identity. -/
theorem eq_of_node
    (distinct : graph.nodeIds.Nodup)
    {id : NodeId}
    {node found : Node}
    (isNode : graph.node? id = some found)
    (member : node ∈ graph.nodes)
    (identity : id = node.id) :
    node = found := by
  have same : graph.node? id = some node := identity ▸ node_of_mem distinct member
  exact Option.some.inj (same.symm.trans isNode)

/-- Between nodes of a graph an edge is allowed exactly when the ends it touches
have the kinds it needs. -/
theorem allowsEdge_iff
    (distinct : graph.nodeIds.Nodup)
    {edge : Edge}
    (ends : edge.source ∈ graph.nodeIds ∧ edge.target ∈ graph.nodeIds) :
    graph.AllowsEdge edge ↔
      (∀ node ∈ graph.nodes, node.isExit = true ->
        edge.source ≠ node.id ∧ edge.target ≠ node.id) ∧
      (edge.role = .flow ->
        ∀ node ∈ graph.nodes, node.isAction = true -> edge.source ≠ node.id) ∧
      (edge.role = .compareInput ->
        ∀ node ∈ graph.nodes, edge.source = node.id ∨ edge.target = node.id ->
          node.isCondition = true) := by
  constructor
  · rintro ⟨source, target, sourceFound, targetFound, faultless⟩
    obtain ⟨sourceStays, targetStays, flows, compares⟩ := edgeFault_eq_none_iff.1 faultless
    refine ⟨fun node member exits => ⟨fun leaves => ?_, fun enters => ?_⟩, ?_, ?_⟩
    · rw [eq_of_node distinct sourceFound member leaves, sourceStays] at exits
      cases exits
    · rw [eq_of_node distinct targetFound member enters, targetStays] at exits
      cases exits
    · intro isFlow node member acts leaves
      rw [eq_of_node distinct sourceFound member leaves, flows isFlow] at acts
      cases acts
    · intro isCompare node member touches
      rcases touches with leaves | enters
      · rw [eq_of_node distinct sourceFound member leaves]
        exact (compares isCompare).1
      · rw [eq_of_node distinct targetFound member enters]
        exact (compares isCompare).2
  · rintro ⟨exitsApart, actionsLast, compareConditions⟩
    obtain ⟨source, sourceFound⟩ := Option.isSome_iff_exists.1 (isSome_node_iff.2 ends.1)
    obtain ⟨target, targetFound⟩ := Option.isSome_iff_exists.1 (isSome_node_iff.2 ends.2)
    obtain ⟨sourceMember, sourceIdentity⟩ := mem_of_node sourceFound
    obtain ⟨targetMember, targetIdentity⟩ := mem_of_node targetFound
    refine ⟨source, target, sourceFound, targetFound,
      edgeFault_eq_none_iff.2 ⟨?_, ?_, fun isFlow => ?_, fun isCompare => ⟨?_, ?_⟩⟩⟩
    · rw [Bool.eq_false_iff]
      exact fun exits => (exitsApart source sourceMember exits).1 sourceIdentity.symm
    · rw [Bool.eq_false_iff]
      exact fun exits => (exitsApart target targetMember exits).2 targetIdentity.symm
    · rw [Bool.eq_false_iff]
      exact fun acts => actionsLast isFlow source sourceMember acts sourceIdentity.symm
    · exact compareConditions isCompare source sourceMember (Or.inl sourceIdentity.symm)
    · exact compareConditions isCompare target targetMember (Or.inr targetIdentity.symm)

/-- Between edges that connect nodes, all flow comes from nodes. -/
theorem flowFromNodes_of_endpoints
    (endpoints : ∀ edge ∈ graph.edges,
      edge.source ∈ graph.nodeIds ∧ edge.target ∈ graph.nodeIds) :
    graph.FlowFromNodes := by
  rintro source target ⟨edge, member, _, leaves, _⟩
  exact leaves ▸ (endpoints edge member).1

/-- A checked graph is well-formed. -/
theorem wellFormed_of_check
    {reachable : List NodeId}
    (checked : graph.check = .ok reachable) :
    graph.WellFormed := by
  obtain ⟨identities, actions, ends, edges, searched, negations, nodes, _⟩ :=
    check_eq_ok_iff.1 checked
  have distinct := checkIdentities_eq_ok_iff.1 identities
  have endpoints := checkEndpoints_eq_ok_iff.1 ends
  obtain ⟨allowed, once, _⟩ := checkEdges_eq_ok_iff.1 edges
  have roles := fun edge member =>
    (allowsEdge_iff distinct (endpoints edge member)).1 (allowed edge member)
  exact {
    distinct
    acts := checkActions_eq_ok_iff.1 actions
    endpoints
    exitsApart := fun edge member => (roles edge member).1
    actionsLast := fun edge member => (roles edge member).2.1
    compareConditions := fun edge member => (roles edge member).2.2
    compareOnce := once
    acyclic :=
      (ancestors_ok_iff (flowFromNodes_of_endpoints endpoints)).1 searched
    negations := fun node member negates => by
      have single := checkNegations_eq_ok_iff.1 negations node member negates
      rwa [flowParents_eq_map, List.length_map] at single
    parameters := checkNodes_eq_ok_iff.1 nodes }

/-- A well-formed graph passes its checks. -/
theorem WellFormed.exists_check
    (wellFormed : graph.WellFormed) :
    ∃ reachable, graph.check = .ok reachable := by
  have inside := flowFromNodes_of_endpoints wellFormed.endpoints
  have searched := (ancestors_ok_iff inside).2 wellFormed.acyclic
  have allowed : ∀ edge ∈ graph.edges, graph.AllowsEdge edge := by
    intro edge member
    exact (allowsEdge_iff wellFormed.distinct (wellFormed.endpoints edge member)).2
      ⟨wellFormed.exitsApart edge member, wellFormed.actionsLast edge member,
        wellFormed.compareConditions edge member⟩
  have negations : graph.checkNegations = .ok () := by
    refine checkNegations_eq_ok_iff.2 fun node member negates => ?_
    rw [flowParents_eq_map, List.length_map]
    exact wellFormed.negations node member negates
  refine ⟨_, check_eq_ok_iff.2 ⟨?_, ?_, ?_, ?_, searched, negations, ?_, rfl⟩⟩
  · exact checkIdentities_eq_ok_iff.2 wellFormed.distinct
  · exact checkActions_eq_ok_iff.2 wellFormed.acts
  · exact checkEndpoints_eq_ok_iff.2 wellFormed.endpoints
  · exact checkEdges_eq_ok_iff.2
      ⟨allowed, wellFormed.compareOnce, fun _ _ => List.not_mem_nil⟩
  · exact checkNodes_eq_ok_iff.2 wellFormed.parameters

/-- Where no target is compared twice, the reachable nodes are those that feed an action and
those that they compare with. -/
theorem mem_reachableNodes_iff
    (once : (compareTargets graph.edges).Nodup)
    {id : NodeId} :
    id ∈ graph.reachableNodes ↔ graph.Reachable id := by
  rw [reachableNodes, List.mem_append, List.mem_filterMap, mem_visit_actions_iff, Reachable]
  refine or_congr_right (exists_congr fun target => ?_)
  rw [mem_visit_actions_iff, compareInput_eq_some_iff once, and_comm]

end Graph

/-- The nodes that validation remembers are the reachable ones. -/
theorem ValidGraph.isReachable_iff {valid : ValidGraph} {id : NodeId} :
    valid.isReachable id = true ↔ valid.graph.Reachable id := by
  have once := (Graph.wellFormed_of_check valid.checked).compareOnce
  obtain ⟨_, _, _, _, _, _, _, remembered⟩ := Graph.check_eq_ok_iff.1 valid.checked
  rw [isReachable, List.contains_iff_mem, ← remembered, Graph.mem_reachableNodes_iff once]

namespace Graph

variable {graph : Graph}

/-- Validation succeeds exactly when the checks do. -/
theorem validate_eq_ok_iff {valid : ValidGraph} :
    graph.validate = .ok valid ↔ valid.graph = graph := by
  unfold validate
  split
  next reachable checked =>
    obtain ⟨other, otherReachable, otherChecked⟩ := valid
    constructor
    · intro equal
      exact congrArg ValidGraph.graph (Except.ok.inj equal).symm
    · intro equal
      cases equal
      cases checked.symm.trans otherChecked
      rfl
  next error refused =>
    constructor
    · intro impossible
      cases impossible
    · intro equal
      have checked := valid.checked
      rw [equal, refused] at checked
      cases checked

/-- Validation accepts exactly the well-formed graphs. Of an accepted graph it
knows the sources of the flow edges into a node in edge order, the source of the
compare edge into it, and the nodes that feed an action along flow edges or are
compared with by one that does. -/
theorem validate_accepts_wellFormed (graph : Graph) :
    ((∃ valid, graph.validate = .ok valid) ↔ graph.WellFormed) ∧
      ∀ valid, graph.validate = .ok valid ->
        valid.graph = graph ∧
        (∀ id,
          valid.graph.flowParents id =
            (graph.edges.filter fun edge => edge.role = .flow ∧ edge.target = id).map
              Edge.source) ∧
        (∀ id source,
          valid.graph.compareInput? id = some source ↔
            ∃ edge ∈ graph.edges,
              edge.role = .compareInput ∧ edge.source = source ∧ edge.target = id) ∧
        ∀ id,
          valid.isReachable id = true ↔
            graph.FeedsAction id ∨
              ∃ edge ∈ graph.edges,
                edge.role = .compareInput ∧ edge.source = id ∧
                  graph.FeedsAction edge.target := by
  constructor
  · constructor
    · rintro ⟨valid, accepted⟩
      exact validate_eq_ok_iff.1 accepted ▸ wellFormed_of_check valid.checked
    · intro wellFormed
      obtain ⟨reachable, checked⟩ := wellFormed.exists_check
      exact ⟨⟨graph, reachable, checked⟩, validate_eq_ok_iff.2 rfl⟩
  · intro valid accepted
    cases validate_eq_ok_iff.1 accepted
    have wellFormed := wellFormed_of_check valid.checked
    refine ⟨rfl, flowParents_eq_map valid.graph,
      fun id source => compareInput_eq_some_iff wellFormed.compareOnce, fun id => ?_⟩
    rw [ValidGraph.isReachable_iff]
    refine or_congr_right ⟨?_, ?_⟩
    · rintro ⟨target, ⟨edge, isEdge, compares, leaves, enters⟩, feeding⟩
      exact ⟨edge, isEdge, compares, leaves, enters ▸ feeding⟩
    · rintro ⟨edge, isEdge, compares, leaves, feeding⟩
      exact ⟨edge.target, ⟨edge, isEdge, compares, leaves, rfl⟩, feeding⟩

end Graph
end StrategyGraph
