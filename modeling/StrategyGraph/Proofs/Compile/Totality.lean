import StrategyGraph.Proofs.Compile.Ranges

/-!
# Valid graphs compile

No step of the compiler fails on a well-formed graph. Unfolding goes back from an action
along one path at a time, and everything on the path is reached from the node at hand;
so a node that met its own path would feed an action and lie on a flow cycle. Cycles
elsewhere in the graph, cycles of compare edges and nodes on several paths do no harm.
-/

namespace StrategyGraph
namespace Graph

variable {graph : Graph} {id target : NodeId}

namespace WellFormed

variable (wellFormed : graph.WellFormed)

include wellFormed

/-- Flow comes from conditions and gates. -/
theorem kind_of_flow (flow : graph.Flow id target) :
    (∃ subject condition, graph.kind? id = some (.condition subject condition)) ∨
      ∃ gate, graph.kind? id = some (.gate gate) := by
  obtain ⟨edge, isEdge, flows, rfl, _⟩ := flow
  have isNode := (wellFormed.endpoints edge isEdge).1
  obtain ⟨node, found⟩ := Option.isSome_iff_exists.1 (isSome_node_iff.2 isNode)
  obtain ⟨member, identity⟩ := mem_of_node found
  have noAction := fun acts =>
    wellFormed.actionsLast edge isEdge flows node member acts identity.symm
  have noExit := fun exits =>
    (wellFormed.exitsApart edge isEdge node member exits).1 identity.symm
  rw [kind?, found, Option.map_some]
  cases kind : node.kind with
  | condition subject condition => exact Or.inl ⟨subject, condition, rfl⟩
  | gate gate => exact Or.inr ⟨gate, rfl⟩
  | action side mode amount => exact (noAction (by rw [Node.isAction, kind])).elim
  | exit kind basis magnitude atrPeriod =>
      exact (noExit (by rw [Node.isExit, kind])).elim

/-- The operand of a condition is found, since compare edges come from conditions. -/
theorem exists_operand (id : NodeId) (condition : Condition) :
    ∃ operand, graph.operand id condition = .ok operand := by
  unfold operand
  split
  next source compared =>
    obtain ⟨edge, isEdge, compares, rfl, _⟩ :=
      (compareInput_eq_some_iff wellFormed.compareOnce).1 compared
    have isNode := (wellFormed.endpoints edge isEdge).1
    obtain ⟨node, found⟩ := Option.isSome_iff_exists.1 (isSome_node_iff.2 isNode)
    obtain ⟨member, identity⟩ := mem_of_node found
    have isCondition :=
      wellFormed.compareConditions edge isEdge compares node member (Or.inl identity.symm)
    rw [Node.isCondition, Node.condition?] at isCondition
    rw [found, Option.bind_some, Node.subject?]
    cases kind : node.kind with
    | condition subject condition => exact ⟨.source edge.source subject, rfl⟩
    | _ =>
        rw [kind] at isCondition
        cases isCondition
  next =>
    cases condition.compareValue with
    | some constant => exact ⟨.literal constant, rfl⟩
    | none => exact ⟨.missing, rfl⟩

/-- A negation has a single flow parent. -/
theorem length_flowParents
    (negates : graph.kind? id = some (.gate .not)) :
    (graph.flowParents id).length = 1 := by
  obtain ⟨node, found, kind⟩ := Option.map_eq_some_iff.1 negates
  obtain ⟨member, rfl⟩ := mem_of_node found
  rw [flowParents_eq_map, List.length_map]
  exact wellFormed.negations node member kind

/-- A node that flows into something that feeds an action unfolds along any path on
which it leads to everything. -/
theorem exists_signal
    {path : List NodeId}
    (sends : ∃ target, graph.Flow id target)
    (feeds : graph.FeedsAction id)
    (leads : ∀ later ∈ path, Relation.TransGen graph.Flow id later) :
    ∃ signal, graph.signal path id = .ok signal := by
  have unfoldsParents {path : List NodeId} {id : NodeId}
      (feeds : graph.FeedsAction id)
      (leads : ∀ later ∈ path, Relation.TransGen graph.Flow id later)
      (hypothesis : ∀ parent, (∃ target, graph.Flow parent target) ->
        graph.FeedsAction parent ->
        (∀ later ∈ id :: path, Relation.TransGen graph.Flow parent later) ->
        ∃ signal, graph.signal (id :: path) parent = .ok signal) :
      ∃ inputs, (graph.flowParents id).mapM (graph.signal (id :: path)) = .ok inputs := by
    refine Outcome.exists_mapM_eq_ok fun parent member => ?_
    have flow := mem_flowParents_iff.1 member
    refine hypothesis parent ⟨id, flow⟩ (feeds.of_flow flow) fun later onPath => ?_
    rcases List.mem_cons.1 onPath with rfl | further
    · exact .single flow
    · exact .head flow (leads later further)
  induction path, id using Graph.signal.induct graph with
  | case1 path id onPath => exact absurd (leads id onPath) (wellFormed.acyclic id feeds)
  | case2 path id offPath isNode _ subject condition isCondition hypothesis =>
      obtain ⟨operand, found⟩ := wellFormed.exists_operand id condition
      obtain ⟨parents, unfolded⟩ := unfoldsParents feeds leads hypothesis
      rw [Graph.signal, dif_neg offPath, dif_pos isNode]
      dsimp only
      rw [isCondition]
      exact ⟨_, Outcome.bind_eq_ok_iff.2
        ⟨operand, found, Outcome.bind_eq_ok_iff.2 ⟨parents, unfolded, rfl⟩⟩⟩
  | case3 path id offPath isNode _ gate isGate hypothesis =>
      obtain ⟨inputs, unfolded⟩ := unfoldsParents feeds leads hypothesis
      rw [Graph.signal, dif_neg offPath, dif_pos isNode]
      dsimp only
      rw [isGate]
      dsimp only
      cases gate with
      | and => exact ⟨_, Outcome.bind_eq_ok_iff.2 ⟨inputs, unfolded, rfl⟩⟩
      | or => exact ⟨_, Outcome.bind_eq_ok_iff.2 ⟨inputs, unfolded, rfl⟩⟩
      | not =>
          have single : inputs.length = 1 := by
            rw [← (Outcome.mapM_eq_ok_iff.1 unfolded).length_eq]
            exact wellFormed.length_flowParents isGate
          obtain ⟨input, rfl⟩ := List.length_eq_one_iff.1 single
          exact ⟨_, Outcome.bind_eq_ok_iff.2 ⟨[input], unfolded, rfl⟩⟩
  | case4 path id offPath isNode _ notCondition notGate =>
      obtain ⟨target, flow⟩ := sends
      rcases wellFormed.kind_of_flow flow with ⟨subject, condition, kind⟩ | ⟨gate, kind⟩
      · exact (notCondition subject condition kind).elim
      · exact (notGate gate kind).elim
  | case5 path id offPath notNode =>
      obtain ⟨target, edge, isEdge, _, rfl, _⟩ := sends
      exact absurd (wellFormed.endpoints edge isEdge).1 notNode

/-- All actions of a well-formed graph are planned. -/
theorem exists_plannedActions : ∃ planned, graph.plannedActions = .ok planned := by
  refine Outcome.exists_mapM_eq_ok fun node member => ?_
  have acts := List.of_mem_filter member
  rw [Node.isAction] at acts
  split
  next side mode amount kind =>
    have inputs : ∃ inputs, (graph.flowParents node.id).mapM (graph.signal []) = .ok inputs := by
      refine Outcome.exists_mapM_eq_ok fun parent isParent => ?_
      have flow := mem_flowParents_iff.1 isParent
      have feeds : graph.FeedsAction parent := ⟨node, member, flow.reaches⟩
      exact wellFormed.exists_signal ⟨node.id, flow⟩ feeds
        fun _ none => absurd none List.not_mem_nil
    obtain ⟨inputs, unfolded⟩ := inputs
    exact ⟨_, Outcome.bind_eq_ok_iff.2 ⟨inputs, unfolded, rfl⟩⟩
  next other =>
    cases kind : node.kind with
    | action side mode amount => exact (other side mode amount kind).elim
    | _ =>
        rw [kind] at acts
        cases acts

/-- The given parameters of an indicator node are accepted when they are completed. -/
theorem resolve_eq
    (configuration : Configuration)
    {node : Node}
    (member : node ∈ graph.nodes)
    {line : Indicator}
    {given : Dictionary Float}
    {condition : Condition}
    (kind : node.kind = .condition (.indicator line given) condition) :
    line.resolve given (configuration.overrides line) =
      .ok {
        series := line.complete given (configuration.overrides line)
        defaulted := line.defaulted given (configuration.overrides line)
        unknown := line.unknown given } := by
  have inRange := wellFormed.parameters node member
  rw [Node.InRange, kind] at inRange
  exact Indicator.resolve_of_inRange inRange.2 (configuration.overrides line)

end WellFormed
end Graph

/-- An amount in range is one that its mode can be sized with. -/
theorem exists_ofMode_eq_some
    {mode : SizingMode}
    {amount : Option Float}
    (inRange : SizingInRange amount mode) :
    ∃ sizing, Sizing.ofMode? mode amount = some sizing := by
  cases mode with
  | allAvailable => exact ⟨.allAvailable, rfl⟩
  | fixedCash | fixedShares | percentOfEquity =>
      obtain ⟨value, rfl, _⟩ := inRange
      exact ⟨_, rfl⟩

/-- A valid graph compiles, warnings aside. -/
theorem ValidGraph.exists_compileLenient (valid : ValidGraph) (configuration : Configuration) :
    ∃ compilation, valid.compileLenient configuration = .ok compilation := by
  have wellFormed := Graph.wellFormed_of_check valid.checked
  obtain ⟨planned, plans⟩ := wellFormed.exists_plannedActions
  have plansAction := Graph.plansAction_of_plannedActions plans
  have rules : ∃ rules, planned.mapM (PlannedAction.rule configuration) = .ok rules := by
    refine Outcome.exists_mapM_eq_ok fun action isPlanned => ?_
    have resolved : ∀ test ∈ Signal.testsOf action.inputs,
        test.resolve configuration = .ok () := by
      intro test inside
      have inRange := Graph.inputs_inRange wellFormed plansAction action isPlanned test inside
      exact Test.resolve_of_inRange inRange configuration
    obtain ⟨node, isAction, isPlan⟩ := Outcome.exists_item_of_forall₂ plansAction isPlanned
    have inRange := wellFormed.parameters node (List.mem_of_mem_filter isAction)
    rw [Node.InRange, isPlan.kind] at inRange
    obtain ⟨sizing, sized⟩ := exists_ofMode_eq_some inRange
    exact ⟨_, PlannedAction.rule_eq_ok_iff.2 ⟨resolved, sizing, sized, rfl⟩⟩
  obtain ⟨rules, ruled⟩ := rules
  exact ⟨_, Outcome.bind_eq_ok_iff.2 ⟨planned, plans,
    Outcome.bind_eq_ok_iff.2 ⟨rules, ruled, rfl⟩⟩⟩

end StrategyGraph
