import StrategyGraph.Compile.Condition
import StrategyGraph.Proofs.Compile.Totality

/-!
# Tests behind actions

Every condition of a graph states one test. Unfolding a node finds the tests of exactly
those conditions that reach it along flow edges, so a plan of all actions holds the tests
of exactly those that feed an action. A condition that only supplies an operand is not
tested on its own: a test observes the subject of its condition and that of the operand.
-/

namespace StrategyGraph

/-- The subject of a node is that of the test or what the test compares it with. -/
def Test.Observes (test : Test) (id : NodeId) (subject : Subject) : Prop :=
  test.node = id ∧ test.subject = subject ∨ test.operand = .source id subject

namespace Graph

/-- A condition of the graph states the test. -/
structure States (graph : Graph) (test : Test) : Prop where
  kind : graph.kind? test.node = some (.condition test.subject test.condition)
  operand : graph.operand test.node test.condition = .ok test.operand

variable {graph : Graph} {id : NodeId}

/-- With distinct identities, having a kind means being a node of that kind. -/
theorem kind_eq_some_iff
    (distinct : graph.nodeIds.Nodup)
    {kind : NodeKind} :
    graph.kind? id = some kind ↔ ⟨id, kind⟩ ∈ graph.nodes := by
  rw [kind?, Option.map_eq_some_iff]
  constructor
  · rintro ⟨node, found, rfl⟩
    obtain ⟨member, rfl⟩ := mem_of_node found
    exact member
  · intro member
    exact ⟨_, node_of_mem distinct member, rfl⟩

/-- A condition states one test. -/
theorem States.eq
    {test other : Test}
    (states : graph.States test)
    (statesOther : graph.States other)
    (same : test.node = other.node) :
    test = other := by
  obtain ⟨node, subject, condition, operand⟩ := test
  obtain ⟨nodeOther, subjectOther, conditionOther, operandOther⟩ := other
  cases same
  cases states.kind.symm.trans statesOther.kind
  cases states.operand.symm.trans statesOther.operand
  rfl

/-- A node is reached from itself and from what reaches one that flows into it. -/
theorem reaches_iff {source : NodeId} :
    graph.Reaches source id ↔
      source = id ∨ ∃ parent, graph.Reaches source parent ∧ graph.Flow parent id := by
  rw [Reaches, Relation.ReflTransGen.cases_tail_iff, eq_comm]

/-- Something is true of a signal that flows in if it is true of a node that does. -/
theorem exists_input_iff
    {ofNode : NodeId -> Prop}
    {ofSignal : Signal -> Prop}
    {inputs : List Signal}
    (each : List.Forall₂ (fun parent input => ofSignal input ↔ ofNode parent)
      (graph.flowParents id) inputs) :
    (∃ input ∈ inputs, ofSignal input) ↔ ∃ parent, ofNode parent ∧ graph.Flow parent id := by
  constructor
  · rintro ⟨input, listed, holds⟩
    obtain ⟨parent, isParent, same⟩ := Outcome.exists_item_of_forall₂ each listed
    exact ⟨parent, same.1 holds, mem_flowParents_iff.1 isParent⟩
  · rintro ⟨parent, holds, flow⟩
    obtain ⟨input, listed, same⟩ :=
      Outcome.exists_item_of_forall₂ each.flip (mem_flowParents_iff.2 flow)
    exact ⟨input, listed, same.2 holds⟩

/-- Something is true of all signals that flow in if it is true of all nodes that do. -/
theorem forall_input_iff
    {ofNode : NodeId -> Prop}
    {ofSignal : Signal -> Prop}
    {inputs : List Signal}
    (each : List.Forall₂ (fun parent input => ofSignal input ↔ ofNode parent)
      (graph.flowParents id) inputs) :
    (∀ input ∈ inputs, ofSignal input) ↔ ∀ parent, graph.Flow parent id -> ofNode parent := by
  have exceptions := exists_input_iff (each.imp fun _ _ same => not_congr same)
  rw [← not_iff_not]
  simpa [and_comm] using exceptions

/-- There is no signal where nothing flows in. -/
theorem isEmpty_inputs_iff
    {related : NodeId -> Signal -> Prop}
    {inputs : List Signal}
    (each : List.Forall₂ related (graph.flowParents id) inputs) :
    inputs.isEmpty = true ↔ ∀ parent, ¬ graph.Flow parent id := by
  rw [List.isEmpty_iff_length_eq_zero, ← each.length_eq, List.length_eq_zero_iff,
    List.eq_nil_iff_forall_not_mem]
  simp only [mem_flowParents_iff]

/-- The tests of several signals are those of the nodes that flow in. -/
theorem mem_testsOf_iff
    {inputs : List Signal}
    (each : List.Forall₂
      (fun parent input => ∀ test : Test,
        test ∈ input.tests ↔ graph.States test ∧ graph.Reaches test.node parent)
      (graph.flowParents id) inputs)
    (test : Test) :
    test ∈ Signal.testsOf inputs ↔
      graph.States test ∧
        ∃ parent, graph.Reaches test.node parent ∧ graph.Flow parent id := by
  rw [Signal.testsOf_eq_flatMap, List.mem_flatMap,
    exists_input_iff (each.imp fun _ _ tests => tests test)]
  simp only [and_assoc, exists_and_left]

/-- A gate states no test. -/
theorem States.not_gate
    {test : Test}
    {gate : Gate}
    (states : graph.States test)
    (isGate : graph.kind? id = some (.gate gate)) :
    test.node ≠ id := by
  rintro rfl
  cases states.kind.symm.trans isGate

/-- Below a gate, the tests are those of what flows in. -/
theorem reaches_iff_of_gate
    {test : Test}
    {gate : Gate}
    (states : graph.States test)
    (isGate : graph.kind? id = some (.gate gate)) :
    graph.Reaches test.node id ↔
      ∃ parent, graph.Reaches test.node parent ∧ graph.Flow parent id := by
  rw [reaches_iff, or_iff_right (states.not_gate isGate)]

/-- The tests of a signal are those of the conditions that reach its node. -/
theorem mem_tests_iff
    {path : List NodeId}
    {signal : Signal}
    (unfolded : graph.signal path id = .ok signal)
    (test : Test) :
    test ∈ signal.tests ↔ graph.States test ∧ graph.Reaches test.node id := by
  revert test
  have ofGate {id : NodeId} {gate : Gate} {inputs : List Signal}
      (isGate : graph.kind? id = some (.gate gate))
      (each : List.Forall₂
        (fun parent input => ∀ test : Test,
          test ∈ input.tests ↔ graph.States test ∧ graph.Reaches test.node parent)
        (graph.flowParents id) inputs)
      (test : Test) :
      test ∈ Signal.testsOf inputs ↔ graph.States test ∧ graph.Reaches test.node id := by
    rw [mem_testsOf_iff each]
    exact and_congr_right fun states => (reaches_iff_of_gate states isGate).symm
  refine unfolding_induction
    (motive := fun id signal => ∀ test : Test,
      test ∈ signal.tests ↔ graph.States test ∧ graph.Reaches test.node id)
    ?gated ?all ?any ?negation unfolded
  case gated =>
    intro id subject condition operand parents isCondition found each test
    have here : graph.States { node := id, subject, condition, operand } := ⟨isCondition, found⟩
    rw [Signal.tests, List.mem_cons, mem_testsOf_iff each, reaches_iff, and_or_left]
    refine or_congr_left ⟨?_, fun ⟨states, same⟩ => states.eq here same⟩
    rintro rfl
    exact ⟨here, rfl⟩
  case all => exact fun id inputs isGate each => ofGate isGate each
  case any => exact fun id inputs isGate each => ofGate isGate each
  case negation =>
    intro id parent input isGate single inner
    have each : List.Forall₂
        (fun parent input => ∀ test : Test,
          test ∈ input.tests ↔ graph.States test ∧ graph.Reaches test.node parent)
        [parent] [input] :=
      .cons inner .nil
    rw [← single] at each
    intro test
    rw [← ofGate isGate each, Signal.tests, Signal.testsOf_eq_flatMap, List.flatMap_singleton]

section

variable (wellFormed : graph.WellFormed)

include wellFormed

/-- What an operand is: the subject of the source of the compare edge if there is one, else
the literal if there is one. -/
theorem operand_cases
    {condition : Condition}
    {operand : Operand}
    (found : graph.operand id condition = .ok operand) :
    (∃ source subject other, graph.Compares source id ∧
        ⟨source, .condition subject other⟩ ∈ graph.nodes ∧ operand = .source source subject) ∨
      (∀ source, ¬ graph.Compares source id) ∧
        ((∃ constant, condition.compareValue = some constant ∧ operand = .literal constant) ∨
          condition.compareValue = none ∧ operand = .missing) := by
  unfold Graph.operand at found
  split at found
  next source compared =>
    have compares := (compareInput_eq_some_iff wellFormed.compareOnce).1 compared
    split at found
    next subject observes =>
      cases found
      obtain ⟨⟨_, kind⟩, isNode, isSubject⟩ := Option.bind_eq_some_iff.1 observes
      obtain ⟨member, rfl⟩ := mem_of_node isNode
      cases kind with
      | condition subject other =>
          cases isSubject
          exact Or.inl ⟨_, subject, other, compares, member, rfl⟩
      | _ => cases isSubject
    next => cases found
  next noInput =>
    refine Or.inr ⟨fun source compares => ?_, ?_⟩
    · rw [(compareInput_eq_some_iff wellFormed.compareOnce).2 compares] at noInput
      cases noInput
    · cases literal : condition.compareValue with
      | some constant =>
          rw [literal] at found
          exact Or.inl ⟨constant, rfl, (Except.ok.inj found).symm⟩
      | none =>
          rw [literal] at found
          exact Or.inr ⟨rfl, (Except.ok.inj found).symm⟩

/-- A condition with a compare edge into it compares with the subject at its source. -/
theorem operand_of_compares
    {target : NodeId}
    {subject : Subject}
    {other : Condition}
    (compares : graph.Compares id target)
    (isNode : ⟨id, .condition subject other⟩ ∈ graph.nodes)
    (condition : Condition) :
    graph.operand target condition = .ok (.source id subject) := by
  have found := node_of_mem wellFormed.distinct isNode
  rw [operand, (compareInput_eq_some_iff wellFormed.compareOnce).2 compares]
  dsimp only
  rw [found]
  rfl

/-- Compare edges lead into conditions. -/
theorem exists_condition_of_compares
    {target : NodeId}
    (compares : graph.Compares id target) :
    ∃ subject condition, ⟨target, .condition subject condition⟩ ∈ graph.nodes := by
  obtain ⟨edge, isEdge, isCompare, _, rfl⟩ := compares
  obtain ⟨⟨name, kind⟩, isNode, identity⟩ :=
    List.mem_map.1 (wellFormed.endpoints edge isEdge).2
  have isCondition :=
    wellFormed.compareConditions edge isEdge isCompare _ isNode (Or.inr identity.symm)
  cases kind with
  | condition subject condition => exact ⟨subject, condition, identity ▸ isNode⟩
  | _ => cases isCondition

/-- Every condition states a test. -/
theorem exists_states
    {subject : Subject}
    {condition : Condition}
    (isNode : ⟨id, .condition subject condition⟩ ∈ graph.nodes) :
    ∃ operand, graph.States { node := id, subject, condition, operand } := by
  obtain ⟨operand, found⟩ := wellFormed.exists_operand id condition
  exact ⟨operand, (kind_eq_some_iff wellFormed.distinct).2 isNode, found⟩

/-- The tests of some conditions observe the subjects of these conditions and of those they
compare with. -/
theorem exists_observing_test_iff
    {conditions : NodeId -> Prop}
    {subject : Subject} :
    (∃ test, (graph.States test ∧ conditions test.node) ∧ test.Observes id subject) ↔
      (∃ condition, ⟨id, .condition subject condition⟩ ∈ graph.nodes) ∧
        (conditions id ∨ ∃ target, graph.Compares id target ∧ conditions target) := by
  constructor
  · rintro ⟨test, ⟨states, among⟩, ⟨rfl, rfl⟩ | compared⟩
    · exact ⟨⟨test.condition, (kind_eq_some_iff wellFormed.distinct).1 states.kind⟩, Or.inl among⟩
    · rcases operand_cases wellFormed states.operand with
        ⟨source, _, other, compares, isSource, same⟩ | ⟨_, ⟨_, _, same⟩ | ⟨_, same⟩⟩
      · cases compared.symm.trans same
        exact ⟨⟨other, isSource⟩, Or.inr ⟨test.node, compares, among⟩⟩
      · cases compared.symm.trans same
      · cases compared.symm.trans same
  · rintro ⟨⟨condition, isNode⟩, among | ⟨target, compares, among⟩⟩
    · obtain ⟨operand, states⟩ := exists_states wellFormed isNode
      exact ⟨_, ⟨states, among⟩, Or.inl ⟨rfl, rfl⟩⟩
    · obtain ⟨_, other, isTarget⟩ := exists_condition_of_compares wellFormed compares
      have states : graph.States ⟨target, _, other, .source id subject⟩ :=
        ⟨(kind_eq_some_iff wellFormed.distinct).2 isTarget,
          operand_of_compares wellFormed compares isNode other⟩
      exact ⟨_, ⟨states, among⟩, Or.inr rfl⟩

end

/-- An action states no test. -/
theorem States.not_action
    {test : Test}
    {node : Node}
    (states : graph.States test)
    (distinct : graph.nodeIds.Nodup)
    (isAction : node ∈ graph.actions) :
    test.node ≠ node.id := by
  intro same
  obtain ⟨isNode, acts⟩ := List.mem_filter.1 isAction
  have kind := states.kind
  rw [same, kind?, node_of_mem distinct isNode, Option.map_some] at kind
  rw [Node.isAction, Option.some.inj kind] at acts
  cases acts

/-- The plans of all actions hold the tests of the conditions that feed an action. -/
theorem exists_planned_test_iff
    {planned : List PlannedAction}
    (distinct : graph.nodeIds.Nodup)
    (plans : graph.plannedActions = .ok planned)
    (test : Test) :
    (∃ action ∈ planned, test ∈ Signal.testsOf action.inputs) ↔
      graph.States test ∧ graph.FeedsAction test.node := by
  have eachPlan := plansAction_of_plannedActions plans
  have tests {node : Node} {action : PlannedAction} (isPlan : graph.PlansAction node action) :=
    mem_testsOf_iff (isPlan.inputs.imp fun _ _ unfolded => mem_tests_iff unfolded) test
  constructor
  · rintro ⟨action, isPlanned, inside⟩
    obtain ⟨node, isAction, isPlan⟩ := Outcome.exists_item_of_forall₂ eachPlan isPlanned
    obtain ⟨states, parent, reaches, flow⟩ := (tests isPlan).1 inside
    exact ⟨states, node, isAction, reaches.tail flow⟩
  · rintro ⟨states, node, isAction, reaches⟩
    obtain ⟨action, isPlanned, isPlan⟩ :=
      Outcome.exists_item_of_forall₂ eachPlan.flip isAction
    have further := (reaches_iff.1 reaches).resolve_left (states.not_action distinct isAction)
    exact ⟨action, isPlanned, (tests isPlan).2 ⟨states, further⟩⟩

end Graph
end StrategyGraph
