import StrategyGraph.Compile.Condition
import StrategyGraph.Proofs.Compile.Accepted
import StrategyGraph.Proofs.Compile.Unfolding
import StrategyGraph.Proofs.Graph.WellFormed

/-!
# Tests in range

Every test of a well-formed graph has settings in range, those of the node that it
compares with included. So its parameters are accepted when they are resolved.
-/

namespace StrategyGraph

/-- What a condition compares with: a subject in range or a finite literal. -/
def Operand.InRange : Operand -> Prop
  | .source _ subject => subject.InRange
  | .literal constant => constant.isFinite = true
  | .missing => True

/-- A test whose settings are in range. -/
structure Test.InRange (test : Test) : Prop where
  subject : test.subject.InRange
  condition : test.condition.InRange
  operand : test.operand.InRange

/-! ## Resolving parameters -/

/-- Admitted parameters are accepted when they are completed. -/
theorem Indicator.resolve_of_inRange
    {line : Indicator}
    {given : Dictionary Float}
    (inRange : (Subject.indicator line given).InRange)
    (overrides : Dictionary Float) :
    line.resolve given overrides =
      .ok {
        series := line.complete given overrides
        defaulted := line.defaulted given overrides
        unknown := line.unknown given } := by
  rw [resolve, checkGiven_eq_ok_iff.2 inRange]
  rfl

theorem Subject.resolve_of_inRange
    {subject : Subject}
    (inRange : subject.InRange)
    (configuration : Configuration)
    (node : NodeId) :
    subject.resolve configuration node = .ok () := by
  cases subject with
  | indicator line given => rw [resolve, Indicator.resolve_of_inRange inRange]
  | price column => rfl
  | value constant => rfl

/-- A test in range is resolved, and so is what it compares with. -/
theorem Test.resolve_of_inRange
    {test : Test}
    (inRange : test.InRange)
    (configuration : Configuration) :
    test.resolve configuration = .ok () := by
  rw [resolve, Outcome.check_then_eq_ok_iff]
  refine ⟨Subject.resolve_of_inRange inRange.subject configuration test.node, ?_⟩
  have compared := inRange.operand
  cases operand : test.operand with
  | source source subject =>
      rw [operand] at compared
      exact Subject.resolve_of_inRange compared configuration source
  | literal constant => rfl
  | missing => rfl

/-! ## Tests of a graph -/

namespace Graph

variable {graph : Graph}

theorem exists_node_of_kind?
    {id : NodeId}
    {kind : NodeKind}
    (isKind : graph.kind? id = some kind) :
    ∃ node ∈ graph.nodes, node.kind = kind := by
  obtain ⟨node, found, equal⟩ := Option.map_eq_some_iff.1 isKind
  exact ⟨node, List.mem_of_find?_eq_some found, equal⟩

variable (wellFormed : graph.WellFormed)

include wellFormed

/-- Tests of a well-formed graph are in range. -/
theorem test_inRange
    {id : NodeId}
    {subject : Subject}
    {condition : Condition}
    {operand : Operand}
    (isCondition : graph.kind? id = some (.condition subject condition))
    (found : graph.operand id condition = .ok operand) :
    Test.InRange { node := id, subject, condition, operand } := by
  obtain ⟨node, member, kind⟩ := exists_node_of_kind? isCondition
  have inRange := wellFormed.parameters node member
  rw [Node.InRange, kind] at inRange
  refine ⟨inRange.2, inRange.1, ?_⟩
  rw [Graph.operand] at found
  split at found
  next source _ =>
    split at found
    next compared isSubject =>
      cases found
      obtain ⟨other, isOther, observes⟩ := Option.bind_eq_some_iff.1 isSubject
      have otherInRange := wellFormed.parameters other (List.mem_of_find?_eq_some isOther)
      rw [Node.subject?] at observes
      split at observes
      next isSame =>
        cases observes
        rw [Node.InRange, isSame] at otherInRange
        exact otherInRange.2
      next => cases observes
    next => cases found
  next =>
    split at found
    next constant given =>
      cases found
      exact inRange.1.compareValue constant given
    next =>
      cases found
      trivial

omit wellFormed in
theorem testsOf_inRange
    {ids : List NodeId}
    {signals : List Signal}
    (each : List.Forall₂ (fun _ signal => ∀ test ∈ Signal.tests signal, test.InRange)
      ids signals) :
    ∀ test ∈ Signal.testsOf signals, test.InRange := by
  intro test member
  rw [Signal.testsOf_eq_flatMap] at member
  obtain ⟨signal, isInput, inside⟩ := List.mem_flatMap.1 member
  obtain ⟨_, _, inRange⟩ := Outcome.exists_item_of_forall₂ each isInput
  exact inRange test inside

/-- All tests of an unfolded signal are in range. -/
theorem tests_inRange
    {path : List NodeId}
    {id : NodeId}
    {signal : Signal}
    (unfolded : graph.signal path id = .ok signal) :
    ∀ test ∈ signal.tests, test.InRange := by
  refine unfolding_induction (motive := fun _ signal => ∀ test ∈ signal.tests, test.InRange)
    ?gated ?all ?any ?negation unfolded
  case gated =>
    intro id subject condition operand parents isCondition found related test member
    rcases List.mem_cons.1 member with rfl | inParents
    · exact test_inRange wellFormed isCondition found
    · exact testsOf_inRange related test inParents
  case all => exact fun id inputs _ related => testsOf_inRange related
  case any => exact fun id inputs _ related => testsOf_inRange related
  case negation => exact fun id parent input _ _ inside => inside

/-- All tests of planned actions are in range. -/
theorem inputs_inRange
    {planned : List PlannedAction}
    (plans : List.Forall₂ graph.PlansAction graph.actions planned) :
    ∀ action ∈ planned, ∀ test ∈ Signal.testsOf action.inputs, test.InRange := by
  intro action isPlanned
  obtain ⟨node, _, isPlan⟩ := Outcome.exists_item_of_forall₂ plans isPlanned
  exact testsOf_inRange (isPlan.inputs.imp fun _ _ => tests_inRange wellFormed)

end Graph
end StrategyGraph
