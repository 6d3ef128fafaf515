import Mathlib
import StrategyGraph.Proofs.Compile.Accepted
import StrategyGraph.Proofs.Compile.Unfolding
import StrategyGraph.Proofs.Graph.Identity
import StrategyGraph.Proofs.Graph.Meaning
import StrategyGraph.Proofs.Predicate.Truth

/-!
# Compilation preserves the meaning of a graph

The predicate of a compiled action holds at a bar exactly when the action node
does in the graph. The main steps follow the stages of compilation: expressions
read the numbers of their subjects, the predicate of a test holds where its
condition does, and the predicate of a signal holds where its node does.
-/

namespace StrategyGraph

variable [Quantity Value]
variable {configuration : Configuration} {set : SeriesSet Value} {bar : Nat}

theorem Quantity.filter_available (quantity : Option Value) :
    (quantity.filter fun value => !Quantity.isNaN value) =
      quantity.bind Quantity.available? := by
  cases quantity with
  | none => rfl
  | some value =>
      cases missing : Quantity.isNaN value <;> simp [Quantity.available?, missing]

theorem SeriesSet.filter_valueBack
    (set : SeriesSet Value)
    (key : String)
    (bar back : Nat) :
    ((set.valueBack? key bar back).filter fun value => !Quantity.isNaN value) =
      set.numberBack? key bar back := by
  unfold SeriesSet.valueBack? SeriesSet.numberBack?
  split
  next reached => exact Quantity.filter_available _
  next => rfl

/-- The expression of a subject reads the number of the subject. -/
theorem Subject.value_expression (subject : Subject) (back : Nat) :
    (subject.expression configuration back).value? set bar =
      subject.numberBack? configuration set bar back := by
  cases subject with
  | price column => exact set.filter_valueBack column.key bar back
  | indicator line parameters =>
      exact set.filter_valueBack
        (line.complete parameters (configuration.overrides line)).key bar back
  | value constant => exact Quantity.filter_available (some (Quantity.ofFloat constant))

namespace Test

/-- Where a test comes from in a graph. -/
def IsTestOf (graph : Graph) (test : Test) : Prop :=
  graph.operand test.node test.condition = .ok test.operand

/-- The expression of an operand reads the number the condition compares with. -/
theorem value_operand
    {graph : Graph}
    {test : Test}
    (isTest : test.IsTestOf graph)
    (back : Nat) :
    (test.operand.expression configuration back).value? set bar =
      graph.operandBack? configuration set bar test.node test.condition back := by
  unfold IsTestOf Graph.operand at isTest
  unfold Graph.operandBack?
  cases compared : graph.compareInput? test.node with
  | some source =>
      simp only [compared] at isTest ⊢
      split at isTest
      next subject found =>
        rw [← Except.ok.inj isTest, found]
        exact subject.value_expression back
      next => cases isTest
  | none =>
      simp only [compared] at isTest ⊢
      split at isTest
      next constant given =>
        rw [← Except.ok.inj isTest, given]
        exact Quantity.filter_available (some (Quantity.ofFloat constant))
      next missing =>
        rw [← Except.ok.inj isTest, missing]
        exact Quantity.filter_available (some (Quantity.ofFloat 0))

/-- A relation of subject and operand holds where their numbers stand in it. -/
theorem holds_relationAt
    {graph : Graph}
    {test : Test}
    (isTest : test.IsTestOf graph)
    (relation : Relation)
    (back : Nat) :
    (test.relationAt configuration relation back).holds set bar =
      graph.relatesBack configuration set bar test.node test.subject test.condition
        relation back := by
  rw [relationAt, Predicate.holds, Predicate.compareHolds, Subject.value_expression,
    value_operand isTest]
  rfl

/-- The comparison of a test holds where that of its condition does. -/
theorem holds_comparisonAt
    {graph : Graph}
    {test : Test}
    (isTest : test.IsTestOf graph)
    (shift : Nat) :
    (test.comparisonAt configuration shift).holds set bar =
      test.condition.comparison.holdsBack
        (graph.relatesBack configuration set bar test.node test.subject test.condition)
        (test.condition.offset + shift) := by
  unfold comparisonAt
  cases test.condition.comparison <;>
    simp [Relation.ofComparison?, crossingRelations, Comparison.holdsBack,
      holds_relationAt isTest]

/-- The predicate of a test holds where its comparison does at some shift of the window. -/
theorem holds_predicate_eq_any (test : Test) :
    (test.predicate configuration).holds set bar =
      (List.range (max test.condition.lookback 1)).any fun shift =>
        (test.comparisonAt configuration shift).holds set bar := by
  unfold predicate
  split
  next single =>
    have one : max test.condition.lookback 1 = 1 := by omega
    rw [one]
    simp
  next window =>
    have several : max test.condition.lookback 1 = test.condition.lookback := by omega
    have nonempty : (List.range test.condition.lookback).isEmpty = false := by
      rw [List.isEmpty_eq_false_iff, ne_eq, List.range_eq_nil]
      omega
    rw [several, Predicate.holds_disjunction, List.isEmpty_map, nonempty, Bool.false_or,
      List.any_map]
    rfl

/-- The predicate of a test holds where its condition does. -/
theorem holds_predicate
    {graph : Graph}
    {test : Test}
    (isTest : test.IsTestOf graph) :
    (test.predicate configuration).holds set bar =
      test.condition.holdsWithin
        (graph.relatesBack configuration set bar test.node test.subject
          test.condition) := by
  rw [holds_predicate_eq_any, Condition.holdsWithin]
  exact List.any_congr rfl fun shift => holds_comparisonAt isTest shift

end Test

namespace Signal

theorem predicates_eq_map (configuration : Configuration) (signals : List Signal) :
    predicates configuration signals = signals.map (predicate configuration) := by
  induction signals with
  | nil => rfl
  | cons signal signals hypothesis => rw [predicates, hypothesis, List.map_cons]

/-- Whether a signal holds at a bar. -/
def holds
    (configuration : Configuration)
    (set : SeriesSet Value)
    (bar : Nat)
    (signal : Signal) : Bool :=
  (signal.predicate configuration).holds set bar

/-- A gated test holds if it does and all signals that gate it do. -/
theorem holds_gated (test : Test) (parents : List Signal) :
    (gated test parents).holds configuration set bar =
      ((test.predicate configuration).holds set bar &&
        (parents.map (holds configuration set bar)).all fun input => input) := by
  rw [holds, predicate, Predicate.holds_conjunction, List.all_cons, predicates_eq_map,
    List.all_map, List.all_map]
  rfl

/-- A conjunction holds if all its inputs do. -/
theorem holds_all (inputs : List Signal) :
    (all inputs).holds configuration set bar =
      (inputs.map (holds configuration set bar)).all fun input => input := by
  rw [holds, predicate, Predicate.holds_conjunction, predicates_eq_map, List.all_map,
    List.all_map]
  rfl

/-- A disjunction holds if one of its inputs does or if there is none. -/
theorem holds_any (inputs : List Signal) :
    (any inputs).holds configuration set bar =
      ((inputs.map (holds configuration set bar)).isEmpty ||
        (inputs.map (holds configuration set bar)).any fun input => input) := by
  rw [holds, predicate, Predicate.holds_disjunction, predicates_eq_map, List.isEmpty_map,
    List.isEmpty_map, List.any_map, List.any_map]
  rfl

/-- A negation holds if its input does not. -/
theorem holds_negation (input : Signal) :
    (negation input).holds configuration set bar =
      !input.holds configuration set bar := by
  rw [holds, predicate, Predicate.holds]
  rfl

end Signal

namespace Graph

/-- A node denotes whether the signal it sends holds. -/
theorem denotes_signal
    {graph : Graph}
    {path : List NodeId}
    {id : NodeId}
    {signal : Signal}
    (unfolded : graph.signal path id = .ok signal) :
    graph.Denotes configuration set bar id (signal.holds configuration set bar) := by
  refine unfolding_induction
    (motive := fun id signal =>
      graph.Denotes configuration set bar id (signal.holds configuration set bar))
    ?gated ?all ?any ?negation unfolded
  case gated =>
    intro id subject condition operand parents kind found related
    have isTest : Test.IsTestOf graph { node := id, subject, condition, operand } := found
    refine .of_inputs kind (List.forall₂_map_right_iff.2 related) ?_
    rw [holdsFrom?, Signal.holds_gated, Test.holds_predicate isTest]
  case all =>
    intro id inputs kind related
    refine .of_inputs kind (List.forall₂_map_right_iff.2 related) ?_
    rw [holdsFrom?, Signal.holds_all]
  case any =>
    intro id inputs kind related
    refine .of_inputs kind (List.forall₂_map_right_iff.2 related) ?_
    rw [holdsFrom?, Signal.holds_any]
  case negation =>
    intro id parent input kind single inner
    have related :
        List.Forall₂ (graph.Denotes configuration set bar) (graph.flowParents id)
          [input.holds configuration set bar] := by
      rw [single]
      exact .cons inner .nil
    refine .of_inputs kind related ?_
    rw [holdsFrom?, Signal.holds_negation]

/-- An action node denotes whether the predicate of its rule holds. -/
theorem denotes_action
    {graph : Graph}
    {node : Node}
    {action : PlannedAction}
    {rule : ActionRule}
    (isNode : graph.node? node.id = some node)
    (plans : graph.PlansAction node action)
    (ruled : action.rule configuration = .ok rule) :
    graph.Denotes configuration set bar node.id (rule.predicate.holds set bar) := by
  obtain ⟨_, sizing, _, rfl⟩ := PlannedAction.rule_eq_ok_iff.1 ruled
  have related :
      List.Forall₂ (graph.Denotes configuration set bar) (graph.flowParents node.id)
        (action.inputs.map (Signal.holds configuration set bar)) :=
    List.forall₂_map_right_iff.2
      (plans.inputs.imp fun parent input unfolded => denotes_signal unfolded)
  have kind :
      (graph.node? node.id).map Node.kind =
        some (.action action.side action.mode action.amount) := by
    rw [isNode, Option.map_some, plans.kind]
  refine .of_inputs kind related ?_
  rw [holdsFrom?, ← Signal.holds_all, Signal.holds, Signal.predicate]

/-- Compilation preserves the meaning of a graph: there is one rule for every
action node, in node order, and at every bar of every run its predicate is true
or false as the node is in the graph. -/
theorem compile_preserves_meaning
    {graph : Graph}
    {configuration : Configuration}
    {compilation : Compilation}
    (accepted : graph.compile configuration = .ok compilation) :
    List.Forall₂
      (fun node rule =>
        rule.node = node.id ∧
          ∀ (set : SeriesSet Value) (bar : Nat) (truth : Bool),
            graph.Denotes configuration set bar node.id truth ↔
              rule.predicate.holds set bar = truth)
      graph.actions compilation.strategy.actions := by
  obtain ⟨valid, rfl, planned, compiles⟩ := compilesTo_of_compile accepted
  have distinct := distinct_of_check valid.checked
  have found : ∀ node ∈ valid.graph.actions, valid.graph.node? node.id = some node :=
    fun node member => node_of_mem distinct (List.mem_of_mem_filter member)
  have ruled := Outcome.forall₂_comp (plansAction_of_plannedActions compiles.plans) compiles.rules
  refine ((List.forall₂_and_left _ _).2 ⟨found, ruled⟩).imp ?_
  rintro node rule ⟨isNode, action, plans, outcome⟩
  refine ⟨?_, fun set bar truth => ?_⟩
  · obtain ⟨_, sizing, _, rfl⟩ := PlannedAction.rule_eq_ok_iff.1 outcome
    exact plans.identity
  · have denotes :
        valid.graph.Denotes configuration set bar node.id
          (rule.predicate.holds set bar) :=
      denotes_action isNode plans outcome
    constructor
    · intro other
      exact denotes.unique other
    · intro equal
      exact equal ▸ denotes

/-- A graph in which the crossing of close and open within two bars feeds a
disjunction, a falling open a negation, and both a purchase. The two conditions
compare with each other, and a gate that feeds nothing flows into itself. -/
def crossing : Graph where
  nodes := [
    ⟨"cross", .condition (.price .close) ⟨.crossesAbove, none, 1, 2⟩⟩,
    ⟨"fall", .condition (.price .opening) ⟨.less, none, 1, 0⟩⟩,
    ⟨"either", .gate .or⟩,
    ⟨"unless", .gate .not⟩,
    ⟨"idle", .gate .and⟩,
    ⟨"enter", .action .buy .allAvailable none⟩]
  edges := [
    ⟨"1", "cross", "either", .flow⟩,
    ⟨"2", "fall", "either", .flow⟩,
    ⟨"3", "fall", "unless", .flow⟩,
    ⟨"4", "either", "enter", .flow⟩,
    ⟨"5", "unless", "enter", .flow⟩,
    ⟨"6", "idle", "idle", .flow⟩,
    ⟨"7", "fall", "cross", .compareInput⟩,
    ⟨"8", "cross", "fall", .compareInput⟩]

theorem check_crossing :
    crossing.check = .ok ["fall", "cross", "unless", "either", "enter", "cross", "fall"] := by
  cbv

theorem exists_compile_crossing :
    ∃ compilation, crossing.compile .default = .ok compilation := by
  rw [compile_of_check check_crossing]
  exact ⟨_, by cbv⟩

theorem compile_preserves_meaning_crossing :
    ∃ compilation,
      crossing.compile .default = .ok compilation ∧
        List.Forall₂
          (fun node rule =>
            rule.node = node.id ∧
              ∀ (set : SeriesSet Float) (bar : Nat) (truth : Bool),
                crossing.Denotes .default set bar node.id truth ↔
                  rule.predicate.holds set bar = truth)
          crossing.actions compilation.strategy.actions := by
  obtain ⟨compilation, compiled⟩ := exists_compile_crossing
  exact ⟨compilation, compiled, compile_preserves_meaning compiled⟩

end Graph
end StrategyGraph
