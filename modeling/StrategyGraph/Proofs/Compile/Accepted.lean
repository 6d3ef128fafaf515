import StrategyGraph.Compile.Compilation
import StrategyGraph.Proofs.Outcome

/-!
# Accepted graphs

A graph is accepted if it compiles. This module takes a successful compilation
apart: the checks that have passed, the plan of the actions and where every part
of the compiled strategy comes from.
-/

namespace StrategyGraph
namespace Graph

/-- A graph that passes its checks is compiled as it is. -/
theorem compile_of_check
    {graph : Graph}
    {reachable : List NodeId}
    (checked : graph.check = .ok reachable)
    (configuration : Configuration) :
    graph.compile configuration =
      ValidGraph.compile ⟨graph, reachable, checked⟩ configuration := by
  have validated : graph.validate = .ok ⟨graph, reachable, checked⟩ := by
    unfold validate
    split
    next found outcome =>
      have equal : found = reachable := Except.ok.inj (outcome.symm.trans checked)
      subst found
      rfl
    next error outcome => cases outcome.symm.trans checked
  rw [compile, validated]

/-- An accepted graph has passed its checks. -/
theorem check_of_compile
    {graph : Graph}
    {configuration : Configuration}
    {compilation : Compilation}
    (accepted : graph.compile configuration = .ok compilation) :
    ∃ reachable, ∃ checked : graph.check = .ok reachable,
      ValidGraph.compile ⟨graph, reachable, checked⟩ configuration =
        .ok compilation := by
  unfold compile at accepted
  split at accepted
  next error refused => cases accepted
  next valid validated =>
    unfold validate at validated
    split at validated
    next reachable checked =>
      exact ⟨reachable, checked, Except.ok.inj validated ▸ accepted⟩
    next error refused => cases validated

/-- What planning makes of an action node. -/
structure PlansAction (graph : Graph) (node : Node) (planned : PlannedAction) : Prop where
  identity : planned.node = node.id
  kind : node.kind = .action planned.side planned.mode planned.amount
  inputs :
    List.Forall₂ (fun parent input => graph.signal [] parent = .ok input)
      (graph.flowParents node.id) planned.inputs

/-- Planning succeeds with one planned action for every action node, in node
order. -/
theorem plansAction_of_plannedActions
    {graph : Graph}
    {planned : List PlannedAction}
    (plans : graph.plannedActions = .ok planned) :
    List.Forall₂ graph.PlansAction graph.actions planned := by
  refine (Outcome.mapM_eq_ok_iff.1 plans).imp fun node action outcome => ?_
  split at outcome
  next side mode amount isAction =>
    obtain ⟨inputs, unfolded, equal⟩ := Outcome.bind_eq_ok_iff.1 outcome
    cases equal
    exact ⟨rfl, isAction, Outcome.mapM_eq_ok_iff.1 unfolded⟩
  next => cases outcome

end Graph

namespace PlannedAction

theorem sizing_eq_ok_iff {action : PlannedAction} {sizing : Sizing} :
    action.sizing = .ok sizing ↔
      Sizing.ofMode? action.mode action.amount = some sizing := by
  unfold PlannedAction.sizing
  cases Sizing.ofMode? action.mode action.amount <;> simp

/-- The rule of a planned action, once its parameters are resolved and its sizing is known. -/
theorem rule_eq_ok_iff
    {configuration : Configuration}
    {action : PlannedAction}
    {rule : ActionRule} :
    action.rule configuration = .ok rule ↔
      (∀ test ∈ Signal.testsOf action.inputs, test.resolve configuration = .ok ()) ∧
      ∃ sizing, Sizing.ofMode? action.mode action.amount = some sizing ∧
        rule = {
          node := action.node
          side := action.side
          direction := .ofSide action.side
          predicate := .conjunction (Signal.predicates configuration action.inputs)
          sizing := sizing } := by
  unfold PlannedAction.rule
  rw [Outcome.check_then_eq_ok_iff, Outcome.forM_eq_ok_iff, Outcome.bind_eq_ok_iff]
  refine and_congr_right' (exists_congr fun sizing => and_congr sizing_eq_ok_iff ?_)
  exact ⟨fun equal => (Except.ok.inj equal).symm, fun equal => congrArg Except.ok equal.symm⟩

end PlannedAction

namespace ValidGraph

/-- A valid graph compiles exactly when the configuration is accepted, the lenient
compilation succeeds and a strict configuration has nothing to warn about. -/
theorem compile_eq_ok_iff
    {valid : ValidGraph}
    {configuration : Configuration}
    {compilation : Compilation} :
    valid.compile configuration = .ok compilation ↔
      configuration.check = .ok () ∧
        valid.compileLenient configuration = .ok compilation ∧
        (configuration.strict = true -> compilation.warnings = []) := by
  unfold compile
  cases configuration.check with
  | error error => simp
  | ok checked =>
      cases valid.compileLenient configuration with
      | error error => simp
      | ok lenient =>
          dsimp only
          split
          next promoted =>
            simp only [Bool.and_eq_true, Bool.not_eq_true', List.isEmpty_eq_false_iff] at promoted
            constructor
            · intro refused
              cases refused
            · rintro ⟨_, equal, silent⟩
              cases equal
              exact absurd (silent promoted.1) promoted.2
          next tolerated =>
            simp only [Bool.and_eq_true, Bool.not_eq_true', List.isEmpty_eq_false_iff,
              not_and, not_not] at tolerated
            constructor
            · intro equal
              cases equal
              exact ⟨rfl, rfl, tolerated⟩
            · rintro ⟨_, equal, _⟩
              cases equal
              rfl

/-- Where the parts of a compilation come from. -/
structure CompilesTo
    (valid : ValidGraph)
    (configuration : Configuration)
    (planned : List PlannedAction)
    (compilation : Compilation) : Prop where
  plans : valid.graph.plannedActions = .ok planned
  rules :
    List.Forall₂ (fun action rule => PlannedAction.rule configuration action = .ok rule)
      planned compilation.strategy.actions
  exits :
    compilation.strategy.exits =
      valid.graph.plannedExits.map (PlannedExit.rule configuration)
  indicators :
    compilation.strategy.indicators =
      distinctSeries
        (planned.flatMap (PlannedAction.reads configuration) ++
          valid.graph.plannedExits.filterMap (PlannedExit.atr? configuration))
  stateSlots :
    compilation.strategy.stateSlots = StateSlot.ofExits compilation.strategy.exits
  warnings :
    compilation.warnings =
      (planned.flatMap (PlannedAction.warnings configuration) ++
        valid.graph.plannedExits.flatMap (PlannedExit.warnings configuration) ++
        valid.unreachable.map Warning.unreachableNode).eraseDups

theorem compilesTo_of_compileLenient
    {valid : ValidGraph}
    {configuration : Configuration}
    {compilation : Compilation}
    (compiled : valid.compileLenient configuration = .ok compilation) :
    ∃ planned, valid.CompilesTo configuration planned compilation := by
  obtain ⟨planned, plans, remaining⟩ := Outcome.bind_eq_ok_iff.1 compiled
  obtain ⟨rules, ruled, equal⟩ := Outcome.bind_eq_ok_iff.1 remaining
  cases equal
  exact ⟨planned, plans, Outcome.mapM_eq_ok_iff.1 ruled, rfl, rfl, rfl, rfl⟩

end ValidGraph

namespace Graph

/-- An accepted graph is valid and its compilation comes from its plan. -/
theorem compilesTo_of_compile
    {graph : Graph}
    {configuration : Configuration}
    {compilation : Compilation}
    (accepted : graph.compile configuration = .ok compilation) :
    ∃ valid : ValidGraph, valid.graph = graph ∧
      ∃ planned, valid.CompilesTo configuration planned compilation := by
  obtain ⟨reachable, checked, compiled⟩ := check_of_compile accepted
  exact ⟨⟨graph, reachable, checked⟩, rfl,
    ValidGraph.compilesTo_of_compileLenient (ValidGraph.compile_eq_ok_iff.1 compiled).2.1⟩

end Graph
end StrategyGraph
