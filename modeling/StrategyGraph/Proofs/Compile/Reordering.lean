import StrategyGraph.Proofs.Compile.Correspondence
import StrategyGraph.Proofs.Compile.Distinct
import StrategyGraph.Proofs.Compile.Meaning
import StrategyGraph.Proofs.Compile.Tests
import StrategyGraph.Proofs.Graph.Reordering
import StrategyGraph.Proofs.Predicate.Likeness

/-!
# Compiling graphs in another order

A reordering of an accepted graph is accepted. Nodes flow into gates and actions in
another order, and rules stand in another order, but the predicates are alike, the same
series are read and the same is warned about. Where edges keep their order, and so do
actions and exits among themselves, the strategy is the same.
-/

namespace StrategyGraph

/-! ## Signals -/

namespace Signal

/-- Two signals test the same and have predicates that say the same. -/
structure Alike (configuration : Configuration) (first second : Signal) : Prop where
  tests : ∀ test, test ∈ first.tests ↔ test ∈ second.tests
  predicate : (first.predicate configuration).Alike (second.predicate configuration)

namespace Alike

variable {configuration : Configuration} {inputs others : List Signal}

theorem testsOf (matched : Matched (Alike configuration) inputs others) (test : Test) :
    test ∈ testsOf inputs ↔ test ∈ testsOf others := by
  rw [testsOf_eq_flatMap, testsOf_eq_flatMap]
  exact matched.mem_flatMap_iff (fun _ _ alike => alike.tests) test

theorem predicates (matched : Matched (Alike configuration) inputs others) :
    Matched Predicate.Alike (predicates configuration inputs)
      (predicates configuration others) := by
  rw [predicates_eq_map, predicates_eq_map]
  exact matched.map fun _ _ alike => alike.predicate

theorem gated (test : Test) (matched : Matched (Alike configuration) inputs others) :
    (Signal.gated test inputs).Alike configuration (.gated test others) where
  tests other := by
    rw [Signal.tests, Signal.tests, List.mem_cons, List.mem_cons, testsOf matched]
  predicate := by
    rw [Signal.predicate, Signal.predicate]
    exact .conjunction (.cons (.refl _) (predicates matched))

theorem all (matched : Matched (Alike configuration) inputs others) :
    (Signal.all inputs).Alike configuration (.all others) where
  tests := testsOf matched
  predicate := by
    rw [Signal.predicate, Signal.predicate]
    exact .conjunction (predicates matched)

theorem any (matched : Matched (Alike configuration) inputs others) :
    (Signal.any inputs).Alike configuration (.any others) where
  tests := testsOf matched
  predicate := by
    rw [Signal.predicate, Signal.predicate]
    exact .disjunction (predicates matched)

theorem negation {input other : Signal} (alike : input.Alike configuration other) :
    (Signal.negation input).Alike configuration (.negation other) where
  tests := alike.tests
  predicate := by
    rw [Signal.predicate, Signal.predicate]
    exact alike.predicate.negation

end Alike
end Signal

namespace Graph

namespace Reorders

variable
  {graph other : Graph}
  (reorders : other.Reorders graph)
  (wellFormed : graph.WellFormed)

include reorders wellFormed

/-- The compiler finds the same at each node, in another order. -/
theorem corresponds : graph.Corresponds other where
  kind id _ := by rw [reorders.kind_eq wellFormed]
  operand id _ := by rw [reorders.operand_eq wellFormed]
  flowParents id _ := reorders.flowParents id

/-- Where edges keep their order, and so do actions and exits among themselves, it finds
the same. -/
theorem coincides
    (edges : other.edges = graph.edges)
    (actions : other.actions = graph.actions)
    (exits : other.exits = graph.exits) :
    graph.Coincides other where
  toCorresponds := reorders.corresponds wellFormed
  inOrder id _ := by rw [Graph.flowParents, edges, Graph.flowParents]
  actions := actions
  exits := exits

end Reorders

/-- A node that feeds an action sends signals of one meaning in corresponding graphs. -/
theorem Corresponds.signal_alike
    {graph other : Graph}
    (corresponds : graph.Corresponds other)
    (configuration : Configuration)
    {path pathOther : List NodeId}
    {id : NodeId}
    {signal signalOther : Signal}
    (feeds : graph.FeedsAction id)
    (unfolded : graph.signal path id = .ok signal)
    (unfoldedOther : other.signal pathOther id = .ok signalOther) :
    signal.Alike configuration signalOther := by
  refine corresponds.signals_induction ?inputs (fun test _ _ => .gated test)
    (fun _ _ => .all) (fun _ _ => .any) (fun _ _ => .negation) feeds unfolded unfoldedOther
  case inputs =>
    intro id pathOther parents parentsOther feeds relates relatesOther
    exact .of_forall₂ (.of_perm (corresponds.flowParents id feeds).symm) relates relatesOther
      fun _ _ _ inputOther same alike unfoldedOther =>
        alike pathOther inputOther (same ▸ unfoldedOther)

end Graph

/-! ## Rules -/

/-- Two rules of one node place the same orders where predicates that say the same hold. -/
structure ActionRule.Alike (first second : ActionRule) : Prop where
  node : first.node = second.node
  direction : first.direction = second.direction
  sizing : first.sizing = second.sizing
  predicate : first.predicate.Alike second.predicate

/-- Two plans of one action, into which signals of one meaning flow. -/
structure PlannedAction.Alike
    (configuration : Configuration)
    (first second : PlannedAction) : Prop where
  node : first.node = second.node
  side : first.side = second.side
  mode : first.mode = second.mode
  amount : first.amount = second.amount
  inputs : Matched (Signal.Alike configuration) first.inputs second.inputs

namespace PlannedAction.Alike

variable
  {configuration : Configuration}
  {action other : PlannedAction}
  (alike : action.Alike configuration other)

include alike

theorem rule
    {rule ruleOther : ActionRule}
    (ruled : action.rule configuration = .ok rule)
    (ruledOther : other.rule configuration = .ok ruleOther) :
    rule.Alike ruleOther := by
  obtain ⟨_, sizing, sized, rfl⟩ := rule_eq_ok_iff.1 ruled
  obtain ⟨_, sizingOther, sizedOther, rfl⟩ := rule_eq_ok_iff.1 ruledOther
  rw [← alike.mode, ← alike.amount, sized] at sizedOther
  exact {
    node := alike.node
    direction := congrArg Direction.ofSide alike.side
    sizing := Option.some.inj sizedOther
    predicate := .conjunction (Signal.Alike.predicates alike.inputs) }

theorem mem_reads_iff (series : IndicatorSeries) :
    series ∈ action.reads configuration ↔ series ∈ other.reads configuration := by
  simp only [reads, List.mem_flatMap, Signal.Alike.testsOf alike.inputs]

theorem mem_warnings_iff (warning : Warning) :
    warning ∈ action.warnings configuration ↔ warning ∈ other.warnings configuration := by
  simp only [warnings, List.mem_append, List.mem_flatMap, Signal.Alike.testsOf alike.inputs,
    alike.node, alike.mode, alike.amount, alike.inputs.isEmpty_eq]

end PlannedAction.Alike

/-- Two strategies whose rules do the same, in whatever order they stand. -/
structure Strategy.Alike (first second : Strategy) : Prop where
  actions : Matched ActionRule.Alike first.actions second.actions
  exits : first.exits.Perm second.exits
  indicators : ∀ key,
    key ∈ first.indicators.map IndicatorSeries.key ↔
      key ∈ second.indicators.map IndicatorSeries.key

/-- Two compilations to strategies that do the same, with the same warnings. -/
structure Compilation.Alike (first second : Compilation) : Prop where
  strategy : first.strategy.Alike second.strategy
  warnings : ∀ warning, warning ∈ first.warnings ↔ warning ∈ second.warnings

namespace Graph.Reorders

/-! ## Compilations -/

section

variable
  {valid other : ValidGraph}
  (reorders : other.graph.Reorders valid.graph)
  {configuration : Configuration}
  {planned plannedOther : List PlannedAction}
  {compilation compilationOther : Compilation}

include reorders

theorem plannedExits : other.graph.plannedExits.Perm valid.graph.plannedExits :=
  reorders.nodes.filterMap _

theorem unreachable : other.unreachable.Perm valid.unreachable := by
  unfold ValidGraph.unreachable
  rw [ValidGraph.isReachable_eq reorders]
  exact (reorders.nodes.filter _).map Node.id

/-- Actions have the same plans, but for the order of what flows in. -/
theorem plannedActions
    (configuration : Configuration)
    (plans : valid.graph.plannedActions = .ok planned)
    (plansOther : other.graph.plannedActions = .ok plannedOther) :
    Matched (PlannedAction.Alike configuration) planned plannedOther := by
  have corresponds := reorders.corresponds (wellFormed_of_check valid.checked)
  refine .of_forall₂ (.of_perm reorders.actions.symm) (feedingPlans_of_plannedActions plans)
    (plansAction_of_plannedActions plansOther) ?_
  rintro node _ action actionOther rfl ⟨feeds, isPlan⟩ isPlanOther
  have kinds := isPlan.kind.symm.trans isPlanOther.kind
  cases action with
  | mk name side mode amount inputs =>
  cases actionOther with
  | mk nameOther sideOther modeOther amountOther inputsOther =>
  cases kinds
  exact {
    node := isPlan.identity.trans isPlanOther.identity.symm
    side := rfl
    mode := rfl
    amount := rfl
    inputs := by
      refine .of_forall₂ (.of_perm (reorders.flowParents node.id).symm)
        (feeds.inputs isPlan.inputs) isPlanOther.inputs ?_
      rintro _ _ _ _ same ⟨feedsParent, unfolded⟩ unfoldedOther
      exact corresponds.signal_alike configuration feedsParent unfolded (same ▸ unfoldedOther) }

/-- The strategies do the same and the same is warned about. -/
theorem compilation_alike
    (compiles : valid.CompilesTo configuration planned compilation)
    (compilesOther : other.CompilesTo configuration plannedOther compilationOther) :
    compilation.Alike compilationOther := by
  have actions := reorders.plannedActions configuration compiles.plans compilesOther.plans
  refine ⟨⟨?actions, ?exits, fun key => ?indicators⟩, fun warning => ?warnings⟩
  case actions =>
    exact actions.of_forall₂ compiles.rules compilesOther.rules
      fun _ _ _ _ alike ruled ruledOther => alike.rule ruled ruledOther
  case exits =>
    rw [compiles.exits, compilesOther.exits]
    exact (reorders.plannedExits.map _).symm
  case indicators =>
    rw [compiles.indicators, compilesOther.indicators, mem_keys_distinctSeries_iff,
      mem_keys_distinctSeries_iff]
    simp only [List.mem_map, List.mem_append,
      actions.mem_flatMap_iff fun _ _ alike => alike.mem_reads_iff,
      (reorders.plannedExits.filterMap _).mem_iff]
  case warnings =>
    rw [compiles.warnings, compilesOther.warnings, List.mem_eraseDups, List.mem_eraseDups]
    simp only [List.mem_append, actions.mem_flatMap_iff fun _ _ alike => alike.mem_warnings_iff,
      (reorders.plannedExits.flatMap_right _).mem_iff,
      (reorders.unreachable.map _).mem_iff]

end

/-- A reordering of an accepted graph is accepted. -/
theorem exists_compile
    {graph other : Graph}
    (reorders : other.Reorders graph)
    {configuration : Configuration}
    {compilation : Compilation}
    (accepted : graph.compile configuration = .ok compilation) :
    ∃ compilationOther,
      other.compile configuration = .ok compilationOther ∧
      compilation.Alike compilationOther ∧
      (other.edges = graph.edges -> other.actions = graph.actions ->
        other.exits = graph.exits -> compilation.strategy = compilationOther.strategy) := by
  obtain ⟨reachable, checked, compiled⟩ := check_of_compile accepted
  obtain ⟨inOrder, lenient, strict⟩ := ValidGraph.compile_eq_ok_iff.1 compiled
  obtain ⟨reachableOther, checkedOther⟩ :=
    (reorders.wellFormed (wellFormed_of_check checked)).exists_check
  obtain ⟨compilationOther, lenientOther⟩ :=
    ValidGraph.exists_compileLenient ⟨other, reachableOther, checkedOther⟩ configuration
  obtain ⟨planned, compiles⟩ := ValidGraph.compilesTo_of_compileLenient lenient
  obtain ⟨plannedOther, compilesOther⟩ := ValidGraph.compilesTo_of_compileLenient lenientOther
  have alike : compilation.Alike compilationOther :=
    reorders.compilation_alike compiles compilesOther
  have silent : configuration.strict = true -> compilationOther.warnings = [] := by
    intro isStrict
    refine List.eq_nil_iff_forall_not_mem.2 fun warning warns => ?_
    have warnsFirst := (alike.warnings warning).2 warns
    rw [strict isStrict] at warnsFirst
    cases warnsFirst
  refine ⟨compilationOther, ?_, alike, fun edges actions exits => ?_⟩
  · rw [compile_of_check checkedOther]
    exact ValidGraph.compile_eq_ok_iff.2 ⟨inOrder, lenientOther, silent⟩
  · have coincides := reorders.coincides (wellFormed_of_check checked) edges actions exits
    exact coincides.strategy_eq compiles compilesOther

end Graph.Reorders
end StrategyGraph
