import StrategyGraph.Proofs.Compile.Tests

/-!
# Warnings of accepted graphs

What a graph has to be warned about is said of its nodes and edges, one rule for each kind
of warning. The compiler meets a node once for every path, but it reports exactly what is
due, and once each: the tests behind actions are those of the conditions that feed one, and
with their operands they observe just the nodes that are reachable.
-/

namespace StrategyGraph

/-- Only the first occurrence of an item is kept. -/
theorem nodup_eraseDups [BEq Item] [LawfulBEq Item] (items : List Item) :
    items.eraseDups.Nodup := by
  cases items with
  | nil => exact List.nodup_nil
  | cons first items =>
      rw [List.eraseDups_cons, List.nodup_cons, List.mem_eraseDups, List.mem_filter]
      exact ⟨fun ⟨_, differs⟩ => by simp at differs, nodup_eraseDups _⟩
termination_by items.length
decreasing_by exact Nat.lt_succ_of_le (List.length_filter_le _ _)

/-! ## Parameters -/

theorem Indicator.parameter?_eq_none_iff {line : Indicator} {name : String} :
    line.parameter? name = none ↔ ∀ parameter ∈ line.parameters, parameter.name ≠ name := by
  simp [parameter?]

/-- An indicator warns about the parameters it leaves out and about names it does not
know. -/
theorem Subject.mem_warnings_iff
    {configuration : Configuration}
    {id : NodeId}
    {subject : Subject}
    {warning : Warning} :
    warning ∈ subject.warnings configuration id ↔
      ∃ line given, subject = .indicator line given ∧
        ((∃ parameter ∈ line.parameters, given.find? parameter.name = none ∧
            warning = .defaultParameter id line parameter.name
              (Indicator.fallback (configuration.overrides line) parameter)) ∨
          ∃ name ∈ given.names, (∀ parameter ∈ line.parameters, parameter.name ≠ name) ∧
            warning = .unknownParameter id name) := by
  cases subject with
  | price column => simp [warnings]
  | value constant => simp [warnings]
  | indicator line given =>
      simp only [warnings, Indicator.defaulted, Indicator.unknown, List.mem_append,
        List.mem_map, List.mem_filterMap, List.mem_filter, Option.isNone_iff_eq_none,
        Indicator.parameter?_eq_none_iff]
      constructor
      · rintro (⟨entry, ⟨parameter, isParameter, kept⟩, rfl⟩ | ⟨name, ⟨isGiven, unknown⟩, rfl⟩)
        · cases omitted : given.find? parameter.name with
          | some value =>
              rw [omitted] at kept
              cases kept
          | none =>
              rw [omitted] at kept
              cases kept
              exact ⟨line, given, rfl, Or.inl ⟨parameter, isParameter, omitted, rfl⟩⟩
        · exact ⟨line, given, rfl, Or.inr ⟨name, isGiven, unknown, rfl⟩⟩
      · rintro ⟨_, _, same, ⟨parameter, isParameter, omitted, rfl⟩ |
          ⟨name, isGiven, unknown, rfl⟩⟩
        · cases same
          exact Or.inl ⟨_, ⟨parameter, isParameter, by rw [omitted]⟩, rfl⟩
        · cases same
          exact Or.inr ⟨name, ⟨isGiven, unknown⟩, rfl⟩

/-- A test warns about what it observes. -/
theorem Test.Observes.warns
    {configuration : Configuration}
    {test : Test}
    {id : NodeId}
    {subject : Subject}
    (observes : test.Observes id subject) :
    ∀ warning ∈ subject.warnings configuration id, warning ∈ test.warnings configuration := by
  intro warning warns
  obtain ⟨node, observed, condition, operand⟩ := test
  rcases observes with ⟨rfl, rfl⟩ | rfl
  · exact List.mem_append_left _ warns
  · exact List.mem_append_right _ (List.mem_append_right _ warns)

namespace Graph

/-- What there is to warn about in a graph. -/
inductive Due (graph : Graph) (configuration : Configuration) : Warning -> Prop
  /-- A reachable indicator leaves out a parameter. -/
  | defaultParameter
      {id : NodeId}
      {line : Indicator}
      {given : Dictionary Float}
      {condition : Condition}
      {parameter : Parameter}
      (isNode : ⟨id, .condition (.indicator line given) condition⟩ ∈ graph.nodes)
      (reachable : graph.Reachable id)
      (isParameter : parameter ∈ line.parameters)
      (omitted : given.find? parameter.name = none) :
      Due graph configuration
        (.defaultParameter id line parameter.name
          (((configuration.overrides line).find? parameter.name).getD parameter.default))
  /-- A reachable indicator is given a parameter that it does not have. -/
  | unknownParameter
      {id : NodeId}
      {line : Indicator}
      {given : Dictionary Float}
      {condition : Condition}
      {name : String}
      (isNode : ⟨id, .condition (.indicator line given) condition⟩ ∈ graph.nodes)
      (reachable : graph.Reachable id)
      (isGiven : name ∈ given.names)
      (unknown : ∀ parameter ∈ line.parameters, parameter.name ≠ name) :
      Due graph configuration (.unknownParameter id name)
  /-- A condition that feeds an action has neither a literal nor a compare edge. -/
  | missingCompareOperand
      {id : NodeId}
      {subject : Subject}
      {condition : Condition}
      (isNode : ⟨id, .condition subject condition⟩ ∈ graph.nodes)
      (feeds : graph.FeedsAction id)
      (noLiteral : condition.compareValue = none)
      (noSource : ∀ source, ¬ graph.Compares source id) :
      Due graph configuration (.missingCompareOperand id)
  /-- A condition that feeds an action has both a literal and a compare edge. -/
  | unusedCompareValue
      {id source : NodeId}
      {subject : Subject}
      {condition : Condition}
      (isNode : ⟨id, .condition subject condition⟩ ∈ graph.nodes)
      (feeds : graph.FeedsAction id)
      (literal : condition.compareValue.isSome = true)
      (compares : graph.Compares source id) :
      Due graph configuration (.unusedCompareValue id)
  /-- Nothing flows into an action. -/
  | ungatedAction
      {id : NodeId}
      {side : Side}
      {mode : SizingMode}
      {amount : Option Float}
      (isNode : ⟨id, .action side mode amount⟩ ∈ graph.nodes)
      (noInput : ∀ source, ¬ graph.Flow source id) :
      Due graph configuration (.ungatedAction id)
  /-- An action that uses all there is has an amount. -/
  | ignoredAmount
      {id : NodeId}
      {side : Side}
      {amount : Float}
      (isNode : ⟨id, .action side .allAvailable (some amount)⟩ ∈ graph.nodes) :
      Due graph configuration (.ignoredAmount id)
  /-- A risk exit in multiples of the range leaves out the period. -/
  | defaultAtrPeriod
      {id : NodeId}
      {kind : ExitKind}
      {magnitude : Float}
      (isNode : ⟨id, .exit kind .atrMultiple magnitude none⟩ ∈ graph.nodes) :
      Due graph configuration (.defaultAtrPeriod id configuration.defaultAtrPeriod)
  /-- A risk exit in other units has a period. -/
  | ignoredAtrPeriod
      {id : NodeId}
      {kind : ExitKind}
      {basis : ExitBasis}
      {magnitude : Float}
      {period : Nat}
      (isNode : ⟨id, .exit kind basis magnitude (some period)⟩ ∈ graph.nodes)
      (otherBasis : basis ≠ .atrMultiple) :
      Due graph configuration (.ignoredAtrPeriod id)
  /-- A node is neither an action nor a risk exit, and it is not reachable. -/
  | unreachableNode
      {id : NodeId}
      (idle : graph.Idle id) :
      Due graph configuration (.unreachableNode id)

variable {graph : Graph} {configuration : Configuration} {id : NodeId}

/-! ## Conditions -/

/-- An observed indicator warns about the parameters it leaves out and about names it does not
know. -/
theorem due_of_subject
    {subject : Subject}
    {condition : Condition}
    {warning : Warning}
    (isNode : ⟨id, .condition subject condition⟩ ∈ graph.nodes)
    (reachable : graph.Reachable id)
    (warns : warning ∈ subject.warnings configuration id) :
    graph.Due configuration warning := by
  obtain ⟨line, given, rfl, ⟨parameter, isParameter, omitted, rfl⟩ |
    ⟨name, isGiven, unknown, rfl⟩⟩ := Subject.mem_warnings_iff.1 warns
  · exact .defaultParameter isNode reachable isParameter omitted
  · exact .unknownParameter isNode reachable isGiven unknown

section

variable (wellFormed : graph.WellFormed)

include wellFormed

/-- A test that feeds an action warns about what is due. -/
theorem States.due
    {test : Test}
    (states : graph.States test)
    (feeds : graph.FeedsAction test.node)
    {warning : Warning}
    (warns : warning ∈ test.warnings configuration) :
    graph.Due configuration warning := by
  obtain ⟨id, subject, condition, operand⟩ := test
  have isNode := (kind_eq_some_iff wellFormed.distinct).1 states.kind
  rcases List.mem_append.1 warns with observed | compared
  · exact due_of_subject isNode (Or.inl feeds) observed
  · rcases operand_cases wellFormed states.operand with
      ⟨source, other, _, compares, isSource, rfl⟩ |
      ⟨noSource, ⟨constant, literal, rfl⟩ | ⟨noLiteral, rfl⟩⟩
    · rcases List.mem_append.1 compared with unused | observed
      · split at unused
        next literal =>
          cases List.mem_singleton.1 unused
          exact .unusedCompareValue isNode feeds literal compares
        next => cases unused
      · exact due_of_subject isSource (Or.inr ⟨id, compares, feeds⟩) observed
    · cases compared
    · cases List.mem_singleton.1 compared
      exact .missingCompareOperand isNode feeds noLiteral noSource

end

/-! ## Actions and risk exits -/

/-- What an action warns about besides its tests. -/
def OwnWarning (graph : Graph) (node : Node) (warning : Warning) : Prop :=
  (∀ source, ¬ graph.Flow source node.id) ∧ warning = .ungatedAction node.id ∨
    (∃ side amount, node.kind = .action side .allAvailable (some amount)) ∧
      warning = .ignoredAmount node.id

theorem PlansAction.mem_warnings_iff
    {node : Node}
    {action : PlannedAction}
    (plans : graph.PlansAction node action)
    (warning : Warning) :
    warning ∈ action.warnings configuration ↔
      graph.OwnWarning node warning ∨
        ∃ test ∈ Signal.testsOf action.inputs, warning ∈ test.warnings configuration := by
  have ignored :
      (action.mode = .allAvailable ∧ action.amount.isSome = true) ↔
        ∃ side amount, node.kind = .action side .allAvailable (some amount) := by
    rw [plans.kind]
    simp [Option.isSome_iff_exists]
  rw [PlannedAction.warnings, OwnWarning, ← isEmpty_inputs_iff plans.inputs, ← ignored,
    ← plans.identity, List.mem_append, List.mem_append, List.mem_flatMap, or_right_comm]
  refine or_congr_left (or_congr ?_ ?_)
  · by_cases noInput : action.inputs.isEmpty = true <;> simp [noInput]
  · by_cases unused : action.mode = .allAvailable ∧ action.amount.isSome = true <;>
      simp [unused]

/-- A risk exit of the graph is planned as it is stated. -/
theorem mem_plannedExits_iff {planned : PlannedExit} :
    planned ∈ graph.plannedExits ↔
      ⟨planned.node, .exit planned.kind planned.basis planned.magnitude planned.atrPeriod⟩ ∈
        graph.nodes := by
  rw [plannedExits, List.mem_filterMap]
  constructor
  · rintro ⟨⟨id, kind⟩, isNode, plans⟩
    cases kind with
    | exit kind basis magnitude atrPeriod =>
        cases plans
        exact isNode
    | _ => cases plans
  · exact fun isNode => ⟨_, isNode, rfl⟩

/-- A risk exit that is warned about leaves out the period it needs or has one it does not
need. -/
theorem mem_exitWarnings_iff {planned : PlannedExit} {warning : Warning} :
    warning ∈ planned.warnings configuration ↔
      planned.basis = .atrMultiple ∧ planned.atrPeriod = none ∧
          warning = .defaultAtrPeriod planned.node configuration.defaultAtrPeriod ∨
        planned.basis ≠ .atrMultiple ∧ planned.atrPeriod.isSome = true ∧
          warning = .ignoredAtrPeriod planned.node := by
  unfold PlannedExit.warnings
  by_cases inRanges : planned.basis = .atrMultiple
  · cases planned.atrPeriod <;> simp [inRanges]
  · cases planned.atrPeriod <;> simp [inRanges]

/-! ## Compilations -/

section

variable {valid : ValidGraph} {planned : List PlannedAction} {compilation : Compilation}

/-- The plans of all actions warn about each action and about the tests that feed one. -/
theorem exists_planned_warning_iff
    (plans : valid.graph.plannedActions = .ok planned)
    (warning : Warning) :
    (∃ action ∈ planned, warning ∈ action.warnings configuration) ↔
      (∃ node ∈ valid.graph.actions, valid.graph.OwnWarning node warning) ∨
        ∃ test, (valid.graph.States test ∧ valid.graph.FeedsAction test.node) ∧
          warning ∈ test.warnings configuration := by
  have distinct := (wellFormed_of_check valid.checked).distinct
  have eachPlan := plansAction_of_plannedActions plans
  constructor
  · rintro ⟨action, isPlanned, warns⟩
    obtain ⟨node, isAction, isPlan⟩ := Outcome.exists_item_of_forall₂ eachPlan isPlanned
    rcases (isPlan.mem_warnings_iff warning).1 warns with own | ⟨test, inside, ofTest⟩
    · exact Or.inl ⟨node, isAction, own⟩
    · have feeds := (exists_planned_test_iff distinct plans test).1 ⟨action, isPlanned, inside⟩
      exact Or.inr ⟨test, feeds, ofTest⟩
  · rintro (⟨node, isAction, own⟩ | ⟨test, feeds, ofTest⟩)
    · obtain ⟨action, isPlanned, isPlan⟩ :=
        Outcome.exists_item_of_forall₂ eachPlan.flip isAction
      exact ⟨action, isPlanned, (isPlan.mem_warnings_iff warning).2 (Or.inl own)⟩
    · obtain ⟨action, isPlanned, inside⟩ := (exists_planned_test_iff distinct plans test).2 feeds
      obtain ⟨node, _, isPlan⟩ := Outcome.exists_item_of_forall₂ eachPlan isPlanned
      exact ⟨action, isPlanned,
        (isPlan.mem_warnings_iff warning).2 (Or.inr ⟨test, inside, ofTest⟩)⟩

theorem mem_unreachable_iff (id : NodeId) : id ∈ valid.unreachable ↔ valid.graph.Idle id := by
  simp only [ValidGraph.unreachable, Idle, List.mem_map, List.mem_filter,
    ← ValidGraph.isReachable_iff, Bool.and_eq_true, Bool.not_eq_true', Bool.or_eq_false_iff,
    Bool.not_eq_true, and_assoc]

/-- What a compilation warns about comes from actions, from the tests that feed them, from
risk exits and from nodes that are not reachable. -/
theorem mem_warnings_iff
    (compiles : valid.CompilesTo configuration planned compilation)
    (warning : Warning) :
    warning ∈ compilation.warnings ↔
      (∃ node ∈ valid.graph.actions, valid.graph.OwnWarning node warning) ∨
        (∃ test, (valid.graph.States test ∧ valid.graph.FeedsAction test.node) ∧
          warning ∈ test.warnings configuration) ∨
        (∃ exit ∈ valid.graph.plannedExits, warning ∈ exit.warnings configuration) ∨
        ∃ id ∈ valid.unreachable, .unreachableNode id = warning := by
  rw [compiles.warnings, List.mem_eraseDups, List.mem_append, List.mem_append,
    List.mem_flatMap, exists_planned_warning_iff compiles.plans, List.mem_flatMap,
    List.mem_map, or_assoc, or_assoc]

/-- Every warning of a compilation is due. -/
theorem due_of_mem
    (compiles : valid.CompilesTo configuration planned compilation)
    {warning : Warning}
    (warns : warning ∈ compilation.warnings) :
    valid.graph.Due configuration warning := by
  have wellFormed := wellFormed_of_check valid.checked
  rcases (mem_warnings_iff compiles warning).1 warns with ⟨⟨id, kind⟩, isAction, own⟩ |
    ⟨test, ⟨states, feeds⟩, ofTest⟩ | ⟨exit, isExit, ofExit⟩ | ⟨id, isUnreachable, rfl⟩
  · obtain ⟨isNode, acts⟩ := List.mem_filter.1 isAction
    rcases own with ⟨noInput, rfl⟩ | ⟨⟨side, amount, rfl⟩, rfl⟩
    · cases kind with
      | action side mode amount => exact .ungatedAction isNode noInput
      | _ => cases acts
    · exact .ignoredAmount isNode
  · exact states.due wellFormed feeds ofTest
  · obtain ⟨id, kind, basis, magnitude, atrPeriod⟩ := exit
    have isNode := mem_plannedExits_iff.1 isExit
    rcases mem_exitWarnings_iff.1 ofExit with ⟨rfl, rfl, rfl⟩ | ⟨otherBasis, given, rfl⟩
    · exact .defaultAtrPeriod isNode
    · obtain ⟨period, rfl⟩ := Option.isSome_iff_exists.1 given
      exact .ignoredAtrPeriod isNode otherBasis
  · exact .unreachableNode ((mem_unreachable_iff id).1 isUnreachable)

/-- A compilation warns about everything that is due. -/
theorem mem_of_due
    (compiles : valid.CompilesTo configuration planned compilation)
    {warning : Warning}
    (due : valid.graph.Due configuration warning) :
    warning ∈ compilation.warnings := by
  have wellFormed := wellFormed_of_check valid.checked
  have ofAction {node : Node} (isAction : node ∈ valid.graph.actions)
      (own : valid.graph.OwnWarning node warning) :=
    (mem_warnings_iff compiles warning).2 (Or.inl ⟨node, isAction, own⟩)
  have ofTest {test : Test} (states : valid.graph.States test)
      (feeds : valid.graph.FeedsAction test.node)
      (warns : warning ∈ test.warnings configuration) :=
    (mem_warnings_iff compiles warning).2 (Or.inr (Or.inl ⟨test, ⟨states, feeds⟩, warns⟩))
  have ofExit {exit : PlannedExit} (isExit : exit ∈ valid.graph.plannedExits)
      (warns : warning ∈ exit.warnings configuration) :=
    (mem_warnings_iff compiles warning).2 (Or.inr (Or.inr (Or.inl ⟨exit, isExit, warns⟩)))
  cases due with
  | defaultParameter isNode reachable isParameter omitted =>
      obtain ⟨test, ⟨states, feeds⟩, observes⟩ :=
        (exists_observing_test_iff wellFormed).2 ⟨⟨_, isNode⟩, reachable⟩
      refine ofTest states feeds (observes.warns _ (Subject.mem_warnings_iff.2 ?_))
      exact ⟨_, _, rfl, Or.inl ⟨_, isParameter, omitted, rfl⟩⟩
  | unknownParameter isNode reachable isGiven unknown =>
      obtain ⟨test, ⟨states, feeds⟩, observes⟩ :=
        (exists_observing_test_iff wellFormed).2 ⟨⟨_, isNode⟩, reachable⟩
      refine ofTest states feeds (observes.warns _ (Subject.mem_warnings_iff.2 ?_))
      exact ⟨_, _, rfl, Or.inr ⟨_, isGiven, unknown, rfl⟩⟩
  | missingCompareOperand isNode feeds noLiteral noSource =>
      obtain ⟨operand, states⟩ := exists_states wellFormed isNode
      refine ofTest states feeds (List.mem_append_right _ ?_)
      rcases operand_cases wellFormed states.operand with
        ⟨source, _, _, compares, _⟩ | ⟨_, ⟨constant, literal, _⟩ | ⟨_, rfl⟩⟩
      · exact (noSource source compares).elim
      · cases literal.symm.trans noLiteral
      · exact List.mem_singleton_self _
  | @unusedCompareValue id source _ _ isNode feeds literal compares =>
      obtain ⟨operand, states⟩ := exists_states wellFormed isNode
      refine ofTest states feeds (List.mem_append_right _ ?_)
      rcases operand_cases wellFormed states.operand with
        ⟨_, _, _, _, _, rfl⟩ | ⟨noSource, _⟩
      · rw [Test.operandWarnings, if_pos literal]
        exact List.mem_cons_self
      · exact (noSource source compares).elim
  | ungatedAction isNode noInput =>
      exact ofAction (List.mem_filter.2 ⟨isNode, rfl⟩) (Or.inl ⟨noInput, rfl⟩)
  | ignoredAmount isNode =>
      exact ofAction (List.mem_filter.2 ⟨isNode, rfl⟩) (Or.inr ⟨⟨_, _, rfl⟩, rfl⟩)
  | @defaultAtrPeriod id kind magnitude isNode =>
      have isExit : ⟨id, kind, .atrMultiple, magnitude, none⟩ ∈ valid.graph.plannedExits :=
        mem_plannedExits_iff.2 isNode
      exact ofExit isExit (mem_exitWarnings_iff.2 (Or.inl ⟨rfl, rfl, rfl⟩))
  | @ignoredAtrPeriod id kind basis magnitude period isNode otherBasis =>
      have isExit : ⟨id, kind, basis, magnitude, some period⟩ ∈ valid.graph.plannedExits :=
        mem_plannedExits_iff.2 isNode
      exact ofExit isExit (mem_exitWarnings_iff.2 (Or.inr ⟨otherBasis, rfl, rfl⟩))
  | @unreachableNode id idle =>
      have isUnreachable : id ∈ valid.unreachable := (mem_unreachable_iff id).2 idle
      exact (mem_warnings_iff compiles _).2 (Or.inr (Or.inr (Or.inr ⟨id, isUnreachable, rfl⟩)))

end

/-- Warnings are exactly those that are due, once each. -/
theorem warnings_due
    {compilation : Compilation}
    (accepted : graph.compile configuration = .ok compilation) :
    compilation.warnings.Nodup ∧
      ∀ warning, warning ∈ compilation.warnings ↔ graph.Due configuration warning := by
  obtain ⟨valid, rfl, planned, compiles⟩ := compilesTo_of_compile accepted
  exact ⟨compiles.warnings ▸ nodup_eraseDups _,
    fun warning => ⟨due_of_mem compiles, mem_of_due compiles⟩⟩

/-- A graph in which there is something to warn about of every kind. The average is only
compared with, so it is not missing an operand. -/
def doubtful : Graph where
  nodes := [
    ⟨"rsi", .condition (.indicator .rsi (.ofList [("length", 7)])) ⟨.less, none, 0, 0⟩⟩,
    ⟨"close", .condition (.price .close) ⟨.greater, some 100, 0, 0⟩⟩,
    ⟨"average", .condition (.indicator .sma .empty) ⟨.greater, none, 0, 0⟩⟩,
    ⟨"idle", .gate .and⟩,
    ⟨"enter", .action .buy .allAvailable (some 10)⟩,
    ⟨"leave", .action .sell .allAvailable none⟩,
    ⟨"trail", .exit .trailingStop .atrMultiple 2 none⟩,
    ⟨"stop", .exit .stopLoss .percent 5 (some 3)⟩]
  edges := [
    ⟨"1", "rsi", "close", .flow⟩,
    ⟨"2", "close", "enter", .flow⟩,
    ⟨"3", "rsi", "enter", .flow⟩,
    ⟨"4", "average", "close", .compareInput⟩,
    ⟨"5", "idle", "average", .flow⟩]

/-- A configuration with a longer period of averages. -/
def slowAverages : Configuration :=
  { Configuration.default with
    indicatorDefaults := .ofList [("sma", .ofList [("period", 50)])] }

theorem warnings_due_doubtful :
    ∃ compilation,
      doubtful.compile slowAverages = .ok compilation ∧
        compilation.warnings = [
          .unusedCompareValue "close", .defaultParameter "average" .sma "period" 50,
          .defaultParameter "rsi" .rsi "period" 14, .unknownParameter "rsi" "length",
          .missingCompareOperand "rsi", .ignoredAmount "enter", .ungatedAction "leave",
          .defaultAtrPeriod "trail" 14, .ignoredAtrPeriod "stop", .unreachableNode "idle"] ∧
        compilation.warnings.Nodup ∧
        ∀ warning, warning ∈ compilation.warnings ↔ doubtful.Due slowAverages warning := by
  have computed : (doubtful.compile slowAverages).toOption.map Compilation.warnings = some [
      .unusedCompareValue "close", .defaultParameter "average" .sma "period" 50,
      .defaultParameter "rsi" .rsi "period" 14, .unknownParameter "rsi" "length",
      .missingCompareOperand "rsi", .ignoredAmount "enter", .ungatedAction "leave",
      .defaultAtrPeriod "trail" 14, .ignoredAtrPeriod "stop", .unreachableNode "idle"] := by
    decide +kernel
  obtain ⟨compilation, found, listed⟩ := Option.map_eq_some_iff.1 computed
  have compiled := Outcome.toOption_eq_some_iff.1 found
  exact ⟨compilation, compiled, listed, warnings_due compiled⟩

end Graph
end StrategyGraph
