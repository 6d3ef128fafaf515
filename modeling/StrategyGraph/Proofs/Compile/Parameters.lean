import StrategyGraph.Proofs.Compile.Requirements
import StrategyGraph.Proofs.Compile.Warnings
import StrategyGraph.Proofs.Graph.RoundTrip
import StrategyGraph.Proofs.Indicator.Key

/-!
# Parameters of compiled series

Every series that a compiled strategy names has a value for each parameter of its indicator,
and where the value comes from can be read off the graph and the configuration alone: an
indicator node gives one series, whoever visits it, and so does a risk exit in multiples of
the range.

Main result: `Graph.parameters_of_compile`.
-/

namespace StrategyGraph

/-! ## Where values come from -/

section

variable
  (configuration : Configuration)
  (line : Indicator)
  (given : Dictionary Float)
  (parameter : Parameter)

/-- Where a parameter of an indicator node gets its value: from the node if it gives one,
else from the configured values of the indicator if there is one among them, else from the
documentation. -/
inductive Parameter.Gets : Float -> Prop where
  | own {value : Float} (isGiven : given.find? parameter.name = some value) : Gets value
  | configured
      {entries : Dictionary Float}
      {value : Float}
      (notGiven : given.find? parameter.name = none)
      (ofIndicator : configuration.indicatorDefaults.find? line.name = some entries)
      (isConfigured : entries.find? parameter.name = some value) : Gets value
  | documented
      (notGiven : given.find? parameter.name = none)
      (notConfigured : ∀ entries, configuration.indicatorDefaults.find? line.name = some entries ->
        entries.find? parameter.name = none) : Gets parameter.default

theorem Parameter.gets_iff {value : Float} :
    parameter.Gets configuration line given value ↔
      value = Indicator.resolvedValue given (configuration.overrides line) parameter := by
  rw [Indicator.resolvedValue, Indicator.fallback, Configuration.overrides]
  constructor
  · intro gets
    cases gets with
    | own isGiven => rw [isGiven, Option.getD_some]
    | configured notGiven ofIndicator isConfigured =>
        rw [notGiven, ofIndicator, Option.getD_none, Option.getD_some, isConfigured,
          Option.getD_some]
    | documented notGiven notConfigured =>
        rw [notGiven, Option.getD_none]
        cases ofIndicator : configuration.indicatorDefaults.find? line.name with
        | none => rfl
        | some entries =>
            rw [Option.getD_some, notConfigured entries ofIndicator, Option.getD_none]
  · rintro rfl
    cases isGiven : given.find? parameter.name with
    | some value => exact .own isGiven
    | none =>
        rw [Option.getD_none]
        cases ofIndicator : configuration.indicatorDefaults.find? line.name with
        | none =>
            refine .documented isGiven fun entries found => ?_
            cases ofIndicator.symm.trans found
        | some entries =>
            rw [Option.getD_some]
            cases isConfigured : entries.find? parameter.name with
            | some value => exact .configured isGiven ofIndicator isConfigured
            | none =>
                refine .documented isGiven fun others found => ?_
                cases ofIndicator.symm.trans found
                exact isConfigured

end

namespace IndicatorSeries

/-- A series holds exactly the values that were collected for the parameters. -/
theorem eq_ofList_iff
    {series : IndicatorSeries}
    {indicator : Indicator}
    {values : Parameter -> Float} :
    series = ⟨indicator, .ofList (indicator.parameters.map fun parameter =>
        (parameter.name, values parameter))⟩ ↔
      series.indicator = indicator ∧
        ∀ name value, series.parameters.find? name = some value ↔
          ∃ parameter ∈ indicator.parameters,
            parameter.name = name ∧ value = values parameter := by
  have collected (name : String) (value : Float) :
      (Dictionary.ofList (indicator.parameters.map fun parameter =>
        (parameter.name, values parameter))).find? name = some value ↔
      ∃ parameter ∈ indicator.parameters, parameter.name = name ∧ value = values parameter := by
    constructor
    · intro found
      obtain ⟨parameter, isParameter, same⟩ :=
        List.mem_map.1 (Dictionary.mem_of_mem_ofList (Dictionary.mem_of_find? found))
      cases same
      exact ⟨parameter, isParameter, rfl, rfl⟩
    · rintro ⟨parameter, isParameter, rfl, rfl⟩
      exact find?_ofList_parameters indicator values isParameter
  constructor
  · rintro rfl
    exact ⟨rfl, collected⟩
  · rintro ⟨sameIndicator, holds⟩
    obtain ⟨_, parameters⟩ := series
    cases sameIndicator
    congr 1
    refine Dictionary.eq_of_find?_eq fun name => Option.ext fun value => ?_
    exact (holds name value).trans (collected name value).symm

/-- A range holds its period and nothing else. -/
theorem eq_averageTrueRange_iff {series : IndicatorSeries} {period : Nat} :
    series = averageTrueRange period ↔
      series.indicator = .atr ∧
        ∀ name value, series.parameters.find? name = some value ↔
          name = "period" ∧ value = Binary64.ofNat period := by
  have only (name : String) (value : Float) :
      (∃ parameter ∈ Indicator.atr.parameters,
        parameter.name = name ∧ value = Binary64.ofNat period) ↔
          name = "period" ∧ value = Binary64.ofNat period := by
    simp [Indicator.parameters, Parameter.period, eq_comm]
  rw [averageTrueRange_eq, eq_ofList_iff]
  simp only [only]

/-- A series with exactly the parameters of its indicator, all of them finite and positive, and
whole numbers from one on where the parameter is whole. -/
structure Parameterised (series : IndicatorSeries) : Prop where
  names : ∀ name, name ∈ series.parameters.names ↔
    name ∈ series.indicator.parameters.map Parameter.name
  values : ∀ parameter ∈ series.indicator.parameters, ∀ value,
    series.parameters.find? parameter.name = some value ->
      value.isFinite = true ∧ 0 < value ∧
        (parameter.whole = true -> Binary64.isWhole value = true ∧ 1 <= value)

theorem Complete.parameterised {series : IndicatorSeries} (complete : series.Complete) :
    series.Parameterised := by
  refine ⟨complete.names, fun parameter isParameter value found => ?_⟩
  obtain ⟨finite, positive, whole⟩ :=
    Parameter.check_eq_ok_iff.1 (complete.accepted parameter isParameter value found)
  exact ⟨finite, positive, fun isWhole =>
    ⟨whole isWhole, Binary64.one_le_of_isWhole (whole isWhole) positive⟩⟩

end IndicatorSeries

/-! ## Series of nodes -/

namespace Graph

section

variable (graph : Graph) (configuration : Configuration)

/-- The series that an indicator node gives: each parameter has the value that it gets there,
and nothing else has one. -/
def GivesIndicator (id : NodeId) (series : IndicatorSeries) : Prop :=
  ∃ line given condition,
    ⟨id, .condition (.indicator line given) condition⟩ ∈ graph.nodes ∧
      series.indicator = line ∧
      ∀ name value, series.parameters.find? name = some value ↔
        ∃ parameter ∈ line.parameters,
          parameter.name = name ∧ parameter.Gets configuration line given value

/-- The range that a risk exit in multiples of it gives: over the period of the exit if it has
one, else over the configured one. -/
def GivesRange (id : NodeId) (series : IndicatorSeries) : Prop :=
  ∃ kind magnitude atrPeriod,
    ⟨id, .exit kind .atrMultiple magnitude atrPeriod⟩ ∈ graph.nodes ∧
      series.indicator = .atr ∧
      ∀ name value, series.parameters.find? name = some value ↔
        name = "period" ∧
          value = Binary64.ofNat (atrPeriod.getD configuration.defaultAtrPeriod)

/-- One of the conditions observes what the node observes: as its subject, or as its operand
over a compare edge. -/
def Observed (conditions : NodeId -> Prop) (id : NodeId) : Prop :=
  conditions id ∨ ∃ target, graph.Compares id target ∧ conditions target

end

variable
  {graph : Graph}
  {configuration : Configuration}
  {id : NodeId}
  {series other : IndicatorSeries}

theorem givesIndicator_iff :
    graph.GivesIndicator configuration id series ↔
      ∃ line given condition,
        ⟨id, .condition (.indicator line given) condition⟩ ∈ graph.nodes ∧
          series = line.complete given (configuration.overrides line) := by
  simp only [GivesIndicator, Parameter.gets_iff, Indicator.complete, IndicatorSeries.eq_ofList_iff]

theorem givesRange_iff :
    graph.GivesRange configuration id series ↔
      ∃ kind magnitude atrPeriod,
        ⟨id, .exit kind .atrMultiple magnitude atrPeriod⟩ ∈ graph.nodes ∧
          series = .averageTrueRange (atrPeriod.getD configuration.defaultAtrPeriod) := by
  simp only [GivesRange, IndicatorSeries.eq_averageTrueRange_iff]

theorem observesSeries_iff_exists_givesIndicator {conditions : NodeId -> Prop} :
    graph.ObservesSeries configuration conditions series ↔
      ∃ id, graph.Observed conditions id ∧ graph.GivesIndicator configuration id series := by
  simp only [givesIndicator_iff]
  constructor
  · rintro ⟨id, line, given, condition, isNode, observed, same⟩
    exact ⟨id, observed, line, given, condition, isNode, same⟩
  · rintro ⟨id, observed, line, given, condition, isNode, same⟩
    exact ⟨id, line, given, condition, isNode, observed, same⟩

/-- The tests of some conditions read what the indicator nodes give that these observe. -/
theorem exists_reading_test_iff
    (wellFormed : graph.WellFormed)
    (configuration : Configuration)
    (conditions : NodeId -> Prop)
    (series : IndicatorSeries) :
    (∃ test, (graph.States test ∧ conditions test.node) ∧ series ∈ test.reads configuration) ↔
      ∃ id, graph.Observed conditions id ∧ graph.GivesIndicator configuration id series :=
  (observesSeries_iff wellFormed).symm.trans observesSeries_iff_exists_givesIndicator

/-- Wherever unfolding visits a node, what is read of it is the series that it gives, at any
offset. -/
theorem givesIndicator_of_observes
    (wellFormed : graph.WellFormed)
    {path : List NodeId}
    {root : NodeId}
    {signal : Signal}
    (unfolded : graph.signal path root = .ok signal)
    {test : Test}
    (inside : test ∈ signal.tests)
    {subject : Subject}
    (observes : test.Observes id subject)
    {offset : Nat}
    (reads : (subject.expression configuration offset).series? = some series) :
    graph.GivesIndicator configuration id series := by
  have states := ((mem_tests_iff unfolded test).1 inside).1
  obtain ⟨⟨condition, isNode⟩, _⟩ := (exists_observing_test_iff wellFormed).1
    ⟨test, ⟨states, (rfl : test.node = test.node)⟩, observes⟩
  rw [Subject.series?_expression] at reads
  cases subject with
  | indicator line given =>
      exact givesIndicator_iff.2 ⟨line, given, condition, isNode, (Option.some.inj reads).symm⟩
  | price column => cases reads
  | value constant => cases reads

/-- A node gives one series, whoever visits it. -/
theorem gives_unique
    (distinct : graph.nodeIds.Nodup)
    (gives : graph.GivesIndicator configuration id series ∨
      graph.GivesRange configuration id series)
    (givesOther : graph.GivesIndicator configuration id other ∨
      graph.GivesRange configuration id other) :
    series = other := by
  have sameKind {kind kindOther : NodeKind}
      (isNode : ⟨id, kind⟩ ∈ graph.nodes)
      (isOther : ⟨id, kindOther⟩ ∈ graph.nodes) :
      kind = kindOther :=
    Option.some.inj (((kind_eq_some_iff distinct).2 isNode).symm.trans
      ((kind_eq_some_iff distinct).2 isOther))
  rw [givesIndicator_iff, givesRange_iff] at gives givesOther
  rcases gives with ⟨_, _, _, isNode, rfl⟩ | ⟨_, _, _, isNode, rfl⟩ <;>
    rcases givesOther with ⟨_, _, _, isOther, rfl⟩ | ⟨_, _, _, isOther, rfl⟩ <;>
    cases sameKind isNode isOther <;> rfl

/-! ## Compiled series -/

/-- What an indicator node of a valid graph gives is complete, under a configuration that passed
its check. -/
theorem complete_of_givesIndicator
    (wellFormed : graph.WellFormed)
    (checked : configuration.check = .ok ())
    (gives : graph.GivesIndicator configuration id series) :
    series.Complete := by
  obtain ⟨line, given, condition, isNode, rfl⟩ := givesIndicator_iff.1 gives
  have inRange := wellFormed.parameters _ isNode
  exact IndicatorSeries.complete_complete checked inRange.2

/-- So is what a risk exit gives, if periods are machine words. -/
theorem complete_of_givesRange
    (wellFormed : graph.WellFormed)
    (checked : configuration.check = .ok ())
    (fits : graph.FitsWords)
    (period : configuration.defaultAtrPeriod <= Binary64.largestCount)
    (gives : graph.GivesRange configuration id series) :
    series.Complete := by
  obtain ⟨kind, magnitude, atrPeriod, isNode, rfl⟩ := givesRange_iff.1 gives
  have inRange : ExitInRange kind .atrMultiple magnitude atrPeriod :=
    wellFormed.parameters _ isNode
  have words := fits _ isNode
  cases atrPeriod with
  | some given =>
      refine IndicatorSeries.complete_averageTrueRange ?_ (words given rfl)
      rintro rfl
      exact inRange.period rfl
  | none =>
      refine IndicatorSeries.complete_averageTrueRange (fun zero => ?_) period
      rw [Option.getD_none] at zero
      rw [Configuration.check, if_pos zero] at checked
      cases checked

/-- The rule of a risk exit reads the range that its node gives. -/
theorem atr_eq_some_iff
    {valid : ValidGraph}
    {planned : List PlannedAction}
    {compilation : Compilation}
    (compiles : valid.CompilesTo configuration planned compilation)
    {rule : ExitRule}
    (isRule : rule ∈ compilation.strategy.exits) :
    rule.atr = some series ↔ valid.graph.GivesRange configuration rule.node series := by
  have distinct := (wellFormed_of_check valid.checked).distinct
  rw [compiles.exits] at isRule
  obtain ⟨exit, isPlanned, rfl⟩ := List.mem_map.1 isRule
  have isExit := mem_plannedExits_iff.1 isPlanned
  rw [givesRange_iff, PlannedExit.rule]
  dsimp only
  rw [PlannedExit.atr?]
  constructor
  · intro ranges
    split at ranges
    next multiple =>
      cases ranges
      rw [multiple] at isExit
      exact ⟨exit.kind, exit.magnitude, exit.atrPeriod, isExit, rfl⟩
    next => cases ranges
  · rintro ⟨kind, magnitude, atrPeriod, isNode, rfl⟩
    have same := ((kind_eq_some_iff distinct).2 isExit).symm.trans
      ((kind_eq_some_iff distinct).2 isNode)
    simp only [Option.some.injEq, NodeKind.exit.injEq] at same
    obtain ⟨_, multiple, _, period⟩ := same
    rw [if_pos multiple, period]

/-- Risk exits read the ranges that nodes give. -/
theorem exists_atr_iff
    {valid : ValidGraph}
    {planned : List PlannedAction}
    {compilation : Compilation}
    (compiles : valid.CompilesTo configuration planned compilation) :
    (∃ rule ∈ compilation.strategy.exits, rule.atr = some series) ↔
      ∃ id, valid.graph.GivesRange configuration id series := by
  constructor
  · rintro ⟨rule, isRule, ranges⟩
    exact ⟨rule.node, (atr_eq_some_iff compiles isRule).1 ranges⟩
  · rintro ⟨id, gives⟩
    obtain ⟨kind, magnitude, atrPeriod, isNode, _⟩ := givesRange_iff.1 gives
    have isPlanned : ⟨id, kind, .atrMultiple, magnitude, atrPeriod⟩ ∈ valid.graph.plannedExits :=
      mem_plannedExits_iff.2 isNode
    have isRule := List.mem_map_of_mem (f := PlannedExit.rule configuration) isPlanned
    rw [← compiles.exits] at isRule
    exact ⟨_, isRule, (atr_eq_some_iff compiles isRule).2 gives⟩

section

variable
  {valid : ValidGraph}
  {planned : List PlannedAction}
  {compilation : Compilation}
  (compiles : valid.CompilesTo configuration planned compilation)
  (complete : ∀ id series, valid.graph.GivesIndicator configuration id series -> series.Complete)

include compiles complete

/-- Listed are the series of the indicator nodes behind actions and the ranges of risk exits. -/
theorem mem_indicators_iff
    (completeRange : ∀ id series, valid.graph.GivesRange configuration id series ->
      series.Complete) :
    series ∈ compilation.strategy.indicators ↔
      (∃ id, valid.graph.Observed valid.graph.FeedsAction id ∧
        valid.graph.GivesIndicator configuration id series) ∨
      ∃ id, valid.graph.GivesRange configuration id series := by
  have collected (one : IndicatorSeries) :
      one ∈ planned.flatMap (PlannedAction.reads configuration) ++
          valid.graph.plannedExits.filterMap (PlannedExit.atr? configuration) ↔
        (∃ id, valid.graph.Observed valid.graph.FeedsAction id ∧
          valid.graph.GivesIndicator configuration id one) ∨
        ∃ id, valid.graph.GivesRange configuration id one := by
    rw [List.mem_append, mem_planned_reads_iff compiles, filterMap_atr_eq compiles,
      List.mem_filterMap, observesSeries_iff_exists_givesIndicator, exists_atr_iff compiles]
  have isComplete : ∀ one ∈ planned.flatMap (PlannedAction.reads configuration) ++
      valid.graph.plannedExits.filterMap (PlannedExit.atr? configuration), one.Complete := by
    intro one member
    rcases (collected one).1 member with ⟨id, _, gives⟩ | ⟨id, gives⟩
    · exact complete id one gives
    · exact completeRange id one gives
  rw [compiles.indicators, IndicatorSeries.distinctSeries_eq_eraseDups isComplete,
    List.mem_eraseDups, collected]

/-- The predicates of actions read complete series only. -/
theorem complete_of_mem_series
    {rule : ActionRule}
    (isRule : rule ∈ compilation.strategy.actions)
    (isRead : series ∈ rule.predicate.series) :
    series.Complete := by
  obtain ⟨action, isPlanned, ruled⟩ := Outcome.exists_item_of_forall₂ compiles.rules isRule
  obtain ⟨_, _, _, rfl⟩ := PlannedAction.rule_eq_ok_iff.1 ruled
  rw [Predicate.series_conjunction] at isRead
  obtain ⟨test, inside, reads⟩ := Signal.exists_testOf_of_mem_series _ isRead
  have listed : series ∈ planned.flatMap (PlannedAction.reads configuration) :=
    List.mem_flatMap.2 ⟨action, isPlanned, List.mem_flatMap.2 ⟨test, inside, reads⟩⟩
  rw [mem_planned_reads_iff compiles, observesSeries_iff_exists_givesIndicator] at listed
  obtain ⟨id, _, gives⟩ := listed
  exact complete id series gives

/-- The predicate of an action reads the series of the indicator nodes that are observed by
what is heard at its node. -/
theorem mem_series_rule_iff
    {rule : ActionRule}
    (isRule : rule ∈ compilation.strategy.actions) :
    series ∈ rule.predicate.series ↔
      ∃ id, valid.graph.Observed (fun source => valid.graph.HeardAt source rule.node) id ∧
        valid.graph.GivesIndicator configuration id series := by
  have wellFormed := wellFormed_of_check valid.checked
  have rules := Outcome.forall₂_comp (plansAction_of_plannedActions compiles.plans) compiles.rules
  obtain ⟨node, isAction, action, isPlan, ruled⟩ := Outcome.exists_item_of_forall₂ rules isRule
  have identity : rule.node = node.id := by
    obtain ⟨_, _, _, rfl⟩ := PlannedAction.rule_eq_ok_iff.1 ruled
    exact isPlan.identity
  -- Which keys are read is known, and complete series are told apart by their keys.
  have reads := readsKey_rule_iff wellFormed isAction isPlan ruled series.key
  have heard := exists_reading_test_iff wellFormed configuration fun source =>
    valid.graph.HeardAt source node.id
  rw [identity, ← heard]
  constructor
  · intro isRead
    obtain ⟨test, states, listed⟩ := reads.1 (List.mem_map_of_mem isRead)
    obtain ⟨one, inTest, sameKey⟩ := List.mem_map.1 listed
    obtain ⟨id, _, gives⟩ := (heard one).1 ⟨test, states, inTest⟩
    rw [← IndicatorSeries.eq_of_key_eq (complete id one gives)
      (complete_of_mem_series compiles complete isRule isRead) sameKey]
    exact ⟨test, states, inTest⟩
  · rintro ⟨test, states, inTest⟩
    obtain ⟨one, isRead, sameKey⟩ :=
      List.mem_map.1 (reads.2 ⟨test, states, List.mem_map_of_mem inTest⟩)
    obtain ⟨id, _, gives⟩ := (heard series).1 ⟨test, states, inTest⟩
    rw [← IndicatorSeries.eq_of_key_eq (complete_of_mem_series compiles complete isRule isRead)
      (complete id series gives) sameKey]
    exact isRead

end

/-- The predicates of compiled strategies read complete series only. -/
theorem complete_of_compile
    {compilation : Compilation}
    (accepted : graph.compile configuration = .ok compilation)
    {rule : ActionRule}
    (isRule : rule ∈ compilation.strategy.actions)
    (isRead : series ∈ rule.predicate.series) :
    series.Complete := by
  obtain ⟨reachable, valid, compiled⟩ := check_of_compile accepted
  obtain ⟨checked, lenient, _⟩ := ValidGraph.compile_eq_ok_iff.1 compiled
  obtain ⟨planned, compiles⟩ := ValidGraph.compilesTo_of_compileLenient lenient
  have complete : ∀ id series, graph.GivesIndicator configuration id series -> series.Complete :=
    fun id series => complete_of_givesIndicator (wellFormed_of_check valid) checked
  exact complete_of_mem_series compiles complete isRule isRead

/-- Parameters of compiled series. Each series that a strategy compiled from an accepted graph
lists or reads has finite and positive values for exactly the parameters of its indicator, and
whole ones from one on where parameters are whole. A node gives one series: an indicator node
one with its own values, the configured and the documented ones, and a risk exit one with its
period or the configured one. Every visit of an indicator node reads the series it gives. The
strategy lists what the indicator nodes behind actions and the risk exits give; each action
reads what the indicator nodes give that are observed where it hears; each risk exit reads what
its node gives. -/
theorem parameters_of_compile
    {compilation : Compilation}
    (fits : graph.FitsWords)
    (period : configuration.defaultAtrPeriod <= Binary64.largestCount)
    (accepted : graph.compile configuration = .ok compilation) :
    (∀ series, series ∈ compilation.strategy.indicators ∨
      series ∈ compilation.strategy.readSeries -> series.Parameterised) ∧
    (∀ id series other,
      graph.GivesIndicator configuration id series ∨ graph.GivesRange configuration id series ->
      graph.GivesIndicator configuration id other ∨ graph.GivesRange configuration id other ->
        series = other) ∧
    (∀ path root signal, graph.signal path root = .ok signal -> ∀ test ∈ signal.tests,
      ∀ id subject offset series, test.Observes id subject ->
        (subject.expression configuration offset).series? = some series ->
          graph.GivesIndicator configuration id series) ∧
    (∀ series, series ∈ compilation.strategy.indicators ↔
      (∃ id, graph.Observed graph.FeedsAction id ∧
        graph.GivesIndicator configuration id series) ∨
      ∃ id, graph.GivesRange configuration id series) ∧
    (∀ rule ∈ compilation.strategy.actions, ∀ series, series ∈ rule.predicate.series ↔
      ∃ id, graph.Observed (fun source => graph.HeardAt source rule.node) id ∧
        graph.GivesIndicator configuration id series) ∧
    ∀ rule ∈ compilation.strategy.exits, ∀ series,
      rule.atr = some series ↔ graph.GivesRange configuration rule.node series := by
  obtain ⟨reachable, valid, compiled⟩ := check_of_compile accepted
  obtain ⟨checked, lenient, _⟩ := ValidGraph.compile_eq_ok_iff.1 compiled
  obtain ⟨planned, compiles⟩ := ValidGraph.compilesTo_of_compileLenient lenient
  have wellFormed := wellFormed_of_check valid
  have complete : ∀ id series, graph.GivesIndicator configuration id series -> series.Complete :=
    fun id series => complete_of_givesIndicator wellFormed checked
  have completeRange : ∀ id series, graph.GivesRange configuration id series -> series.Complete :=
    fun id series => complete_of_givesRange wellFormed checked fits period
  have listed : ∀ series, series ∈ compilation.strategy.indicators ↔
      (∃ id, graph.Observed graph.FeedsAction id ∧
        graph.GivesIndicator configuration id series) ∨
      ∃ id, graph.GivesRange configuration id series :=
    fun series => mem_indicators_iff compiles complete completeRange
  refine ⟨fun series named => IndicatorSeries.Complete.parameterised ?_,
    fun id series other => gives_unique wellFormed.distinct,
    fun path root signal unfolded test inside id subject offset series observes reads =>
      givesIndicator_of_observes wellFormed unfolded inside observes reads, listed,
    fun rule isRule series => mem_series_rule_iff compiles complete isRule,
    fun rule isRule series => atr_eq_some_iff compiles isRule⟩
  rcases named with isListed | isRead
  · rcases (listed series).1 isListed with ⟨id, _, gives⟩ | ⟨id, gives⟩
    · exact complete id series gives
    · exact completeRange id series gives
  · rcases List.mem_append.1 isRead with ofActions | ofExits
    · obtain ⟨rule, isRule, inRule⟩ := List.mem_flatMap.1 ofActions
      exact complete_of_compile accepted isRule inRule
    · obtain ⟨rule, isRule, reads⟩ := List.mem_filterMap.1 ofExits
      exact completeRange rule.node series ((atr_eq_some_iff compiles isRule).1 reads)

/-- A graph with a purchase at a close below a lower band of two and a half deviations while
the relative strength is low, and with two stops in multiples of the range. -/
def dipping : Graph where
  nodes := [
    ⟨"band", .condition (.indicator .bollingerLower (.ofList [("std_dev", 2.5)])) .default⟩,
    ⟨"dip", .condition (.price .close) ⟨.less, none, 0, 0⟩⟩,
    ⟨"weak", .condition (.indicator .rsi .empty) ⟨.less, some 30, 0, 3⟩⟩,
    ⟨"enter", .action .buy .allAvailable none⟩,
    ⟨"stop", .exit .stopLoss .atrMultiple 2 (some 3)⟩,
    ⟨"trail", .exit .trailingStop .atrMultiple 4 none⟩]
  edges := [
    ⟨"1", "dip", "enter", .flow⟩,
    ⟨"2", "weak", "enter", .flow⟩,
    ⟨"3", "band", "dip", .compareInput⟩]

/-- A configuration with a relative strength over twenty-one bars and ranges over ten. -/
def widened : Configuration :=
  { Configuration.default with
    indicatorDefaults := .ofList [("rsi", .ofList [("period", 21)])]
    defaultAtrPeriod := 10 }

theorem parameters_of_compile_dipping :
    ∃ compilation,
      dipping.compile widened = .ok compilation ∧
        compilation.strategy.indicators.map IndicatorSeries.key =
          ["bollinger_lower_20_2p5", "rsi_21", "atr_3", "atr_10"] ∧
        ∀ series ∈ compilation.strategy.indicators, series.Parameterised := by
  have computed : (dipping.compile widened).toOption.map (fun compilation =>
      compilation.strategy.indicators.map IndicatorSeries.key) =
      some ["bollinger_lower_20_2p5", "rsi_21", "atr_3", "atr_10"] := by
    decide +kernel
  obtain ⟨compilation, found, keys⟩ := Option.map_eq_some_iff.1 computed
  have compiled := Outcome.toOption_eq_some_iff.1 found
  have fits : dipping.FitsWords := by
    simp only [FitsWords, dipping, List.forall_mem_cons]
    exact ⟨⟨by decide, by decide⟩, ⟨by decide, by decide⟩, ⟨by decide, by decide⟩, trivial,
      by simp [NodeKind.FitsWords, Binary64.largestCount], by simp [NodeKind.FitsWords],
      List.forall_mem_nil _⟩
  exact ⟨compilation, compiled, keys, fun series listed =>
    (parameters_of_compile fits (by decide) compiled).1 series (Or.inl listed)⟩

end Graph
end StrategyGraph
