import StrategyGraph.Proofs.Compile.Collapse
import StrategyGraph.Proofs.Compile.Correspondence
import StrategyGraph.Proofs.Market.Prefix
import StrategyGraph.Run.Session

/-!
# Required series

A compiled strategy lists the series of every indicator that an action can observe in the
graph, and the ranges of its risk exits. Its predicates may read fewer: what is behind a
collapsed disjunction is listed but not read, and a run that lacks it fails for want of a
series that no rule reads. Where no collapsed gate swallows an indicator, the list is what
the rules read, the first series of each key, in the order of the rules.
-/

namespace StrategyGraph

/-- The indicator series that the rules of a strategy read: those of the actions and then
those of the risk exits, in the order of the rules. -/
def Strategy.readSeries (strategy : Strategy) : List IndicatorSeries :=
  strategy.actions.flatMap (fun rule => rule.predicate.series) ++
    strategy.exits.filterMap ExitRule.atr

namespace Graph

/-! ## Compilations -/

section

variable
  {valid : ValidGraph}
  {configuration : Configuration}
  {planned : List PlannedAction}
  {compilation : Compilation}
  (compiles : valid.CompilesTo configuration planned compilation)

include compiles

/-- Risk exits read the ranges that were planned for them. -/
theorem filterMap_atr_eq :
    valid.graph.plannedExits.filterMap (PlannedExit.atr? configuration) =
      compilation.strategy.exits.filterMap ExitRule.atr := by
  rw [compiles.exits, List.filterMap_map]
  rfl

/-- The plans of all actions read what the conditions that feed an action observe. -/
theorem mem_planned_reads_iff (series : IndicatorSeries) :
    series ∈ planned.flatMap (PlannedAction.reads configuration) ↔
      valid.graph.ObservesSeries configuration valid.graph.FeedsAction series := by
  have wellFormed := wellFormed_of_check valid.checked
  rw [observesSeries_iff wellFormed, List.mem_flatMap]
  simp only [← exists_planned_test_iff wellFormed.distinct compiles.plans, PlannedAction.reads,
    List.mem_flatMap]
  constructor
  · rintro ⟨action, isPlanned, test, inside, reads⟩
    exact ⟨test, ⟨action, isPlanned, inside⟩, reads⟩
  · rintro ⟨test, ⟨action, isPlanned, inside⟩, reads⟩
    exact ⟨action, isPlanned, test, inside, reads⟩

/-- The listed keys are those of the indicators behind actions and of the ranges of risk
exits. -/
theorem mem_keys_indicators_iff (key : String) :
    key ∈ compilation.strategy.indicators.map IndicatorSeries.key ↔
      ∃ series, (valid.graph.ObservesSeries configuration valid.graph.FeedsAction series ∨
        ∃ rule ∈ compilation.strategy.exits, rule.atr = some series) ∧ series.key = key := by
  rw [compiles.indicators, mem_keys_distinctSeries_iff, filterMap_atr_eq compiles, List.mem_map]
  simp only [List.mem_append, mem_planned_reads_iff compiles, List.mem_filterMap]

/-- The rules of actions read the indicators of conditions that are heard. -/
theorem exists_readsKey_iff (key : String) :
    (∃ rule ∈ compilation.strategy.actions, rule.predicate.ReadsKey key) ↔
      ∃ series, valid.graph.ObservesSeries configuration valid.graph.Heard series ∧
        series.key = key := by
  have wellFormed := wellFormed_of_check valid.checked
  have rules := Outcome.forall₂_comp (plansAction_of_plannedActions compiles.plans) compiles.rules
  simp only [observesSeries_iff wellFormed]
  constructor
  · rintro ⟨rule, isRule, reads⟩
    obtain ⟨node, isAction, action, isPlan, ruled⟩ := Outcome.exists_item_of_forall₂ rules isRule
    obtain ⟨test, ⟨states, hears⟩, listed⟩ :=
      (readsKey_rule_iff wellFormed isAction isPlan ruled key).1 reads
    obtain ⟨series, isRead, same⟩ := List.mem_map.1 listed
    exact ⟨series, ⟨test, ⟨states, node, isAction, hears⟩, isRead⟩, same⟩
  · rintro ⟨series, ⟨test, ⟨states, node, isAction, hears⟩, isRead⟩, rfl⟩
    obtain ⟨rule, isRule, action, isPlan, ruled⟩ :=
      Outcome.exists_item_of_forall₂ rules.flip isAction
    exact ⟨rule, isRule, (readsKey_rule_iff wellFormed isAction isPlan ruled _).2
      ⟨test, ⟨states, hears⟩, List.mem_map_of_mem isRead⟩⟩

/-- The keys that rules read are those of indicators that are heard and of the ranges of risk
exits. -/
theorem mem_keys_readSeries_iff (key : String) :
    key ∈ compilation.strategy.readSeries.map IndicatorSeries.key ↔
      ∃ series, (valid.graph.ObservesSeries configuration valid.graph.Heard series ∨
        ∃ rule ∈ compilation.strategy.exits, rule.atr = some series) ∧ series.key = key := by
  rw [Strategy.readSeries, List.map_append, List.mem_append, List.map_flatMap, List.mem_flatMap]
  change (∃ rule ∈ compilation.strategy.actions, rule.predicate.ReadsKey key) ∨ _ ↔ _
  rw [exists_readsKey_iff compiles key]
  simp only [List.mem_map, List.mem_filterMap, or_and_right, exists_or]

/-- Where no indicator is swallowed, what is listed is what rules read, the first series of
each key. -/
theorem indicators_eq_distinctSeries
    (nothing : ∀ series, ¬ valid.graph.Swallows configuration series) :
    compilation.strategy.indicators = distinctSeries compilation.strategy.readSeries := by
  have wellFormed := wellFormed_of_check valid.checked
  rw [compiles.indicators, filterMap_atr_eq compiles, Strategy.readSeries]
  refine distinctSeries_append_congr (distinctSeries_flatMap_congr ?_) rfl
  have feeding : ∀ action ∈ planned, ∃ node,
      valid.graph.FeedsAction node.id ∧ valid.graph.PlansAction node action := by
    intro action isPlanned
    obtain ⟨node, _, isFeeding⟩ :=
      Outcome.exists_item_of_forall₂ (feedingPlans_of_plannedActions compiles.plans) isPlanned
    exact ⟨node, isFeeding⟩
  refine ((List.forall₂_and_left _ _).2 ⟨feeding, compiles.rules⟩).imp ?_
  rintro action rule ⟨⟨node, feeds, isPlan⟩, ruled⟩
  obtain ⟨_, sizing, _, rfl⟩ := PlannedAction.rule_eq_ok_iff.1 ruled
  rw [Predicate.series_conjunction]
  exact (distinctSeries_inputs feeds (isPlan.inputs.imp fun parent input unfolded feedsParent =>
    distinctSeries_signal wellFormed nothing feedsParent unfolded)).symm

end

end Graph

/-! ## Runs -/

namespace Strategy

variable {Value : Type} [Quantity Value] {strategy : Strategy} {set : SeriesSet Value}

/-- A run that fails for want of series needs all of them. -/
theorem needed_of_missing
    {keys : List String}
    (failed : strategy.replay set = .error (.missing keys)) :
    ∀ key ∈ keys, key ∈ strategy.neededKeys := by
  have refused : set.checkRequirements strategy = .error (.missing keys) :=
    (Outcome.check_then_eq_error_iff.1 failed).resolve_right fun ⟨_, impossible⟩ => by
      cases impossible
  obtain ⟨_, rfl⟩ := SeriesSet.checkRequirements_eq_missing_iff.1 refused
  exact fun key member => List.mem_of_mem_filter member

/-- A strategy that lists what its rules read needs the closes and what its rules read. -/
theorem read_of_needed
    (exact : strategy.indicators = distinctSeries strategy.readSeries)
    {key : String}
    (needed : key ∈ strategy.neededKeys) :
    key = Column.close.key ∨
      (∃ rule ∈ strategy.actions, key ∈ rule.predicate.seriesKeys) ∨
      ∃ rule ∈ strategy.exits, ∃ series, rule.atr = some series ∧ series.key = key := by
  rw [neededKeys, List.mem_eraseDups, List.mem_cons, List.mem_append, List.mem_flatMap, exact,
    mem_keys_distinctSeries_iff, readSeries, List.map_append, List.mem_append] at needed
  rcases needed with isClose | ofActions | ofRules | ofExits
  · exact Or.inl isClose
  · exact Or.inr (Or.inl ofActions)
  · rw [List.map_flatMap, List.mem_flatMap] at ofRules
    obtain ⟨rule, isRule, reads⟩ := ofRules
    exact Or.inr (Or.inl ⟨rule, isRule, Predicate.ReadsKey.mem_seriesKeys reads⟩)
  · obtain ⟨series, listed, same⟩ := List.mem_map.1 ofExits
    obtain ⟨rule, isRule, ranges⟩ := List.mem_filterMap.1 listed
    exact Or.inr (Or.inr ⟨rule, isRule, series, ranges, same⟩)

end Strategy

namespace Graph

/-- What a compiled strategy lists and what its rules read. Every indicator behind an action
is listed; those are read that an action hears; and where no indicator is swallowed, the list
is what the rules read, the first series of each key, so that a run asks for nothing else. -/
theorem required_series
    {graph : Graph}
    {configuration : Configuration}
    {compilation : Compilation}
    (accepted : graph.compile configuration = .ok compilation) :
    (∀ key,
      key ∈ compilation.strategy.indicators.map IndicatorSeries.key ↔
        ∃ series, (graph.ObservesSeries configuration graph.FeedsAction series ∨
          ∃ rule ∈ compilation.strategy.exits, rule.atr = some series) ∧ series.key = key) ∧
    (∀ key,
      key ∈ compilation.strategy.readSeries.map IndicatorSeries.key ↔
        ∃ series, (graph.ObservesSeries configuration graph.Heard series ∨
          ∃ rule ∈ compilation.strategy.exits, rule.atr = some series) ∧ series.key = key) ∧
    ((∀ series, ¬ graph.Swallows configuration series) ->
      compilation.strategy.indicators = distinctSeries compilation.strategy.readSeries ∧
        ∀ {Value : Type} [Quantity Value] (set : SeriesSet Value) (keys : List String),
          compilation.strategy.replay set = .error (.missing keys) ->
            ∀ key ∈ keys, key = Column.close.key ∨
              (∃ rule ∈ compilation.strategy.actions, key ∈ rule.predicate.seriesKeys) ∨
              ∃ rule ∈ compilation.strategy.exits, ∃ series,
                rule.atr = some series ∧ series.key = key) := by
  obtain ⟨valid, rfl, planned, compiles⟩ := compilesTo_of_compile accepted
  refine ⟨mem_keys_indicators_iff compiles, mem_keys_readSeries_iff compiles, fun nothing => ?_⟩
  have exact := indicators_eq_distinctSeries compiles nothing
  exact ⟨exact, fun set keys failed key member =>
    Strategy.read_of_needed exact (Strategy.needed_of_missing failed key member)⟩

/-- A graph with a purchase on a crossing of two averages, gated by a disjunction of that
condition alone, and with a stop in multiples of the range. -/
def averaging : Graph where
  nodes := [
    ⟨"slow", .condition (.indicator .sma (.ofList [("period", 50)])) ⟨.greater, none, 0, 0⟩⟩,
    ⟨"cross", .condition (.indicator .sma .empty) ⟨.crossesAbove, none, 1, 2⟩⟩,
    ⟨"either", .gate .or⟩,
    ⟨"enter", .action .buy .allAvailable none⟩,
    ⟨"trail", .exit .trailingStop .atrMultiple 2 none⟩]
  edges := [
    ⟨"1", "cross", "either", .flow⟩,
    ⟨"2", "either", "enter", .flow⟩,
    ⟨"3", "slow", "cross", .compareInput⟩]

theorem required_series_averaging :
    ∃ compilation,
      averaging.compile .default = .ok compilation ∧
        compilation.strategy.indicators.map IndicatorSeries.key =
          ["sma_20", "sma_50", "atr_14"] ∧
        (∀ series, ¬ averaging.Swallows .default series) ∧
        compilation.strategy.indicators = distinctSeries compilation.strategy.readSeries := by
  have computed : (averaging.compile .default).toOption.map (fun compilation =>
      compilation.strategy.indicators.map IndicatorSeries.key) =
      some ["sma_20", "sma_50", "atr_14"] := by
    decide +kernel
  obtain ⟨compilation, found, listed⟩ := Option.map_eq_some_iff.1 computed
  have compiled := Outcome.toOption_eq_some_iff.1 found
  have nothing : ∀ series, ¬ averaging.Swallows .default series := by
    rintro series ⟨gate, ⟨isGate, unconditional⟩, _⟩
    have isOnly : gate = "either" := by simpa [averaging] using isGate
    subst isOnly
    cases unconditional with
    | conjunction isOther _ => simp [averaging] at isOther
    | vacuous _ noInput => exact noInput "cross" ⟨_, List.mem_cons_self, rfl, rfl, rfl⟩
    | @disjunction _ parent _ flow input =>
        have isCross : parent = "cross" := by simpa [averaging, Flow, eq_comm] using flow
        subst isCross
        cases input with
        | conjunction isOther _ => simp [averaging] at isOther
        | vacuous isOther _ => simp [averaging] at isOther
        | disjunction isOther _ _ => simp [averaging] at isOther
  exact ⟨compilation, compiled, listed, nothing, ((required_series compiled).2.2 nothing).1⟩

/-- A graph with a purchase on a falling index or nothing at all: the disjunction collapses. -/
def swallowing : Graph where
  nodes := [
    ⟨"rsi", .condition (.indicator .rsi (.ofList [("period", 14)])) ⟨.less, some 30, 0, 0⟩⟩,
    ⟨"free", .gate .and⟩,
    ⟨"either", .gate .or⟩,
    ⟨"enter", .action .buy .allAvailable none⟩]
  edges := [
    ⟨"1", "rsi", "either", .flow⟩,
    ⟨"2", "free", "either", .flow⟩,
    ⟨"3", "either", "enter", .flow⟩]

/-- The index is listed although no rule reads it, and a run over the closes alone fails for
want of it. -/
theorem listed_without_reader :
    ∃ compilation,
      swallowing.compile .default = .ok compilation ∧
        compilation.strategy.readSeries = [] ∧
        compilation.strategy.indicators.map IndicatorSeries.key = ["rsi_14"] ∧
        compilation.strategy.indicators ≠ distinctSeries compilation.strategy.readSeries ∧
        compilation.strategy.replay (⟨[("close", #[100, 110])]⟩ : SeriesSet Float) =
          .error (.missing ["rsi_14"]) := by
  have computed : (swallowing.compile .default).toOption.map (fun compilation =>
      (compilation.strategy.readSeries, compilation.strategy.indicators.map IndicatorSeries.key,
        compilation.strategy.replay (⟨[("close", #[100, 110])]⟩ : SeriesSet Float))) =
      some ([], ["rsi_14"], .error (.missing ["rsi_14"])) := by
    decide +kernel
  obtain ⟨compilation, found, outcome⟩ := Option.map_eq_some_iff.1 computed
  obtain ⟨nothingRead, outcome⟩ := Prod.mk.inj outcome
  obtain ⟨listed, failed⟩ := Prod.mk.inj outcome
  refine ⟨compilation, Outcome.toOption_eq_some_iff.1 found, nothingRead, listed, ?_, failed⟩
  intro same
  rw [same, nothingRead] at listed
  cases listed

end Graph
end StrategyGraph
