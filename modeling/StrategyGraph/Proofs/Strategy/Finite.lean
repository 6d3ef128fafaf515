import StrategyGraph.Proofs.Compile.Reads
import StrategyGraph.Proofs.Compile.Sound
import StrategyGraph.Proofs.Data.Restoring
import StrategyGraph.Proofs.Graph.RoundTrip
import StrategyGraph.Strategy.Datum

/-!
# Finite strategies

A strategy is written without loss if its numbers are finite and its counts are machine
words. Compiled strategies are: parameter values are admitted or periods, constants and
amounts have been checked, and conditions reach only so many bars back.

Main result: `Graph.lossless_of_compile`.
-/

namespace StrategyGraph

/-! ## Series -/

namespace IndicatorSeries

/-- The given values of a series are finite. -/
def IsFinite (series : IndicatorSeries) : Prop :=
  ∀ entry ∈ series.parameters.entries, entry.2.isFinite = true

variable {series : IndicatorSeries}

theorem Complete.isFinite (complete : series.Complete) : series.IsFinite := by
  intro entry member
  obtain ⟨parameter, _, admits⟩ := complete.admits_entry member
  exact admits.1

theorem isFinite_averageTrueRange {period : Nat} (fits : period <= Binary64.largestCount) :
    (averageTrueRange period).IsFinite := by
  intro entry member
  rcases averageTrueRange_entries member with equal | ⟨parameter, _, admits⟩
  · rw [equal]
    exact Binary64.isFinite_ofNat fits
  · exact admits.1

theorem lossless (finite : series.IsFinite) : series.toDatum.Lossless := by
  simp only [toDatum, Datum.lossless_record_iff, List.forall_mem_cons,
    Datum.lossless_ofDictionary_iff, Datum.lossless_number_iff]
  exact ⟨Datum.lossless_text _, finite, List.forall_mem_nil _⟩

end IndicatorSeries

/-! ## Predicates -/

theorem Expression.lossless
    {declared : List IndicatorSeries}
    {expression : Expression}
    (sound : expression.Sound declared)
    (finite : ∀ series ∈ expression.series?, series.IsFinite) :
    expression.toDatum.Lossless := by
  have words : largestBack <= Binary64.largestCount := by decide
  cases expression with
  | price column offset =>
      rw [Sound] at sound
      have fits := sound.trans words
      simp [toDatum, fits]
  | indicator series offset =>
      rw [Sound] at sound
      have fits := sound.2.2.trans words
      have values := IndicatorSeries.lossless (finite series rfl)
      simp [toDatum, fits, values]
  | literal constant =>
      rw [Sound] at sound
      simp [toDatum, sound]

namespace Predicate

mutual

/-- A predicate is written without loss if its expressions are. -/
theorem lossless
    (predicate : Predicate)
    (each : ∀ expression ∈ predicate.expressions, expression.toDatum.Lossless) :
    predicate.toDatum.Lossless := by
  cases predicate with
  | always => simp [toDatum]
  | compare left relation right =>
      have first := each left List.mem_cons_self
      have second := each right (List.mem_cons_of_mem _ List.mem_cons_self)
      simp [toDatum, first, second]
  | all parts =>
      have written := lossless_parts parts each
      simpa [toDatum] using written
  | any parts =>
      have written := lossless_parts parts each
      simpa [toDatum] using written
  | negation inner =>
      have written := lossless inner each
      simp [toDatum, written]

theorem lossless_parts
    (parts : List Predicate)
    (each : ∀ expression ∈ expressionsOf parts, expression.toDatum.Lossless) :
    ∀ item ∈ toData parts, item.Lossless := by
  cases parts with
  | nil => exact fun item member => absurd member List.not_mem_nil
  | cons part parts =>
      have first := lossless part fun expression inside =>
        each expression (List.mem_append_left _ inside)
      have later := lossless_parts parts fun expression inside =>
        each expression (List.mem_append_right _ inside)
      exact List.forall_mem_cons.2 ⟨first, later⟩

end

/-- Sound predicates are written without loss if the series they read are finite. -/
theorem Sound.lossless
    {declared : List IndicatorSeries}
    {predicate : Predicate}
    (sound : predicate.Sound declared)
    (finite : ∀ series ∈ predicate.series, series.IsFinite) :
    predicate.toDatum.Lossless :=
  predicate.lossless fun expression inside =>
    Expression.lossless (sound.expressions expression inside) fun series observes =>
      finite series (List.mem_filterMap.2 ⟨expression, inside, observes⟩)

end Predicate

/-! ## Rules -/

theorem Sizing.Sound.lossless {sizing : Sizing} (sound : sizing.Sound) :
    sizing.toDatum.Lossless := by
  cases sizing with
  | allAvailable => simp [toDatum]
  | fixedCash amount => simp [toDatum, sound.1]
  | fixedShares shares => simp [toDatum, sound.1]
  | percentOfEquity percent =>
      rw [Sound] at sound
      simp [toDatum, sound]

theorem StateSlot.lossless (slot : StateSlot) : slot.toDatum.Lossless := by
  cases slot <;> simp [toDatum]

namespace Graph

variable {graph : Graph} {configuration : Configuration} {compilation : Compilation}

/-- The range of a risk exit has a finite period. -/
theorem isFinite_atr
    (fits : graph.FitsWords)
    (period : configuration.defaultAtrPeriod <= Binary64.largestCount)
    {planned : PlannedExit}
    (isPlanned : planned ∈ graph.plannedExits) :
    ∀ series ∈ planned.atr? configuration, series.IsFinite := by
  obtain ⟨node, isNode, isExit⟩ := List.mem_filterMap.1 isPlanned
  split at isExit
  next kind basis magnitude atrPeriod isKind =>
    cases isExit
    have words := fits node isNode
    rw [isKind, NodeKind.FitsWords] at words
    intro series member
    rw [PlannedExit.atr?] at member
    split at member
    next =>
      cases member
      refine IndicatorSeries.isFinite_averageTrueRange ?_
      cases atrPeriod with
      | none => exact period
      | some given => exact words given rfl
    next => cases member
  next => cases isExit

/-- An accepted graph compiles to a strategy that is written without loss. -/
theorem lossless_of_compile
    (fits : graph.FitsWords)
    (period : configuration.defaultAtrPeriod <= Binary64.largestCount)
    (accepted : graph.compile configuration = .ok compilation) :
    compilation.strategy.toDatum.Lossless := by
  have sound := sound_of_compile accepted
  obtain ⟨reachable, valid, compiled⟩ := check_of_compile accepted
  obtain ⟨checked, lenient, _⟩ := ValidGraph.compile_eq_ok_iff.1 compiled
  obtain ⟨planned, compiles⟩ := ValidGraph.compilesTo_of_compileLenient lenient
  have plans := plansAction_of_plannedActions compiles.plans
  have inputs := inputs_inRange (wellFormed_of_check valid) plans
  have reads : ∀ action ∈ planned, ∀ test ∈ Signal.testsOf action.inputs,
      ∀ series ∈ test.reads configuration, series.IsFinite :=
    fun action isPlanned test inside series isRead =>
      (Test.complete_reads checked (inputs action isPlanned test inside) series isRead).isFinite
  have indicators : ∀ series ∈ compilation.strategy.indicators, series.IsFinite := by
    intro series member
    rw [compiles.indicators] at member
    rcases List.mem_append.1 (mem_of_mem_distinctSeries member) with read | range
    · obtain ⟨action, isPlanned, inAction⟩ := List.mem_flatMap.1 read
      obtain ⟨test, inside, inTest⟩ := List.mem_flatMap.1 inAction
      exact reads action isPlanned test inside series inTest
    · obtain ⟨exit, isPlanned, isRange⟩ := List.mem_filterMap.1 range
      exact isFinite_atr fits period isPlanned series isRange
  have actions : ∀ rule ∈ compilation.strategy.actions, rule.toDatum.Lossless := by
    intro rule member
    have sizing := (sound.sizings rule member).lossless
    have predicate : rule.predicate.toDatum.Lossless := by
      refine (sound.predicates rule member).lossless fun series isRead => ?_
      obtain ⟨action, isPlanned, ruled⟩ := Outcome.exists_item_of_forall₂ compiles.rules member
      obtain ⟨_, _, _, rfl⟩ := PlannedAction.rule_eq_ok_iff.1 ruled
      rw [Predicate.series_conjunction] at isRead
      obtain ⟨test, inside, inTest⟩ := Signal.exists_testOf_of_mem_series _ isRead
      exact reads action isPlanned test inside series inTest
    simp [ActionRule.toDatum, predicate, sizing]
  have exits : ∀ rule ∈ compilation.strategy.exits, rule.toDatum.Lossless := by
    intro rule member
    have magnitude := (sound.exits rule member).finite
    have range : ∀ series ∈ rule.atr, series.toDatum.Lossless := by
      rw [compiles.exits] at member
      obtain ⟨exit, isPlanned, rfl⟩ := List.mem_map.1 member
      exact fun series isRange =>
        IndicatorSeries.lossless (isFinite_atr fits period isPlanned series isRange)
    simpa [ExitRule.toDatum, magnitude] using range
  simp only [Strategy.toDatum, Datum.lossless_record_iff, List.forall_mem_cons,
    Datum.lossless_list_iff, List.forall_mem_map]
  exact ⟨fun series member => IndicatorSeries.lossless (indicators series member), actions, exits,
    fun slot _ => slot.lossless, List.forall_mem_nil _⟩

end Graph
end StrategyGraph
