import StrategyGraph.Proofs.Compile.Distinct
import StrategyGraph.Proofs.Compile.Ranges
import StrategyGraph.Proofs.Indicator.Complete
import StrategyGraph.Proofs.Predicate.Truth

/-!
# Sound strategies

What holds of every compiled strategy: its numbers are finite and in range, its groups
have parts, it reads no bar too far back, and it declares every series that it reads.
-/

namespace StrategyGraph

/-- Largest number of bars back that a strategy reads. -/
def largestBack : Nat := Condition.largestOffset + Condition.largestLookback

/-- An expression that reads a declared series not too far back, or a finite
constant. -/
def Expression.Sound (declared : List IndicatorSeries) : Expression -> Prop
  | .price _ offset => offset <= largestBack
  | .indicator series offset =>
      series.Unsigned ∧ series.key ∈ declared.map IndicatorSeries.key ∧ offset <= largestBack
  | .literal constant => constant.isFinite = true

/-- A predicate over sound expressions whose groups have parts. -/
inductive Predicate.Sound (declared : List IndicatorSeries) : Predicate -> Prop where
  | always : Sound declared .always
  | compare (left : first.Sound declared) (right : second.Sound declared) :
      Sound declared (.compare first relation second)
  | all (nonempty : parts ≠ []) (each : ∀ part ∈ parts, Sound declared part) :
      Sound declared (.all parts)
  | any (nonempty : parts ≠ []) (each : ∀ part ∈ parts, Sound declared part) :
      Sound declared (.any parts)
  | negation (inner : Sound declared part) : Sound declared (.negation part)

/-- A sizing with an amount that is finite and positive, or with a percentage. -/
def Sizing.Sound : Sizing -> Prop
  | .allAvailable => True
  | .fixedCash amount => amount.isFinite = true ∧ 0 < amount
  | .fixedShares shares => shares.isFinite = true ∧ 0 < shares
  | .percentOfEquity percent => percent.isFinite = true

/-- A risk exit with a finite magnitude that reads a declared range if it is in
multiples of the range. -/
structure ExitRule.Sound (declared : List IndicatorSeries) (rule : ExitRule) : Prop where
  finite : rule.magnitude.isFinite = true
  range : rule.atr.isSome = true ↔ rule.basis = .atrMultiple
  isDeclared : ∀ series ∈ rule.atr,
    series.Unsigned ∧ series.key ∈ declared.map IndicatorSeries.key

/-- A strategy all parts of which are sound. -/
structure Strategy.Sound (strategy : Strategy) : Prop where
  series : ∀ series ∈ strategy.indicators, series.Unsigned
  predicates : ∀ rule ∈ strategy.actions, rule.predicate.Sound strategy.indicators
  sizings : ∀ rule ∈ strategy.actions, rule.sizing.Sound
  exits : ∀ rule ∈ strategy.exits, rule.Sound strategy.indicators

variable {declared : List IndicatorSeries}

/-! ## Predicates -/

namespace Predicate

theorem sound_conjunction
    {parts : List Predicate}
    (each : ∀ part ∈ parts, part.Sound declared) :
    (conjunction parts).Sound declared := by
  have remaining : ∀ part ∈ parts.filter fun part => !part.isAlways, part.Sound declared :=
    fun part member => each part (List.mem_of_mem_filter member)
  rw [conjunction]
  split
  next => exact .always
  next only equal => exact remaining only (by rw [equal]; exact List.mem_singleton_self only)
  next nonempty _ => exact .all nonempty remaining

theorem sound_disjunction
    {parts : List Predicate}
    (each : ∀ part ∈ parts, part.Sound declared) :
    (disjunction parts).Sound declared := by
  unfold disjunction
  split
  next => exact .always
  next unconditional =>
    split
    next only => exact each only (List.mem_singleton_self only)
    next =>
      refine .any ?_ each
      rintro rfl
      exact unconditional rfl

/-- All expressions of a sound predicate are sound. -/
theorem Sound.expressions
    {predicate : Predicate}
    (sound : predicate.Sound declared) :
    ∀ expression ∈ predicate.expressions, expression.Sound declared := by
  induction sound with
  | always => exact fun expression inside => absurd inside List.not_mem_nil
  | compare left right =>
      intro expression inside
      rcases List.mem_cons.1 inside with rfl | later
      · exact left
      · rw [List.mem_singleton.1 later]
        exact right
  | all _ _ hypothesis | any _ _ hypothesis =>
      intro expression inside
      obtain ⟨part, listed, inPart⟩ := mem_expressionsOf_iff.1 inside
      exact hypothesis part listed expression inPart
  | negation _ hypothesis => exact hypothesis

end Predicate

/-! ## Tests -/

section

variable {configuration : Configuration} (checked : configuration.check = .ok ())

include checked

theorem Subject.sound_expression
    {subject : Subject}
    (inRange : subject.InRange)
    (reads : ∀ series ∈ subject.series? configuration,
      series.key ∈ declared.map IndicatorSeries.key)
    {offset : Nat}
    (near : offset <= largestBack) :
    (subject.expression configuration offset).Sound declared := by
  cases subject with
  | price column => exact near
  | indicator line given =>
      exact ⟨(IndicatorSeries.complete_complete checked inRange).unsigned, reads _ rfl, near⟩
  | value constant => exact inRange

theorem Subject.complete_series
    {subject : Subject}
    (inRange : subject.InRange) :
    ∀ series ∈ subject.series? configuration, series.Complete := by
  intro series member
  cases subject with
  | price column => cases member
  | indicator line given =>
      cases member
      exact IndicatorSeries.complete_complete checked inRange
  | value constant => cases member

theorem Operand.complete_series
    {operand : Operand}
    (inRange : operand.InRange) :
    ∀ series ∈ operand.series? configuration, series.Complete := by
  intro series member
  cases operand with
  | source node subject => exact subject.complete_series checked inRange series member
  | literal constant => cases member
  | missing => cases member

/-- The series that a test reads are complete. -/
theorem Test.complete_reads
    {test : Test}
    (inRange : test.InRange) :
    ∀ series ∈ test.reads configuration, series.Complete := by
  intro series member
  rcases List.mem_append.1 member with inSubject | inOperand
  · exact test.subject.complete_series checked inRange.subject series
      (Option.mem_toList.1 inSubject)
  · exact test.operand.complete_series checked inRange.operand series
      (Option.mem_toList.1 inOperand)

theorem Operand.sound_expression
    {operand : Operand}
    (inRange : operand.InRange)
    (reads : ∀ series ∈ operand.series? configuration,
      series.key ∈ declared.map IndicatorSeries.key)
    {offset : Nat}
    (near : offset <= largestBack) :
    (operand.expression configuration offset).Sound declared := by
  cases operand with
  | source node subject => exact subject.sound_expression checked inRange reads near
  | literal constant => exact inRange
  | missing =>
      have finite : (0 : Float).isFinite = true := by decide
      exact finite

namespace Test

variable
  {test : Test}
  (inRange : test.InRange)
  (reads : ∀ series ∈ test.reads configuration, series.key ∈ declared.map IndicatorSeries.key)

include inRange reads

theorem sound_relationAt
    (relation : Relation)
    {offset : Nat}
    (near : offset <= largestBack) :
    (test.relationAt configuration relation offset).Sound declared := by
  have readsSubject : ∀ series ∈ test.subject.series? configuration,
      series.key ∈ declared.map IndicatorSeries.key := fun series member =>
    reads series (List.mem_append_left _ (Option.mem_toList.2 member))
  have readsOperand : ∀ series ∈ test.operand.series? configuration,
      series.key ∈ declared.map IndicatorSeries.key := fun series member =>
    reads series (List.mem_append_right _ (Option.mem_toList.2 member))
  exact .compare (test.subject.sound_expression checked inRange.subject readsSubject near)
    (test.operand.sound_expression checked inRange.operand readsOperand near)

/-- Within its window a test reads at most one bar more than it is shifted. -/
theorem sound_comparisonAt
    {shift : Nat}
    (near : test.condition.offset + shift + 1 <= largestBack) :
    (test.comparisonAt configuration shift).Sound declared := by
  have relations := sound_relationAt checked inRange reads
  rw [comparisonAt]
  split
  next relation _ => exact relations relation (Nat.le_of_succ_le near)
  next =>
    refine Predicate.sound_conjunction fun part member => ?_
    rcases List.mem_cons.1 member with rfl | later
    · exact relations _ near
    · rw [List.mem_singleton.1 later]
      exact relations _ (Nat.le_of_succ_le near)

theorem sound_predicate : (test.predicate configuration).Sound declared := by
  have offset := inRange.condition.offset
  have lookback := inRange.condition.lookback
  have bound : largestBack = 20000 := rfl
  rw [predicate]
  split
  next => exact sound_comparisonAt checked inRange reads (by omega)
  next =>
    refine Predicate.sound_disjunction fun part member => ?_
    obtain ⟨shift, inWindow, rfl⟩ := List.mem_map.1 member
    have before := List.mem_range.1 inWindow
    exact sound_comparisonAt checked inRange reads (by omega)

end Test

end

/-! ## Signals -/

namespace Signal

variable {configuration : Configuration}

mutual

/-- The predicate of a signal is sound if those of its tests are. -/
theorem sound_predicate
    (signal : Signal)
    (each : ∀ test ∈ signal.tests, (test.predicate configuration).Sound declared) :
    (signal.predicate configuration).Sound declared := by
  cases signal with
  | gated test parents =>
      refine Predicate.sound_conjunction fun part member => ?_
      rcases List.mem_cons.1 member with rfl | inParents
      · exact each test List.mem_cons_self
      · exact sound_predicates parents
          (fun test inside => each test (List.mem_cons_of_mem _ inside)) part inParents
  | all inputs => exact Predicate.sound_conjunction (sound_predicates inputs each)
  | any inputs => exact Predicate.sound_disjunction (sound_predicates inputs each)
  | negation input => exact .negation (sound_predicate input each)

theorem sound_predicates
    (signals : List Signal)
    (each : ∀ test ∈ testsOf signals, (test.predicate configuration).Sound declared) :
    ∀ part ∈ predicates configuration signals, part.Sound declared := by
  cases signals with
  | nil => exact fun part member => absurd member List.not_mem_nil
  | cons signal signals =>
      intro part member
      rcases List.mem_cons.1 member with rfl | later
      · exact sound_predicate signal fun test inside =>
          each test (List.mem_append_left _ inside)
      · exact sound_predicates signals
          (fun test inside => each test (List.mem_append_right _ inside)) part later

end

end Signal

/-! ## Strategies -/

/-- An amount in range makes a sound sizing. -/
theorem Sizing.sound_ofMode
    {mode : SizingMode}
    {amount : Option Float}
    {sizing : Sizing}
    (inRange : SizingInRange amount mode)
    (sized : Sizing.ofMode? mode amount = some sizing) :
    sizing.Sound := by
  cases mode with
  | allAvailable =>
      cases sized
      trivial
  | fixedCash =>
      obtain ⟨value, rfl, finite, positive⟩ := inRange
      cases sized
      exact ⟨finite, positive⟩
  | fixedShares =>
      obtain ⟨value, rfl, finite, positive⟩ := inRange
      cases sized
      exact ⟨finite, positive⟩
  | percentOfEquity =>
      obtain ⟨percent, rfl, finite, _⟩ := inRange
      cases sized
      exact finite

theorem PlannedExit.unsigned_atr {configuration : Configuration} (planned : PlannedExit) :
    ∀ series ∈ planned.atr? configuration, series.Unsigned := by
  intro series member
  rw [atr?] at member
  split at member
  next =>
    cases member
    exact IndicatorSeries.unsigned_averageTrueRange _
  next => cases member

/-- Risk exits in range are compiled to sound rules. -/
theorem PlannedExit.sound_rule
    {configuration : Configuration}
    {planned : PlannedExit}
    (finite : planned.magnitude.isFinite = true)
    (reads : ∀ series ∈ planned.atr? configuration,
      series.key ∈ declared.map IndicatorSeries.key) :
    (planned.rule configuration).Sound declared := by
  refine ⟨finite, ?_, fun series member =>
    ⟨planned.unsigned_atr series member, reads series member⟩⟩
  rw [rule, atr?]
  split
  next multiple => exact iff_of_true rfl multiple
  next other => exact iff_of_false Bool.false_ne_true other

namespace Graph

/-- The sizings of a compiled strategy are made of amounts in range. -/
theorem sizing_inRange_of_compile
    {graph : Graph}
    {configuration : Configuration}
    {compilation : Compilation}
    (accepted : graph.compile configuration = .ok compilation) :
    ∀ rule ∈ compilation.strategy.actions, ∃ mode amount,
      SizingInRange amount mode ∧ Sizing.ofMode? mode amount = some rule.sizing := by
  intro rule member
  obtain ⟨valid, rfl, planned, compiles⟩ := compilesTo_of_compile accepted
  obtain ⟨action, isPlanned, ruled⟩ := Outcome.exists_item_of_forall₂ compiles.rules member
  obtain ⟨node, isNode, isPlan⟩ := Outcome.exists_item_of_forall₂
    (plansAction_of_plannedActions compiles.plans) isPlanned
  obtain ⟨_, sizing, sized, rfl⟩ := PlannedAction.rule_eq_ok_iff.1 ruled
  have inRange := (wellFormed_of_check valid.checked).parameters node
    (List.mem_of_mem_filter isNode)
  rw [Node.InRange, isPlan.kind] at inRange
  exact ⟨action.mode, action.amount, inRange, sized⟩

/-- An accepted graph compiles to a sound strategy. -/
theorem sound_of_compile
    {graph : Graph}
    {configuration : Configuration}
    {compilation : Compilation}
    (accepted : graph.compile configuration = .ok compilation) :
    compilation.strategy.Sound := by
  obtain ⟨reachable, valid, compiled⟩ := check_of_compile accepted
  obtain ⟨checked, lenient, _⟩ := ValidGraph.compile_eq_ok_iff.1 compiled
  obtain ⟨planned, compiles⟩ := ValidGraph.compilesTo_of_compileLenient lenient
  have wellFormed := wellFormed_of_check valid
  have plans := plansAction_of_plannedActions compiles.plans
  have isDeclared : ∀ series ∈ planned.flatMap (PlannedAction.reads configuration) ++
      graph.plannedExits.filterMap (PlannedExit.atr? configuration),
      series.key ∈ compilation.strategy.indicators.map IndicatorSeries.key := by
    rw [compiles.indicators]
    exact fun series member => key_mem_distinctSeries member
  have inputs := inputs_inRange wellFormed plans
  have predicates : ∀ rule ∈ compilation.strategy.actions,
      rule.predicate.Sound compilation.strategy.indicators := by
    intro rule member
    obtain ⟨action, isPlanned, ruled⟩ := Outcome.exists_item_of_forall₂ compiles.rules member
    obtain ⟨_, sizing, _, rfl⟩ := PlannedAction.rule_eq_ok_iff.1 ruled
    refine Predicate.sound_conjunction (Signal.sound_predicates _ fun test inside => ?_)
    refine Test.sound_predicate checked (inputs action isPlanned test inside)
      fun series reads => isDeclared series ?_
    refine List.mem_append_left _ (List.mem_flatMap.2 ⟨action, isPlanned, ?_⟩)
    exact List.mem_flatMap.2 ⟨test, inside, reads⟩
  have sizings : ∀ rule ∈ compilation.strategy.actions, rule.sizing.Sound := by
    intro rule member
    obtain ⟨mode, amount, inRange, sized⟩ := sizing_inRange_of_compile accepted rule member
    exact Sizing.sound_ofMode inRange sized
  refine ⟨?_, predicates, sizings, ?_⟩
  · intro series member
    rw [compiles.indicators] at member
    rcases List.mem_append.1 (mem_of_mem_distinctSeries member) with read | range
    · obtain ⟨action, isPlanned, inAction⟩ := List.mem_flatMap.1 read
      obtain ⟨test, inside, inTest⟩ := List.mem_flatMap.1 inAction
      exact (Test.complete_reads checked (inputs action isPlanned test inside) series
        inTest).unsigned
    · obtain ⟨exit, _, isRange⟩ := List.mem_filterMap.1 range
      exact exit.unsigned_atr series isRange
  · intro rule member
    rw [compiles.exits] at member
    obtain ⟨exit, isPlanned, rfl⟩ := List.mem_map.1 member
    obtain ⟨node, isNode, isExit⟩ := List.mem_filterMap.1 isPlanned
    refine PlannedExit.sound_rule ?_ fun series reads => isDeclared series ?_
    · have inRange := wellFormed.parameters node isNode
      split at isExit
      next kind basis magnitude atrPeriod isKind =>
        cases isExit
        rw [Node.InRange, isKind] at inRange
        exact inRange.finite
      next => cases isExit
    · exact List.mem_append_right _ (List.mem_filterMap.2 ⟨exit, isPlanned, reads⟩)

end Graph
end StrategyGraph
