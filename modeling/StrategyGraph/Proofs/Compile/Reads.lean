import StrategyGraph.Proofs.Compile.Distinct
import StrategyGraph.Proofs.Compile.Tests
import StrategyGraph.Proofs.Predicate.Likeness

/-!
# Series of predicates and tests

A predicate reads the indicator series of the expressions it evaluates. A test reads the
series of what it observes, and its predicate reads these once for each bar it looks at; the
first series of each key is the same. A test always imposes a constraint.
-/

namespace StrategyGraph

/-! ## Series of predicates -/

/-- The indicator series that an expression reads. -/
def Expression.series? : Expression -> Option IndicatorSeries
  | .indicator series _ => some series
  | _ => none

namespace Predicate

/-- The indicator series that a predicate reads, in the order of evaluation. -/
def series (predicate : Predicate) : List IndicatorSeries :=
  predicate.expressions.filterMap Expression.series?

theorem series_conjunction (parts : List Predicate) :
    (conjunction parts).series = parts.flatMap series := by
  rw [series, expressions_conjunction, List.filterMap_flatMap]
  rfl

theorem series_disjunction (parts : List Predicate) :
    (disjunction parts).series =
      if parts.isEmpty || parts.any isAlways then [] else parts.flatMap series := by
  rw [series, expressions_disjunction]
  split
  next => rfl
  next =>
    rw [List.filterMap_flatMap]
    rfl

/-- Some series that the predicate reads has the key. -/
def ReadsKey (predicate : Predicate) (key : String) : Prop :=
  key ∈ predicate.series.map IndicatorSeries.key

theorem readsKey_conjunction_iff {parts : List Predicate} {key : String} :
    (conjunction parts).ReadsKey key ↔ ∃ part ∈ parts, part.ReadsKey key := by
  rw [ReadsKey, series_conjunction, List.map_flatMap, List.mem_flatMap]
  rfl

theorem ReadsKey.mem_seriesKeys
    {predicate : Predicate}
    {key : String}
    (reads : predicate.ReadsKey key) :
    key ∈ predicate.seriesKeys := by
  obtain ⟨series, isRead, rfl⟩ := List.mem_map.1 reads
  obtain ⟨expression, listed, observes⟩ := List.mem_filterMap.1 isRead
  cases expression with
  | indicator other offset =>
      cases observes
      exact List.mem_filterMap.2 ⟨_, listed, rfl⟩
  | price column offset => cases observes
  | literal constant => cases observes

end Predicate

/-! ## Tests -/

theorem Subject.series?_expression
    (configuration : Configuration) (subject : Subject) (offset : Nat) :
    (subject.expression configuration offset).series? = subject.series? configuration := by
  cases subject <;> rfl

theorem Operand.series?_expression
    (configuration : Configuration) (operand : Operand) (offset : Nat) :
    (operand.expression configuration offset).series? = operand.series? configuration := by
  cases operand with
  | source node subject => exact subject.series?_expression configuration offset
  | literal constant => rfl
  | missing => rfl

namespace Test

variable (configuration : Configuration) (test : Test)

theorem series_relationAt (relation : Relation) (offset : Nat) :
    (test.relationAt configuration relation offset).series = test.reads configuration := by
  simp only [relationAt, Predicate.series, Predicate.expressions, reads, List.filterMap_cons,
    Subject.series?_expression, Operand.series?_expression, List.filterMap_nil]
  cases test.subject.series? configuration <;> cases test.operand.series? configuration <;> rfl

theorem isAlways_comparisonAt (shift : Nat) :
    (test.comparisonAt configuration shift).isAlways = false := by
  unfold comparisonAt
  dsimp only
  split
  next => rfl
  next => rw [Predicate.isAlways_conjunction]; rfl

/-- A test imposes a constraint. -/
theorem isAlways_predicate : (test.predicate configuration).isAlways = false := by
  unfold predicate
  split
  next => exact test.isAlways_comparisonAt configuration 0
  next several =>
    rw [Predicate.isAlways_disjunction, Bool.or_eq_false_iff, List.isEmpty_map]
    constructor
    · rw [List.isEmpty_eq_false_iff, ne_eq, List.range_eq_nil]
      omega
    · rw [List.any_eq_false]
      intro part listed
      obtain ⟨shift, _, rfl⟩ := List.mem_map.1 listed
      rw [test.isAlways_comparisonAt configuration shift]
      exact Bool.false_ne_true

/-- A crossing reads its series twice over. -/
theorem distinctSeries_comparisonAt (shift : Nat) :
    distinctSeries (test.comparisonAt configuration shift).series =
      distinctSeries (test.reads configuration) := by
  unfold comparisonAt
  dsimp only
  split
  next => rw [series_relationAt]
  next =>
    rw [Predicate.series_conjunction]
    refine distinctSeries_flatMap_of_same (List.cons_ne_nil _ _) fun part listed => ?_
    rcases List.mem_pair.1 listed with rfl | rfl <;> rw [series_relationAt]

theorem mem_reads_of_comparisonAt
    {configuration : Configuration}
    {test : Test}
    {shift : Nat}
    {series : IndicatorSeries}
    (isRead : series ∈ (test.comparisonAt configuration shift).series) :
    series ∈ test.reads configuration := by
  unfold comparisonAt at isRead
  dsimp only at isRead
  split at isRead
  next =>
    rw [series_relationAt] at isRead
    exact isRead
  next =>
    rw [Predicate.series_conjunction] at isRead
    obtain ⟨part, listed, inPart⟩ := List.mem_flatMap.1 isRead
    rcases List.mem_pair.1 listed with rfl | rfl <;>
    · rw [series_relationAt] at inPart
      exact inPart

/-- The predicate of a test reads nothing but what the test reads. -/
theorem mem_reads_of_predicate
    {configuration : Configuration}
    {test : Test}
    {series : IndicatorSeries}
    (isRead : series ∈ (test.predicate configuration).series) :
    series ∈ test.reads configuration := by
  unfold predicate at isRead
  split at isRead
  next => exact mem_reads_of_comparisonAt isRead
  next =>
    rw [Predicate.series_disjunction] at isRead
    split at isRead
    next => cases isRead
    next =>
      obtain ⟨part, listed, inPart⟩ := List.mem_flatMap.1 isRead
      obtain ⟨shift, _, rfl⟩ := List.mem_map.1 listed
      exact mem_reads_of_comparisonAt inPart

/-- The predicate of a test reads what the test reads, once for each bar it looks at. -/
theorem distinctSeries_predicate :
    distinctSeries (test.predicate configuration).series =
      distinctSeries (test.reads configuration) := by
  have imposes := test.isAlways_predicate configuration
  unfold predicate at imposes ⊢
  split
  next => exact test.distinctSeries_comparisonAt configuration 0
  next several =>
    rw [if_neg several, Predicate.isAlways_disjunction] at imposes
    rw [Predicate.series_disjunction, if_neg (Bool.eq_false_iff.1 imposes)]
    refine distinctSeries_flatMap_of_same ?_ fun part listed => ?_
    · rw [ne_eq, List.map_eq_nil_iff, List.range_eq_nil]
      omega
    · obtain ⟨shift, _, rfl⟩ := List.mem_map.1 listed
      exact test.distinctSeries_comparisonAt configuration shift

/-- A test reads the series of what it observes. -/
theorem mem_reads_iff (series : IndicatorSeries) :
    series ∈ test.reads configuration ↔
      ∃ id subject, test.Observes id subject ∧ subject.series? configuration = some series := by
  rw [reads, List.mem_append, Option.mem_toList, Option.mem_toList]
  constructor
  · rintro (ofSubject | ofOperand)
    · exact ⟨test.node, test.subject, Or.inl ⟨rfl, rfl⟩, ofSubject⟩
    · cases compared : test.operand with
      | source source subject =>
          rw [compared] at ofOperand
          exact ⟨source, subject, Or.inr compared, ofOperand⟩
      | literal constant =>
          rw [compared] at ofOperand
          cases ofOperand
      | missing =>
          rw [compared] at ofOperand
          cases ofOperand
  · rintro ⟨id, subject, ⟨_, rfl⟩ | compared, found⟩
    · exact Or.inl found
    · refine Or.inr ?_
      rw [compared]
      exact found

end Test

/-! ## Signals -/

namespace Signal

variable {configuration : Configuration} {series : IndicatorSeries}

mutual

/-- The predicate of a signal reads nothing but what the tests of the signal read. -/
theorem exists_test_of_mem_series
    (signal : Signal)
    (isRead : series ∈ (signal.predicate configuration).series) :
    ∃ test ∈ signal.tests, series ∈ test.reads configuration := by
  cases signal with
  | gated test parents =>
      rw [predicate, Predicate.series_conjunction, List.flatMap_cons] at isRead
      rcases List.mem_append.1 isRead with own | inherited
      · exact ⟨test, List.mem_cons_self, Test.mem_reads_of_predicate own⟩
      · obtain ⟨other, inside, reads⟩ := exists_testOf_of_mem_series parents inherited
        exact ⟨other, List.mem_cons_of_mem _ inside, reads⟩
  | all inputs =>
      rw [predicate, Predicate.series_conjunction] at isRead
      exact exists_testOf_of_mem_series inputs isRead
  | any inputs =>
      rw [predicate, Predicate.series_disjunction] at isRead
      split at isRead
      next => cases isRead
      next => exact exists_testOf_of_mem_series inputs isRead
  | negation input => exact exists_test_of_mem_series input isRead

theorem exists_testOf_of_mem_series
    (signals : List Signal)
    (isRead : series ∈ (predicates configuration signals).flatMap Predicate.series) :
    ∃ test ∈ testsOf signals, series ∈ test.reads configuration := by
  cases signals with
  | nil => cases isRead
  | cons signal signals =>
      rw [predicates, List.flatMap_cons] at isRead
      rcases List.mem_append.1 isRead with inFirst | later
      · obtain ⟨test, inside, reads⟩ := exists_test_of_mem_series signal inFirst
        exact ⟨test, List.mem_append_left _ inside, reads⟩
      · obtain ⟨test, inside, reads⟩ := exists_testOf_of_mem_series signals later
        exact ⟨test, List.mem_append_right _ inside, reads⟩

end

end Signal

end StrategyGraph
