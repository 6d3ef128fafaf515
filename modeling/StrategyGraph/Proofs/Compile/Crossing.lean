import StrategyGraph.Proofs.Compile.Window
import StrategyGraph.Proofs.Number.Order

/-!
# Crossings

A condition that looks for a crossing compares two sides at a bar and at the one before it.
What is compiled for it are two comparisons of four expressions, each read some bars back.
Here the truth of that predicate is compared with the course of the two sides over the bars:
a change from one relation to the other between any two bars is found at a bar between them,
and only at bars where the sides did change from the bar before.
-/

namespace StrategyGraph

/-! ## Changes over bars -/

/-- A sequence that starts in one way, ends in another and is one or the other throughout
changes from one to the other at some step. -/
theorem exists_change
    {before after : Nat -> Prop}
    {first last : Nat}
    (ordered : first < last)
    (either : ∀ bar, first <= bar -> bar <= last -> before bar ∨ after bar)
    (starts : before first)
    (ends : after last) :
    ∃ previous, first <= previous ∧ previous + 1 <= last ∧ before previous ∧
      after (previous + 1) := by
  induction last, ordered using Nat.le_induction with
  | base => exact ⟨first, le_rfl, le_rfl, starts, ends⟩
  | succ last further hypothesis =>
      rcases either last (Nat.le_of_lt further) (Nat.le_succ last) with same | changed
      · exact ⟨last, Nat.le_of_lt further, le_rfl, same, ends⟩
      · obtain ⟨previous, inside, reached, change⟩ := hypothesis
          (fun bar inside reached => either bar inside (Nat.le_succ_of_le reached)) changed
        exact ⟨previous, inside, Nat.le_succ_of_le reached, change⟩

/-- Two sides are there and stand in a relation. -/
def SidesIn (relation : Float -> Float -> Prop) (sides? : Option (Float × Float)) : Prop :=
  ∃ left right, sides? = some (left, right) ∧ relation left right

/-- Something is true of bars as it should be of the changes of two sides from one relation
to another. -/
structure FindsChanges
    (sides? : Nat -> Option (Float × Float))
    (before after : Float -> Float -> Prop)
    (found : Nat -> Prop) : Prop where
  /-- Between two bars, with both sides there throughout, no change is missed. -/
  noneMissed :
    ∀ first last, first < last ->
      (∀ bar, first <= bar -> bar <= last -> (sides? bar).isSome) ->
        SidesIn before (sides? first) -> SidesIn after (sides? last) ->
          ∃ bar, first < bar ∧ bar <= last ∧ found bar
  /-- No change is invented: the sides are there at the bar before and at the bar. -/
  noneInvented :
    ∀ bar, found bar ->
      ∃ previous, bar = previous + 1 ∧ SidesIn before (sides? previous) ∧
        SidesIn after (sides? bar)

/-- What is true where the sides differ from the bar before finds their changes, if the sides
always stand in one of the two relations. -/
theorem FindsChanges.of_iff
    {sides? : Nat -> Option (Float × Float)}
    {before after : Float -> Float -> Prop}
    {found : Nat -> Prop}
    (either : ∀ bar, (sides? bar).isSome ->
      SidesIn before (sides? bar) ∨ SidesIn after (sides? bar))
    (changes : ∀ bar, found bar ↔
      ∃ previous, bar = previous + 1 ∧ SidesIn before (sides? previous) ∧
        SidesIn after (sides? bar)) :
    FindsChanges sides? before after found where
  noneInvented bar := (changes bar).1
  noneMissed first last ordered available starts ends := by
    obtain ⟨previous, inside, reached, unchanged, changed⟩ := exists_change ordered
      (fun bar inside reached => either bar (available bar inside reached)) starts ends
    exact ⟨previous + 1, Nat.lt_succ_of_le inside, reached,
      (changes (previous + 1)).2 ⟨previous, rfl, unchanged, changed⟩⟩

/-! ## Sides of a condition -/

/-- The numbers that a condition compares at a bar, its subject and its operand as many bars
back as its offset says, if both are there. -/
def Graph.sides?
    [Quantity Value]
    (graph : Graph)
    (configuration : Configuration)
    (set : SeriesSet Value)
    (id : NodeId)
    (subject : Subject)
    (condition : Condition)
    (bar : Nat) : Option (Value × Value) :=
  match subject.numberBack? configuration set bar condition.offset,
    graph.operandBack? configuration set bar id condition condition.offset with
  | some left, some right => some (left, right)
  | _, _ => none

section

variable {configuration : Configuration} {set : SeriesSet Float}

theorem Quantity.isNaN_of_available
    {quantity number : Float}
    (available : Quantity.available? quantity = some number) :
    number.isNaN = false := by
  unfold Quantity.available? at available
  split at available
  next => cases available
  next isNumber =>
    cases available
    exact Bool.eq_false_iff.2 isNumber

theorem SeriesSet.isNaN_of_numberBack
    {key : String}
    {bar back : Nat}
    {number : Float}
    (found : set.numberBack? key bar back = some number) :
    number.isNaN = false := by
  unfold numberBack? at found
  split at found
  next =>
    obtain ⟨quantity, _, available⟩ := Option.bind_eq_some_iff.1 found
    exact Quantity.isNaN_of_available available
  next => cases found

theorem Subject.isNaN_of_numberBack
    {subject : Subject}
    {bar back : Nat}
    {number : Float}
    (found : subject.numberBack? configuration set bar back = some number) :
    number.isNaN = false := by
  cases subject with
  | price column => exact SeriesSet.isNaN_of_numberBack found
  | indicator line parameters => exact SeriesSet.isNaN_of_numberBack found
  | value constant => exact Quantity.isNaN_of_available found

theorem Graph.isNaN_of_operandBack
    {graph : Graph}
    {id : NodeId}
    {condition : Condition}
    {bar back : Nat}
    {number : Float}
    (found : graph.operandBack? configuration set bar id condition back = some number) :
    number.isNaN = false := by
  unfold operandBack? at found
  split at found
  next =>
    obtain ⟨subject, _, found⟩ := Option.bind_eq_some_iff.1 found
    exact Subject.isNaN_of_numberBack found
  next => exact Quantity.isNaN_of_available found

/-- Neither side of a condition is NaN. -/
theorem Graph.isNaN_of_sides
    {graph : Graph}
    {id : NodeId}
    {subject : Subject}
    {condition : Condition}
    {bar : Nat}
    {left right : Float}
    (sides : graph.sides? configuration set id subject condition bar = some (left, right)) :
    left.isNaN = false ∧ right.isNaN = false := by
  unfold Graph.sides? at sides
  split at sides
  next isLeft isRight =>
    cases sides
    exact ⟨Subject.isNaN_of_numberBack isLeft, Graph.isNaN_of_operandBack isRight⟩
  next => cases sides

/-! ## Compiled crossings -/

namespace Test

/-- The relations of a crossing are opposite: of two numbers exactly one holds. -/
theorem holds_after_iff
    (comparison : Comparison)
    {left right : Float}
    (leftNumber : left.isNaN = false)
    (rightNumber : right.isNaN = false) :
    (crossingRelations comparison).2.holds left right = true ↔
      ¬ (crossingRelations comparison).1.holds left right = true := by
  have opposite {left right : Float} (leftNumber : left.isNaN = false)
      (rightNumber : right.isNaN = false) :
      decide (right < left) = true ↔ ¬ decide (left <= right) = true := by
    rw [decide_eq_true_iff, decide_eq_true_iff]
    exact (Binary64.not_le_iff_lt leftNumber rightNumber).symm
  cases comparison with
  | crossesBelow => exact opposite rightNumber leftNumber
  | _ => exact opposite leftNumber rightNumber

variable {graph : Graph} {test : Test} (isTest : test.IsTestOf graph)

include isTest

/-- A relation at the offset of a test holds where the sides stand in it. -/
theorem holds_relationAt_iff (relation : Relation) (bar : Nat) :
    (test.relationAt configuration relation test.condition.offset).holds set bar = true ↔
      SidesIn (fun left right => relation.holds left right = true)
        (graph.sides? configuration set test.node test.subject test.condition bar) := by
  rw [holds_relationAt isTest, Graph.relatesBack, Graph.sides?]
  cases test.subject.numberBack? configuration set bar test.condition.offset with
  | none => simp [SidesIn]
  | some left =>
      cases graph.operandBack? configuration set bar test.node test.condition
          test.condition.offset with
      | none => simp [SidesIn]
      | some right => simp [SidesIn]

/-- The predicate of a crossing at a single bar holds where the sides change from the bar
before. Before the first bar only constants have numbers, and these never change. -/
theorem holds_crossing_iff
    (crosses : Relation.ofComparison? test.condition.comparison = none)
    (single : test.condition.lookback = 0)
    (bar : Nat) :
    (test.predicate configuration).holds set bar = true ↔
      ∃ previous, bar = previous + 1 ∧
        SidesIn
          (fun left right =>
            (crossingRelations test.condition.comparison).1.holds left right = true)
          (graph.sides? configuration set test.node test.subject test.condition previous) ∧
        SidesIn
          (fun left right =>
            (crossingRelations test.condition.comparison).2.holds left right = true)
          (graph.sides? configuration set test.node test.subject test.condition bar) := by
  have both : (test.predicate configuration).holds set bar = true ↔
      (test.relationAt configuration (crossingRelations test.condition.comparison).1
          (test.condition.offset + 1)).holds set bar = true ∧
        (test.relationAt configuration (crossingRelations test.condition.comparison).2
          test.condition.offset).holds set bar = true := by
    rw [predicate, if_pos (by omega), comparisonAt, crosses]
    simp
  have shifted (relation : Relation) (previous : Nat) :
      (test.relationAt configuration relation (test.condition.offset + 1)).holds set
          (previous + 1) =
        (test.relationAt configuration relation test.condition.offset).holds set previous :=
    holds_relationAt_add relation test.condition.offset (Nat.le_add_left 1 previous)
  rw [both]
  constructor
  · rintro ⟨previously, now⟩
    rw [holds_relationAt_iff isTest] at now
    cases bar with
    | succ previous =>
        rw [shifted, holds_relationAt_iff isTest] at previously
        exact ⟨previous, rfl, previously, now⟩
    | zero =>
        -- Constants stand in the earlier relation at the bar itself as well.
        have same := holds_relationAt_of_lt (Nat.succ_pos test.condition.offset) previously 0
          test.condition.offset
        obtain ⟨left, right, sides, changed⟩ := now
        obtain ⟨_, _, again, unchanged⟩ := (holds_relationAt_iff isTest _ 0).1 same
        cases sides.symm.trans again
        obtain ⟨leftNumber, rightNumber⟩ := Graph.isNaN_of_sides sides
        have opposite := holds_after_iff test.condition.comparison leftNumber rightNumber
        exact absurd unchanged (opposite.1 changed)
  · rintro ⟨previous, rfl, previously, now⟩
    rw [shifted, holds_relationAt_iff isTest, holds_relationAt_iff isTest]
    exact ⟨previously, now⟩

/-- The predicate of a crossing at a single bar finds the changes of the sides. -/
theorem findsChanges
    (crosses : Relation.ofComparison? test.condition.comparison = none)
    (single : test.condition.lookback = 0) :
    FindsChanges (graph.sides? configuration set test.node test.subject test.condition)
      (fun left right =>
        (crossingRelations test.condition.comparison).1.holds left right = true)
      (fun left right =>
        (crossingRelations test.condition.comparison).2.holds left right = true)
      (fun bar => (test.predicate configuration).holds set bar = true) := by
  refine .of_iff (fun bar available => ?_) (holds_crossing_iff isTest crosses single)
  obtain ⟨⟨left, right⟩, sides⟩ := Option.isSome_iff_exists.1 available
  obtain ⟨leftNumber, rightNumber⟩ := Graph.isNaN_of_sides sides
  by_cases unchanged :
      (crossingRelations test.condition.comparison).1.holds left right = true
  · exact Or.inl ⟨left, right, sides, unchanged⟩
  · exact Or.inr ⟨left, right, sides,
      (holds_after_iff test.condition.comparison leftNumber rightNumber).2 unchanged⟩

end Test

end

/-! ## Crossings in graphs -/

namespace Graph

variable {graph : Graph}

/-- A condition that feeds an action of a well-formed graph sends a signal. -/
theorem WellFormed.exists_signal_of_feeds
    (wellFormed : graph.WellFormed)
    {id : NodeId}
    {subject : Subject}
    {condition : Condition}
    (isNode : ⟨id, .condition subject condition⟩ ∈ graph.nodes)
    (feeds : graph.FeedsAction id) :
    ∃ signal, graph.signal [] id = .ok signal := by
  have sends : ∃ target, graph.Flow id target := by
    obtain ⟨operand, states⟩ := exists_states wellFormed isNode
    obtain ⟨action, isAction, reaches⟩ := feeds
    rcases reaches.cases_head with same | ⟨target, flow, _⟩
    · exact absurd same (states.not_action wellFormed.distinct isAction)
    · exact ⟨target, flow⟩
  exact wellFormed.exists_signal sends feeds fun later none => absurd none List.not_mem_nil

/-- No crossing is missed or invented. A condition of an accepted graph that looks for a
crossing at a single bar states one test, which is the one in every signal that the node
sends, and it sends one if it feeds an action. The predicate compiled for the test finds the
changes of the two sides: upward crossings are those from at most to greater, downward ones
those from at least to less. -/
theorem crossings_found
    {graph : Graph}
    {configuration : Configuration}
    {compilation : Compilation}
    (accepted : graph.compile configuration = .ok compilation)
    {id : NodeId}
    {subject : Subject}
    {condition : Condition}
    (isNode : ⟨id, .condition subject condition⟩ ∈ graph.nodes)
    (single : condition.lookback = 0) :
    ∃ test : Test,
      test.node = id ∧ test.subject = subject ∧ test.condition = condition ∧
      (∀ path signal, graph.signal path id = .ok signal ->
        ∃ parents, signal = .gated test parents) ∧
      (graph.FeedsAction id -> ∃ parents, graph.signal [] id = .ok (.gated test parents)) ∧
      ∀ set : SeriesSet Float,
        (condition.comparison = .crossesAbove ->
          FindsChanges (graph.sides? configuration set id subject condition)
            (fun left right => left <= right)
            (fun left right => right < left)
            (fun bar => (test.predicate configuration).holds set bar = true)) ∧
        (condition.comparison = .crossesBelow ->
          FindsChanges (graph.sides? configuration set id subject condition)
            (fun left right => right <= left)
            (fun left right => left < right)
            (fun bar => (test.predicate configuration).holds set bar = true)) := by
  obtain ⟨reachable, valid, _⟩ := check_of_compile accepted
  have wellFormed := wellFormed_of_check valid
  obtain ⟨operand, states⟩ := exists_states wellFormed isNode
  have stated {path : List NodeId} {signal : Signal}
      (unfolded : graph.signal path id = .ok signal) :
      ∃ parents, signal = .gated { node := id, subject, condition, operand } parents := by
    obtain ⟨other, parents, found, _, shape⟩ := signal_of_condition states.kind unfolded
    cases states.operand.symm.trans found
    exact ⟨parents, shape⟩
  have isTest : Test.IsTestOf graph { node := id, subject, condition, operand } :=
    states.operand
  refine ⟨{ node := id, subject, condition, operand }, rfl, rfl, rfl,
    fun path signal => stated, fun feeds => ?_, fun set => ⟨fun above => ?_, fun below => ?_⟩⟩
  · obtain ⟨signal, unfolded⟩ := wellFormed.exists_signal_of_feeds isNode feeds
    obtain ⟨parents, rfl⟩ := stated unfolded
    exact ⟨parents, unfolded⟩
  · have finds := @Test.findsChanges configuration set _ _ isTest (by rw [above]; rfl) single
    simpa [above, Test.crossingRelations, Relation.holds, Quantity.less, Quantity.atMost]
      using finds
  · have finds := @Test.findsChanges configuration set _ _ isTest (by rw [below]; rfl) single
    simpa [below, Test.crossingRelations, Relation.holds, Quantity.less, Quantity.atMost]
      using finds

/-- With the open at ten, the close of the bar before is below it at the second bar and above
it at the fifth, and between them there is a bar at which the crossing is found. -/
theorem crossings_found_rising :
    ∃ test : Test,
      test.node = "cross" ∧ test.condition = ⟨.crossesAbove, none, 1, 0⟩ ∧
        SidesIn (fun left right => left <= right)
          ((crossing.withoutWindow "cross").sides? .default risingOnce "cross"
            (.price .close) ⟨.crossesAbove, none, 1, 0⟩ 1) ∧
        ∃ bar, 1 < bar ∧ bar <= 4 ∧ (test.predicate .default).holds risingOnce bar = true := by
  have accepted :
      ((crossing.withoutWindow "cross").compile .default).toOption.isSome = true := by
    decide +kernel
  obtain ⟨compilation, found⟩ := Option.isSome_iff_exists.1 accepted
  have isNode : ⟨"cross", .condition (.price .close) ⟨.crossesAbove, none, 1, 0⟩⟩ ∈
      (crossing.withoutWindow "cross").nodes := by
    decide
  obtain ⟨test, isNamed, _, sameCondition, _, _, finds⟩ :=
    crossings_found (Outcome.toOption_eq_some_iff.1 found) isNode rfl
  have available : ∀ bar < 5, 1 <= bar ->
      ((crossing.withoutWindow "cross").sides? .default risingOnce "cross"
        (.price .close) ⟨.crossesAbove, none, 1, 0⟩ bar).isSome := by
    decide +kernel
  have below : SidesIn (fun left right => left <= right)
      ((crossing.withoutWindow "cross").sides? .default risingOnce "cross"
        (.price .close) ⟨.crossesAbove, none, 1, 0⟩ 1) :=
    ⟨9, 10, by decide +kernel, by decide⟩
  refine ⟨test, isNamed, sameCondition, below,
    ((finds risingOnce).1 rfl).noneMissed 1 4 (by decide) ?_ below
      ⟨12, 10, by decide +kernel, by decide⟩⟩
  intro bar inside reached
  exact available bar (Nat.lt_succ_of_le reached) inside

end Graph
end StrategyGraph
