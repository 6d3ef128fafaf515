import StrategyGraph.Proofs.Compile.Sound
import StrategyGraph.Proofs.Market.Prefix
import StrategyGraph.Proofs.Number.Order
import StrategyGraph.Run.Session

/-!
# What a checked run reads is there

Three lists are kept apart: the series that a compiled strategy declares, the number of
bars it waits for, and the series that a set is checked for. Together they cover all that
a session looks at once it has waited: every series is there, reaches the bar at hand and
reaches as far back as it is read.
-/

namespace StrategyGraph

/-! ## Bars to wait for -/

/-- The largest offset of a predicate is at least every offset in it. -/
theorem Predicate.le_maxOffset
    {predicate : Predicate}
    {expression : Expression}
    (inside : expression ∈ predicate.expressions)
    {offset : Nat}
    (back : expression.offset? = some offset) :
    ∃ largest, predicate.maxOffset? = some largest ∧ offset <= largest := by
  have member : offset ∈ predicate.expressions.filterMap Expression.offset? :=
    List.mem_filterMap.2 ⟨expression, inside, back⟩
  obtain ⟨largest, isLargest⟩ := Option.isSome_iff_exists.1 (List.isSome_max?_of_mem member)
  exact ⟨largest, isLargest, (List.max?_eq_some_iff.1 isLargest).2 offset member⟩

namespace Strategy

variable {strategy : Strategy}

/-- As many bars are waited for as an offset that has to be available needs. -/
theorem lt_historyRequired
    {offset : Nat}
    (required : ∃ larger ∈ strategy.requiredOffsets, offset <= larger)
    (near : offset < Binary64.largestCount) :
    offset < strategy.historyRequired := by
  obtain ⟨larger, member, below⟩ := required
  obtain ⟨largest, isLargest⟩ := Option.isSome_iff_exists.1 (List.isSome_max?_of_mem member)
  have atMost := (List.max?_eq_some_iff.1 isLargest).2 larger member
  rw [historyRequired, isLargest]
  dsimp only
  omega

/-- Every bar that an action rule reads back is waited for. -/
theorem offset_lt_historyRequired
    {rule : ActionRule}
    (isRule : rule ∈ strategy.actions)
    {expression : Expression}
    (inside : expression ∈ rule.predicate.expressions)
    {offset : Nat}
    (back : expression.offset? = some offset)
    (near : offset < Binary64.largestCount) :
    offset < strategy.historyRequired := by
  obtain ⟨largest, isLargest, below⟩ := Predicate.le_maxOffset inside back
  refine lt_historyRequired ⟨largest, ?_, below⟩ near
  exact List.mem_append_right _ (List.mem_filterMap.2 ⟨rule, isRule, isLargest⟩)

/-! ## Series that are checked -/

theorem close_mem_neededKeys : Column.close.key ∈ strategy.neededKeys := by
  rw [neededKeys, List.mem_eraseDups]
  exact List.mem_cons_self

theorem mem_neededKeys_of_action
    {rule : ActionRule}
    (isRule : rule ∈ strategy.actions)
    {expression : Expression}
    (inside : expression ∈ rule.predicate.expressions)
    {key : String}
    (reads : expression.seriesKey? = some key) :
    key ∈ strategy.neededKeys := by
  rw [neededKeys, List.mem_eraseDups]
  refine List.mem_cons_of_mem _ (List.mem_append_left _ (List.mem_flatMap.2 ⟨rule, isRule, ?_⟩))
  exact List.mem_filterMap.2 ⟨expression, inside, reads⟩

theorem mem_neededKeys_of_indicator
    {key : String}
    (listed : key ∈ strategy.indicators.map IndicatorSeries.key) :
    key ∈ strategy.neededKeys := by
  rw [neededKeys, List.mem_eraseDups]
  exact List.mem_cons_of_mem _ (List.mem_append_right _ listed)

end Strategy

/-- A needed series of a checked set has a value at every bar. -/
theorem SeriesSet.exists_value_of_checkRequirements
    {set : SeriesSet Value}
    {strategy : Strategy}
    (checked : set.checkRequirements strategy = .ok ())
    {key : String}
    (needed : key ∈ strategy.neededKeys)
    {bar : Nat}
    (inside : bar < set.barCount) :
    ∃ value, set.value? key bar = some value := by
  obtain ⟨present, long⟩ := checkRequirements_eq_ok_iff.1 checked key needed
  obtain ⟨values, found⟩ := Option.isSome_iff_exists.1 present
  rw [length, found] at long
  dsimp only at long
  have reached : bar < values.size := by omega
  exact ⟨values[bar], by rw [value?, found, Option.bind_some, Array.getElem?_eq_getElem]⟩

/-! ## Expressions -/

namespace Expression

/-- An expression reads a series some bars back or is a constant. -/
theorem rawValue_of_seriesKey
    [Quantity Value]
    {expression : Expression}
    {key : String}
    (reads : expression.seriesKey? = some key)
    (set : SeriesSet Value)
    (bar : Nat) :
    ∃ offset, expression.offset? = some offset ∧
      expression.rawValue? set bar = set.valueBack? key bar offset := by
  cases expression with
  | price column offset =>
      cases reads
      exact ⟨offset, rfl, rfl⟩
  | indicator series offset =>
      cases reads
      exact ⟨offset, rfl, rfl⟩
  | literal constant => cases reads

/-- A sound expression reads at most as far back as any strategy may. -/
theorem Sound.offset_le
    {declared : List IndicatorSeries}
    {expression : Expression}
    (sound : expression.Sound declared)
    {offset : Nat}
    (back : expression.offset? = some offset) :
    offset <= largestBack := by
  cases expression with
  | price column other =>
      cases back
      exact sound
  | indicator series other =>
      cases back
      exact sound.2.2
  | literal constant => cases back

/-- Constants of compiled strategies are available. -/
theorem Sound.exists_value_of_literal
    {declared : List IndicatorSeries}
    {expression : Expression}
    (sound : expression.Sound declared)
    (constant : expression.seriesKey? = none)
    (set : SeriesSet Float)
    (bar : Nat) :
    ∃ value, expression.value? set bar = some value := by
  cases expression with
  | price column offset => cases constant
  | indicator series offset => cases constant
  | literal value =>
      have number : value.isNaN = false := Binary64.isNaN_of_isFinite sound
      refine ⟨value, Option.filter_eq_some_iff.2 ⟨rfl, ?_⟩⟩
      change (!value.isNaN) = true
      rw [number]
      rfl

end Expression

/-! ## Sound strategies -/

namespace Strategy
namespace Sound

variable {strategy : Strategy} (sound : strategy.Sound)

include sound

/-- Every offset in an action rule is one that a strategy may have. -/
theorem offset_le
    {rule : ActionRule}
    (isRule : rule ∈ strategy.actions)
    {expression : Expression}
    (inside : expression ∈ rule.predicate.expressions)
    {offset : Nat}
    (back : expression.offset? = some offset) :
    offset <= largestBack :=
  ((sound.predicates rule isRule).expressions expression inside).offset_le back

/-- Every offset that has to be available is one that a strategy may have. -/
theorem requiredOffset_le : ∀ offset ∈ strategy.requiredOffsets, offset <= largestBack := by
  intro offset required
  rw [requiredOffsets, List.mem_append] at required
  rcases required with latest | inActions
  · split at latest
    next => cases latest
    next =>
      rw [List.mem_singleton.1 latest]
      exact Nat.zero_le _
  · obtain ⟨rule, isRule, isOffset⟩ := List.mem_filterMap.1 inActions
    obtain ⟨expression, inside, back⟩ :=
      List.mem_filterMap.1 (List.max?_eq_some_iff.1 isOffset).1
    exact sound.offset_le isRule inside back

/-- The number of bars to wait for is one more than the largest offset; a machine word
holds it. -/
theorem historyRequired_eq :
    strategy.historyRequired = (strategy.requiredOffsets.max?.map (· + 1)).getD 0 := by
  rw [historyRequired]
  split
  next none => rw [none, Option.map_none, Option.getD_none]
  next largest isLargest =>
    have near := sound.requiredOffset_le largest (List.max?_eq_some_iff.1 isLargest).1
    have fits : largestBack + 1 <= Binary64.largestCount := by decide
    rw [isLargest, Option.map_some, Option.getD_some]
    exact Nat.min_eq_left ((Nat.succ_le_succ near).trans fits)

/-- No sound strategy waits for more bars than it may read back. -/
theorem historyRequired_le : strategy.historyRequired <= largestBack + 1 := by
  rw [sound.historyRequired_eq]
  cases isLargest : strategy.requiredOffsets.max? with
  | none => exact Nat.zero_le _
  | some largest =>
      exact Nat.succ_le_succ
        (sound.requiredOffset_le largest (List.max?_eq_some_iff.1 isLargest).1)

end Sound
end Strategy

/-! ## Runs -/

/-- A value that a test keeps out of an option fails the test. -/
theorem eq_false_of_filter_eq_none
    {keeps : Value -> Bool}
    {value : Value}
    (unavailable : (some value).filter keeps = none) :
    keeps value = false := by
  rw [Option.filter_eq_none_iff] at unavailable
  exact Bool.eq_false_iff.2 (unavailable value rfl)

namespace Graph

/-- A checked run of a compiled strategy never reads out of range. At every bar inside the
history by which enough bars have closed, the close, each series that an action rule reads
on either side of a comparison, as many bars back as it reads it, and each range that a
risk exit reads are stored values. So an unavailable close is a stored number that is not
finite, and any other unavailable value is a stored NaN; constants are always available. -/
theorem checked_run_reads_stored
    {graph : Graph}
    {configuration : Configuration}
    {compilation : Compilation}
    (accepted : graph.compile configuration = .ok compilation)
    {set : SeriesSet Float}
    (checked : set.checkRequirements compilation.strategy = .ok ())
    {bar : Nat}
    (inside : bar < set.barCount)
    (closed : compilation.strategy.historyRequired <= bar + 1) :
    (∃ close, set.value? Column.close.key bar = some close ∧
      (Session.closeAt? set bar = none -> close.isFinite = false)) ∧
    (∀ rule ∈ compilation.strategy.actions, ∀ expression ∈ rule.predicate.expressions,
      (∀ key, expression.seriesKey? = some key ->
        ∃ offset value, expression.offset? = some offset ∧ offset <= bar ∧
          set.value? key (bar - offset) = some value ∧
          (expression.value? set bar = none -> value.isNaN = true)) ∧
      (expression.seriesKey? = none -> ∃ value, expression.value? set bar = some value)) ∧
    ∀ rule ∈ compilation.strategy.exits, ∀ series, rule.atr = some series ->
      ∃ range, set.value? series.key bar = some range ∧
        (Session.rangeAt? set bar series = none -> range.isNaN = true) := by
  have sound := sound_of_compile accepted
  refine ⟨?_, fun rule isRule expression within => ⟨fun key reads => ?_, fun constant => ?_⟩,
    fun rule isRule series reads => ?_⟩
  · obtain ⟨close, stored⟩ :=
      set.exists_value_of_checkRequirements checked Strategy.close_mem_neededKeys inside
    refine ⟨close, stored, fun unavailable => ?_⟩
    rw [Session.closeAt?, stored] at unavailable
    exact eq_false_of_filter_eq_none unavailable
  · obtain ⟨offset, back, raw⟩ := Expression.rawValue_of_seriesKey reads set bar
    have near := ((sound.predicates rule isRule).expressions expression within).offset_le back
    have waited := Strategy.offset_lt_historyRequired isRule within back
      (Nat.lt_of_le_of_lt near (by decide))
    have reached : offset <= bar := by omega
    obtain ⟨value, stored⟩ := set.exists_value_of_checkRequirements checked
      (Strategy.mem_neededKeys_of_action isRule within reads)
      (Nat.lt_of_le_of_lt (Nat.sub_le bar offset) inside)
    refine ⟨offset, value, back, reached, stored, fun unavailable => ?_⟩
    rw [Expression.value?, raw, SeriesSet.valueBack?, if_pos reached, stored] at unavailable
    have missing := eq_false_of_filter_eq_none unavailable
    change (!value.isNaN) = false at missing
    simpa using missing
  · exact ((sound.predicates rule isRule).expressions expression within).exists_value_of_literal
      constant set bar
  · have isDeclared := ((sound.exits rule isRule).isDeclared series reads).2
    obtain ⟨range, stored⟩ := set.exists_value_of_checkRequirements checked
      (Strategy.mem_neededKeys_of_indicator isDeclared) inside
    refine ⟨range, stored, fun unavailable => ?_⟩
    rw [Session.rangeAt?, stored] at unavailable
    have missing := eq_false_of_filter_eq_none unavailable
    change (!range.isNaN) = false at missing
    simpa using missing

/-- A graph that buys when the close has crossed its average within two bars, after a bar
of delay, and stops by the range. -/
def delayedCrossing : Graph where
  nodes := [
    ⟨"cross", .condition (.price .close) ⟨.crossesAbove, none, 1, 2⟩⟩,
    ⟨"average", .condition (.indicator .sma .empty) ⟨.greater, none, 0, 0⟩⟩,
    ⟨"enter", .action .buy .allAvailable none⟩,
    ⟨"stop", .exit .stopLoss .atrMultiple 2 (some 3)⟩]
  edges := [
    ⟨"1", "cross", "enter", .flow⟩,
    ⟨"2", "average", "cross", .compareInput⟩]

/-- Four bars with the average and the range, neither of which is known at once. -/
def delayedBars : SeriesSet Float :=
  ⟨[("close", #[10, 9, 11, 12]), ("sma_20", #[0 / 0, 10, 10, 10]),
    ("atr_3", #[0 / 0, 0 / 0, 1, 1])]⟩

theorem checked_run_reads_stored_delayed :
    ∃ compilation,
      delayedCrossing.compile .default = .ok compilation ∧
        delayedBars.checkRequirements compilation.strategy = .ok () ∧
        3 < delayedBars.barCount ∧ compilation.strategy.historyRequired = 4 ∧
        (∀ rule ∈ compilation.strategy.actions, ∀ expression ∈ rule.predicate.expressions,
          ∀ key, expression.seriesKey? = some key ->
            ∃ offset value, expression.offset? = some offset ∧ offset <= 3 ∧
              delayedBars.value? key (3 - offset) = some value) := by
  have computed : (delayedCrossing.compile .default).toOption.map (fun compilation =>
      (delayedBars.checkRequirements compilation.strategy,
        compilation.strategy.historyRequired)) = some (.ok (), 4) := by
    decide +kernel
  obtain ⟨compilation, found, outcome⟩ := Option.map_eq_some_iff.1 computed
  obtain ⟨checked, required⟩ := Prod.mk.inj outcome
  have compiled := Outcome.toOption_eq_some_iff.1 found
  have inside : 3 < delayedBars.barCount := by decide
  obtain ⟨_, reads, _⟩ :=
    checked_run_reads_stored compiled checked inside (by rw [required])
  refine ⟨compilation, compiled, checked, inside, required, ?_⟩
  intro rule isRule expression within key readsKey
  obtain ⟨offset, value, back, reached, stored, _⟩ :=
    (reads rule isRule expression within).1 key readsKey
  exact ⟨offset, value, back, reached, stored⟩

end Graph
end StrategyGraph
