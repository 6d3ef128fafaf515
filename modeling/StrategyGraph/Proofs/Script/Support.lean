import StrategyGraph.Proofs.Run.Availability
import StrategyGraph.Proofs.Script.Evaluation

/-!
# What scripts rely on

A script relies on numerals that read back, on series of the length of the closes and on
closes that are positive. Once enough bars have closed, the conditions of its action rules
then have values, and they are true where the predicates of the rules hold.
-/

namespace StrategyGraph

/-! ## Numbers of strategies -/

/-- The constant that an expression is. -/
def Expression.constant? : Expression -> Option Float
  | .literal constant => some constant
  | _ => none

/-- The money that an order is for. -/
def Sizing.cash? : Sizing -> Option Float
  | .fixedCash amount => some amount
  | _ => none

/-- Numbers that an action rule compares with. -/
def ActionRule.numbers (rule : ActionRule) : List Float :=
  rule.predicate.expressions.filterMap Expression.constant? ++ rule.sizing.cash?.toList

/-- Numbers that a strategy goes by. -/
def Strategy.numbers (strategy : Strategy) : List Float :=
  strategy.actions.flatMap ActionRule.numbers ++ strategy.exits.map ExitRule.magnitude

namespace Python

/-- What the script of a strategy relies on while it runs: numerals read back, every series
is supplied, closes are positive numbers, and there are no more bars than can be counted. -/
structure Supported
    (strategy : Strategy)
    (numeral : String -> ℚ)
    (set : SeriesSet Exact) : Prop where
  sound : strategy.Sound
  counts : ReadsCounts numeral
  numbers : ReadsBack numeral strategy.numbers
  checked : set.checkRequirements strategy = .ok ()
  closes : ∀ bar < set.barCount, ∃ close : ℚ,
    0 < close ∧ set.value? Column.close.key bar = some (.number close)
  fits : set.barCount <= Binary64.largestCount

/-! ## Conditions -/

section

variable
  {strategy : Strategy}
  {here : Surroundings}
  (supported : Supported strategy here.numeral here.set)
  (inside : here.bar < here.set.barCount)

include supported

/-- Constants of action rules read back. -/
theorem Supported.reading_action
    {rule : ActionRule}
    (isRule : rule ∈ strategy.actions) :
    ∀ x ∈ rule.numbers, reading here.numeral x = Binary64.exact x := fun x member =>
  supported.numbers x
    (List.mem_append_left _ (List.mem_flatMap.2 ⟨rule, isRule, member⟩))

theorem Supported.reading_magnitude
    {rule : ExitRule}
    (isRule : rule ∈ strategy.exits) :
    reading here.numeral rule.magnitude = Binary64.exact rule.magnitude :=
  supported.numbers rule.magnitude (List.mem_append_right _ (List.mem_map_of_mem isRule))

theorem Supported.reading_cash
    {rule : ActionRule}
    (isRule : rule ∈ strategy.actions)
    {amount : Float}
    (isCash : rule.sizing = .fixedCash amount) :
    reading here.numeral amount = Binary64.exact amount := by
  refine supported.reading_action isRule amount (List.mem_append_right _ ?_)
  rw [isCash]
  exact List.mem_singleton_self amount

include inside

/-- The ranges of risk exits are supplied at every bar. -/
theorem Supported.exists_range
    {rule : ExitRule}
    (isRule : rule ∈ strategy.exits) :
    ∀ series ∈ rule.atr, ∃ quantity,
      here.set.value? series.key here.bar = some quantity := by
  intro series reads
  have isDeclared := ((supported.sound.exits rule isRule).isDeclared series reads).2
  exact here.set.exists_value_of_checkRequirements supported.checked
    (Strategy.mem_neededKeys_of_indicator isDeclared) inside

variable (closed : strategy.historyRequired <= here.bar + 1)

include closed

/-- Once enough bars have closed, every expression of an action rule has a value. -/
theorem Supported.evaluates
    {scope : Scope}
    (ready : scope.Ready strategy.indicators)
    {rule : ActionRule}
    (isRule : rule ∈ strategy.actions)
    {expression : Expression}
    (within : expression ∈ rule.predicate.expressions) :
    Evaluates here scope expression := by
  have sound := (supported.sound.predicates rule isRule).expressions expression within
  have reached : ∀ offset ∈ expression.offset?, offset <= here.bar := by
    intro offset back
    have waited := Strategy.offset_lt_historyRequired isRule within back
      (Nat.lt_of_le_of_lt (sound.offset_le back) (by decide))
    omega
  have reads : ∀ constant, expression = .literal constant ->
      reading here.numeral constant = Binary64.exact constant := by
    rintro constant rfl
    exact supported.reading_action isRule constant
      (List.mem_append_left _ (List.mem_filterMap.2 ⟨_, within, rfl⟩))
  have evaluated := eval_expressionCode ready sound supported.counts reached reads
  have stored : ∃ value, expression.rawValue? here.set here.bar = some value := by
    cases reads : expression.seriesKey? with
    | none =>
        cases expression with
        | literal constant => exact ⟨_, rfl⟩
        | _ => cases reads
    | some key =>
        obtain ⟨offset, back, raw⟩ := Expression.rawValue_of_seriesKey reads here.set here.bar
        rw [raw, SeriesSet.valueBack?, if_pos (reached offset back)]
        exact here.set.exists_value_of_checkRequirements supported.checked
          (Strategy.mem_neededKeys_of_action isRule within reads)
          (Nat.lt_of_le_of_lt (Nat.sub_le here.bar offset) inside)
  obtain ⟨value, isValue⟩ := stored
  rw [isValue] at evaluated
  exact ⟨value, isValue, evaluated⟩

/-- The condition of an action rule is whether its predicate holds. -/
theorem Supported.eval_condition
    {scope : Scope}
    (ready : scope.Ready strategy.indicators)
    {rule : ActionRule}
    (isRule : rule ∈ strategy.actions) :
    eval here scope (term (Backtest.predicateCode rule.predicate)) =
      some (.truth (rule.predicate.holds here.set here.bar)) :=
  eval_predicateCode (supported.sound.predicates rule isRule) fun _ within =>
    supported.evaluates inside closed ready isRule within

end

end Python
end StrategyGraph
