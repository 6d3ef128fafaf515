import StrategyGraph.Proofs.Script.Evaluation
import StrategyGraph.Run.Sizing

/-!
# Sizes of orders

The condition of an entry holds where its rule fires and its size buys something.
-/

namespace StrategyGraph
namespace Python

open Backtest (Code)
open NumberText (isSigned unsigned)

/-- A percentage buys something exactly when it is positive. -/
theorem opensAt_percentOfEquity
    {percent : Float}
    (finite : percent.isFinite = true)
    (price : Exact) :
    (Sizing.percentOfEquity percent).opensAt price =
      Backtest.canBuy (.percentOfEquity percent) := by
  have positive := (Binary64.not_le_zero_iff finite).trans (Binary64.zero_lt_exact_iff finite).symm
  rw [Sizing.opensAt, Exact.ofFloat_zero, Exact.ofFloat_of_isFinite finite, Exact.less_number,
    Backtest.canBuy]
  by_cases small : percent <= 0
  · simp [small, ← positive]
  · simp [small, positive.1 small]

theorem isUsable_of_pos {value : ℚ} (positive : 0 < value) :
    Sizing.isUsable (Exact.number value) = true := by
  rw [Sizing.isUsable, Exact.ofFloat_zero]
  simpa using positive

/-- An amount of money buys the whole shares that it pays. -/
theorem quantity_fixedCash
    {amount : Float}
    (finite : amount.isFinite = true)
    (positive : 0 < amount)
    {price : ℚ}
    (isPositive : 0 < price)
    (equity : Exact) :
    (Sizing.fixedCash amount).quantity (.number price) equity =
      .number ⌊Binary64.exact amount / price⌋ := by
  have budget := isUsable_of_pos ((Binary64.zero_lt_exact_iff finite).2 positive)
  rw [Sizing.quantity, if_pos (isUsable_of_pos isPositive), Exact.ofFloat_of_isFinite finite,
    Sizing.affordable, if_pos budget, Exact.div_number, Exact.floor_number]

/-- An amount of money buys something exactly when it buys a whole share. -/
theorem opensAt_fixedCash
    {amount : Float}
    (finite : amount.isFinite = true)
    (positive : 0 < amount)
    {price : ℚ}
    (isPositive : 0 < price) :
    (Sizing.fixedCash amount).opensAt (Exact.number price) =
      decide (1 <= (⌊Binary64.exact amount / price⌋ : ℚ)) := by
  rw [Sizing.opensAt, quantity_fixedCash finite positive isPositive, Exact.ofFloat_one,
    Exact.atMost_number]

section

variable
  {here : Surroundings}
  {scope : Scope}
  {declared : List IndicatorSeries}
  {price : ℚ}
  (isPrice : eval here scope (term Backtest.close) = some (.number (.number price)))
  (isPositive : 0 < price)

include isPrice isPositive

theorem eval_quotient
    {amount : Float}
    (finite : amount.isFinite = true)
    (reads : reading here.numeral amount = Binary64.exact amount) :
    eval here scope (term (.arithmetic (.number amount) .floorDiv Backtest.close)) =
      some (.number (.number ⌊Binary64.exact amount / price⌋)) := by
  have money := eval_number scope finite reads
  rw [Exact.ofFloat_of_isFinite finite] at money
  rw [eval_arithmetic money isPrice, Value.arithmetic, if_neg]
  · generalize Binary64.exact amount = money
    rfl
  · intro zero
    exact ne_of_gt isPositive (Exact.number.inj zero)

/-- An order for an amount of money is for the whole shares that it pays. -/
theorem eval_cashOrder
    (whole : scope.value? "int" = some (.builtin .int))
    {amount : Float}
    (finite : amount.isFinite = true)
    (reads : reading here.numeral amount = Binary64.exact amount) :
    eval here scope
        (term (.call (.name "int") [.arithmetic (.number amount) .floorDiv Backtest.close])) =
      some (.number (.number (Value.truncate ⌊Binary64.exact amount / price⌋))) := by
  have quotient := eval_quotient isPrice isPositive finite reads
  have function : eval here scope (.name "int") = some (.builtin .int) := by
    rw [eval_name, whole]
  change eval here scope
    (.call (.name "int") [term (.arithmetic (.number amount) .floorDiv Backtest.close)]) = _
  rw [eval, function, evalEach, quotient]
  rfl

/-- The condition of an entry holds if its predicate does and the size buys
something. -/
theorem eval_entryCondition
    {rule : ActionRule}
    (sized : rule.sizing.Sound)
    (buys : Backtest.canBuy rule.sizing = true)
    (counts : ReadsCounts here.numeral)
    (reads : ∀ amount, rule.sizing = .fixedCash amount ->
      reading here.numeral amount = Binary64.exact amount)
    {holds : Bool}
    (isTruth : eval here scope (term (Backtest.predicateCode rule.predicate)) =
      some (.truth holds)) :
    eval here scope (term (.conjunction
      (Backtest.predicateCode rule.predicate :: Backtest.sizeGuards rule.sizing))) =
        some (.truth (holds && rule.sizing.opensAt (Exact.number price))) := by
  have unguarded : ∀ sizing : Sizing, (∀ amount, sizing ≠ .fixedCash amount) ->
      (Backtest.sizeGuards sizing).map term = [] := by
    intro sizing other
    cases sizing with
    | fixedCash amount => exact absurd rfl (other amount)
    | _ => rfl
  rw [eval_conjunction (List.cons_ne_nil _ _), List.map_cons]
  cases sizing : rule.sizing with
  | allAvailable =>
      rw [unguarded .allAvailable (by simp), evalUntil_singleton, isTruth, Sizing.opensAt,
        Bool.and_true]
  | fixedShares shares =>
      rw [unguarded (.fixedShares shares) (by simp), evalUntil_singleton, isTruth,
        Sizing.opensAt, Bool.and_true]
  | percentOfEquity percent =>
      rw [sizing] at sized buys
      rw [unguarded (.percentOfEquity percent) (by simp), evalUntil_singleton, isTruth,
        opensAt_percentOfEquity sized, buys, Bool.and_true]
  | fixedCash amount =>
      rw [sizing] at sized
      have one := eval_count scope counts (show 1 < NumberText.wholeBound by decide)
      have quotient := eval_quotient isPrice isPositive sized.1 (reads amount sizing)
      have enough := eval_comparison quotient one .atLeast
      rw [opensAt_fixedCash sized.1 sized.2 isPositive]
      cases holds with
      | false => exact evalUntil_of_decides isTruth _
      | true =>
          rw [evalUntil_of_passes isTruth (by simp [Backtest.sizeGuards]), Backtest.sizeGuards,
            List.map_cons, List.map_nil, evalUntil_singleton, enough, Relation.holds,
            Exact.atMost_number, Nat.cast_one, Bool.true_and]

omit isPrice isPositive

theorem exists_eval_number
    {x : Float}
    (finite : x.isFinite = true) :
    ∃ value, eval here scope (term (.number x)) = some value := by
  rw [term, numberTerm, if_pos finite]
  cases isSigned x with
  | false => exact ⟨_, by rw [if_neg Bool.false_ne_true, eval]⟩
  | true => exact ⟨_, by rw [if_pos rfl, eval, eval]; rfl⟩

include isPrice isPositive

/-- The size of an order has a value. -/
theorem exists_eval_orderSize
    (ready : scope.Ready declared)
    {sizing : Sizing}
    (sized : sizing.Sound)
    (buys : Backtest.canBuy sizing = true)
    (reads : ∀ amount, sizing = .fixedCash amount ->
      reading here.numeral amount = Binary64.exact amount) :
    ∀ size ∈ Backtest.orderSize? sizing,
      ∃ value, eval here scope (term size) = some value := by
  intro size member
  cases sizing with
  | allAvailable => cases member
  | fixedShares shares =>
      cases member
      exact exists_eval_number (Backtest.isFinite_wholeShares sized.1 sized.2)
  | fixedCash amount =>
      cases member
      exact ⟨_, eval_cashOrder isPrice isPositive ready.whole sized.1 (reads amount rfl)⟩
  | percentOfEquity percent =>
      cases member
      have positive : 0 < percent := by
        refine (Binary64.not_le_zero_iff sized).1 ?_
        simpa [Backtest.canBuy] using buys
      exact exists_eval_number (Backtest.isFinite_equityFraction sized positive)

end

end Python
end StrategyGraph
