import StrategyGraph.Number.Quantity
import StrategyGraph.Strategy.ActionRule

/-!
# Order sizes

The number of shares an order is for at a price and an account's equity. Orders
sized by an amount of money are rounded down to whole shares, so that they stay
within their budget.
-/

namespace StrategyGraph
namespace Sizing

variable [Quantity Value]

/-- Whether a quantity is finite and positive. -/
def isUsable (quantity : Value) : Bool :=
  Quantity.isFinite quantity &&
    !Quantity.atMost quantity (Quantity.ofFloat 0)

/-- Whole shares that a budget buys at a price. -/
def affordable (budget price : Value) : Value :=
  if isUsable budget then Quantity.floor (Quantity.div budget price)
  else Quantity.ofFloat 0

/-- Shares to trade at a price with a given equity. Nothing is traded at a price
that is not finite and positive. -/
def quantity (sizing : Sizing) (price equity : Value) : Value :=
  if isUsable price then
    match sizing with
    | .fixedShares shares => Quantity.ofFloat shares
    | .fixedCash amount => affordable (Quantity.ofFloat amount) price
    | .allAvailable => affordable equity price
    | .percentOfEquity percent =>
        affordable
          (Quantity.div (Quantity.mul equity (Quantity.ofFloat percent))
            (Quantity.ofFloat 100))
          price
  else Quantity.ofFloat 0

/-- Whether an entry opens a position at a price. Shares of the equity are judged
by their percentage alone; a fixed amount must buy at least one share. -/
def opensAt (sizing : Sizing) (price : Value) : Bool :=
  match sizing with
  | .allAvailable | .fixedShares _ => true
  | .percentOfEquity percent =>
      Quantity.less (Quantity.ofFloat 0 : Value) (Quantity.ofFloat percent)
  | .fixedCash _ =>
      Quantity.atMost (Quantity.ofFloat 1)
        (sizing.quantity price (Quantity.ofFloat 0))

end Sizing
end StrategyGraph
