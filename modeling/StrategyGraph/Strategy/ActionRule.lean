import StrategyGraph.Strategy.Predicate

/-!
# Action rules

An action rule fires when its predicate holds and the position is in the state
that its direction needs: entries open a position, exits close it.
-/

namespace StrategyGraph

/-- The position state in which a rule may fire. -/
inductive Direction where
  /-- Opens a position while there is none. -/
  | entry
  /-- Closes the open position. -/
  | exit
  deriving DecidableEq, Repr

/-- How many shares an order is for. -/
inductive Sizing where
  | allAvailable
  | fixedCash (amount : Float)
  | fixedShares (shares : Float)
  /-- Percentage of current equity. -/
  | percentOfEquity (percent : Float)
  deriving DecidableEq

/-- A compiled action. -/
structure ActionRule where
  node : NodeId
  side : Side
  direction : Direction
  predicate : Predicate
  sizing : Sizing

namespace Direction

/-- Buying opens a position and selling closes it. -/
def ofSide : Side -> Direction
  | .buy => .entry
  | .sell => .exit

/-- Name of a direction in reports and files. -/
def name : Direction -> String
  | .entry => "entry"
  | .exit => "exit"

end Direction

namespace Sizing

/-- Rendered form. -/
def text : Sizing -> String
  | .allAvailable => "all available"
  | .fixedCash amount => "cash " ++ NumberText.display amount
  | .fixedShares shares => NumberText.display shares ++ " shares"
  | .percentOfEquity percent => NumberText.display percent ++ "% of equity"

end Sizing

namespace ActionRule

/-- Rendered form. -/
def text (rule : ActionRule) : String :=
  rule.node ++ " (" ++ rule.side.name ++ ", " ++ rule.direction.name ++ ", " ++
    rule.sizing.text ++ "): " ++ rule.predicate.text

end ActionRule
end StrategyGraph
