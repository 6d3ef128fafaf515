import StrategyGraph.Graph.Node
import StrategyGraph.Indicator.Series
import StrategyGraph.Number.Quantity

/-!
# Exit rules

A risk exit closes a position at a level that lies some distance from a
reference price: below it for stops, above it for a take profit. The reference
is the entry price, or the current close for the candidate of a trailing stop.
-/

namespace StrategyGraph

/-- A compiled risk exit. -/
structure ExitRule where
  node : NodeId
  kind : ExitKind
  basis : ExitBasis
  magnitude : Float
  /-- Range series the rule reads. -/
  atr : Option IndicatorSeries
  deriving DecidableEq

namespace ExitRule

/-- Whether the level of the rule trails the price. -/
def isTrailing (rule : ExitRule) : Bool :=
  rule.kind = .trailingStop

section

variable [Quantity Value]

/-- Distance of the level from a reference price. A rule in multiples of the
range has none while there is no finite range. -/
def distance? (rule : ExitRule) (reference : Value) (range : Option Value) :
    Option Value :=
  let magnitude : Value := Quantity.ofFloat rule.magnitude
  match rule.basis with
  | .percent =>
      some (Quantity.div (Quantity.mul reference magnitude) (Quantity.ofFloat 100))
  | .fixedAmount => some magnitude
  | .atrMultiple =>
      (range.filter Quantity.isFinite).map fun range => Quantity.mul magnitude range

/-- Level for a reference price. -/
def level? (rule : ExitRule) (reference : Value) (range : Option Value) :
    Option Value :=
  (rule.distance? reference range).map fun distance =>
    if rule.kind.isStop then Quantity.sub reference distance
    else Quantity.add reference distance

/-- Whether a close lies on the closing side of a level. -/
def isBreached (rule : ExitRule) (close level : Value) : Bool :=
  if rule.kind.isStop then Quantity.atMost close level
  else Quantity.atMost level close

end

/-- Sign between the reference and the distance. -/
def sign (rule : ExitRule) : String :=
  if rule.kind.isStop then "-" else "+"

/-- The level as a formula in a named reference. -/
def formula (rule : ExitRule) (reference : String) : String :=
  let magnitude := NumberText.display rule.magnitude
  match rule.basis, rule.atr with
  | .percent, _ =>
      reference ++ " * (1 " ++ rule.sign ++ " " ++ magnitude ++ "/100)"
  | .atrMultiple, some series =>
      reference ++ " " ++ rule.sign ++ " " ++ magnitude ++ " * " ++ series.text ++ "[-1]"
  | _, _ => reference ++ " " ++ rule.sign ++ " " ++ magnitude

/-- Rendered form. -/
def text (rule : ExitRule) : String :=
  let condition :=
    match rule.kind with
    | .stopLoss => "close <= " ++ rule.formula "entry_price"
    | .takeProfit => "close >= " ++ rule.formula "entry_price"
    | .trailingStop => "close <= highest(" ++ rule.formula "close" ++ ")"
  rule.node ++ " (" ++ rule.kind.text ++ "): " ++ condition

end ExitRule
end StrategyGraph
