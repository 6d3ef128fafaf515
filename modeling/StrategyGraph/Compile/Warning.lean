import StrategyGraph.Data.Datum
import StrategyGraph.Graph.Node
import StrategyGraph.Number.Text

/-!
# Warnings

A warning points at something that was compiled but may not have been meant.
Warnings are reported once each, in the order in which the compiler meets them.
-/

namespace StrategyGraph

/-- Something the compiler accepted with a doubt. -/
inductive Warning where
  /-- A parameter was left out and got a default. -/
  | defaultParameter
      (node : NodeId)
      (indicator : Indicator)
      (parameter : String)
      (value : Float)
  /-- A parameter that the indicator does not know was given. -/
  | unknownParameter (node : NodeId) (parameter : String)
  /-- A condition has nothing to compare with. -/
  | missingCompareOperand (node : NodeId)
  /-- An action has no input. -/
  | ungatedAction (node : NodeId)
  /-- An amount was given that the sizing does not use. -/
  | ignoredAmount (node : NodeId)
  /-- The period of a range-based exit was left out. -/
  | defaultAtrPeriod (node : NodeId) (period : Nat)
  /-- A period was given to an exit that is not based on the range. -/
  | ignoredAtrPeriod (node : NodeId)
  /-- A literal operand is overridden by a compare edge. -/
  | unusedCompareValue (node : NodeId)
  /-- A condition or gate feeds no action. -/
  | unreachableNode (node : NodeId)
  deriving DecidableEq

namespace Warning

/-- The node a warning is about. -/
def node : Warning -> NodeId
  | .defaultParameter node _ _ _ => node
  | .unknownParameter node _ => node
  | .missingCompareOperand node => node
  | .ungatedAction node => node
  | .ignoredAmount node => node
  | .defaultAtrPeriod node _ => node
  | .ignoredAtrPeriod node => node
  | .unusedCompareValue node => node
  | .unreachableNode node => node

/-- Wording of a warning behind the node it is about. -/
def remark : Warning -> String
  | .defaultParameter _ indicator parameter value =>
      indicator.name ++ " parameter `" ++ parameter ++ "` not set, using " ++
        NumberText.display value
  | .unknownParameter _ parameter => "unknown parameter `" ++ parameter ++ "` ignored"
  | .missingCompareOperand _ =>
      "no compare value or compare input, comparing against 0"
  | .ungatedAction _ => "action has no input and fires on every eligible bar"
  | .ignoredAmount _ => "amount is ignored for all_available sizing"
  | .defaultAtrPeriod _ period => "ATR period not set, using " ++ period.repr
  | .ignoredAtrPeriod _ => "atr_period is ignored unless the basis is atr_multiple"
  | .unusedCompareValue _ => "compare value overridden by compare input"
  | .unreachableNode _ => "node does not feed any action"

/-- Wording of a warning. -/
def text (warning : Warning) : String :=
  warning.node ++ ": " ++ warning.remark

/-- Name of the kind of a warning. -/
def name : Warning -> String
  | .defaultParameter _ _ _ _ => "default_parameter"
  | .unknownParameter _ _ => "unknown_parameter"
  | .missingCompareOperand _ => "missing_compare_operand"
  | .ungatedAction _ => "ungated_action"
  | .ignoredAmount _ => "ignored_amount"
  | .defaultAtrPeriod _ _ => "default_atr_period"
  | .ignoredAtrPeriod _ => "ignored_atr_period"
  | .unusedCompareValue _ => "unused_compare_value"
  | .unreachableNode _ => "unreachable_node"

/-- What a warning says beyond its kind and its node. -/
def details : Warning -> List (String × Datum)
  | .defaultParameter _ indicator parameter value => [
      ("indicator", .text indicator.name), ("param", .text parameter),
      ("value", .number value)]
  | .unknownParameter _ parameter => [("param", .text parameter)]
  | .defaultAtrPeriod _ period => [("period", .ofNat period)]
  | _ => []

/-- Written form of a warning. -/
def toDatum (warning : Warning) : Datum :=
  .record
    (("warning", .text warning.name) :: ("node", .text warning.node) ::
      warning.details)

end Warning
end StrategyGraph
