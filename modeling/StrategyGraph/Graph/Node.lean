import StrategyGraph.Data.Dictionary
import StrategyGraph.Indicator.Catalog
import StrategyGraph.Market.Column

/-!
# Nodes of a strategy graph

A node either states a condition on a market value, combines conditions, places
an order or limits the risk of an open position. A condition compares its
subject, a number for every bar, with a literal or with the subject of another
node.
-/

namespace StrategyGraph

/-- Identity of a node, as the author of a graph assigned it. -/
abbrev NodeId := String

/-- Comparison made by a condition. -/
inductive Comparison where
  | greater
  | less
  | equal
  | atLeast
  | atMost
  | crossesAbove
  | crossesBelow
  deriving DecidableEq, Repr, Inhabited

/-- How a condition compares, against what and at which bars. -/
structure Condition where
  comparison : Comparison
  /-- Literal to compare with, unless another node supplies the operand. -/
  compareValue : Option Float
  /-- Bars into the past, zero for the bar closed last. -/
  offset : Nat
  /-- Number of bars on any of which the comparison may hold; zero and one both
  mean exactly one bar. -/
  lookback : Nat
  deriving DecidableEq

namespace Condition

/-- The condition without any settings. -/
def default : Condition where
  comparison := .greater
  compareValue := none
  offset := 0
  lookback := 0

instance : Inhabited Condition := ⟨default⟩

/-- Largest accepted offset. -/
def largestOffset : Nat := 10000

/-- Largest accepted lookback window. -/
def largestLookback : Nat := 10000

end Condition

/-- What a condition observes: a number for every bar. -/
inductive Subject where
  | price (column : Column)
  | indicator (line : Indicator) (parameters : Dictionary Float)
  | value (constant : Float)
  deriving DecidableEq

/-- Operator of a gate. -/
inductive Gate where
  | and
  | or
  | not
  deriving DecidableEq, Repr

/-- Side of an order. -/
inductive Side where
  | buy
  | sell
  deriving DecidableEq, Repr

/-- How an order is sized. -/
inductive SizingMode where
  | allAvailable
  | fixedCash
  | fixedShares
  | percentOfEquity
  deriving DecidableEq, Repr

/-- Kind of a risk exit. -/
inductive ExitKind where
  | stopLoss
  | takeProfit
  | trailingStop
  deriving DecidableEq, Repr

/-- Unit in which the distance of a risk exit is measured. -/
inductive ExitBasis where
  | percent
  | fixedAmount
  | atrMultiple
  deriving DecidableEq, Repr

/-- What a node does. -/
inductive NodeKind where
  | condition (subject : Subject) (condition : Condition)
  | gate (gate : Gate)
  | action (side : Side) (sizing : SizingMode) (amount : Option Float)
  | exit
      (kind : ExitKind)
      (basis : ExitBasis)
      (magnitude : Float)
      (atrPeriod : Option Nat)
  deriving DecidableEq

/-- A node of a strategy graph. -/
structure Node where
  id : NodeId
  kind : NodeKind
  deriving DecidableEq

namespace Side

/-- Name of a side in reports and files. -/
def name : Side -> String
  | .buy => "buy"
  | .sell => "sell"

end Side

namespace SizingMode

/-- Name of a sizing mode in messages. -/
def label : SizingMode -> String
  | .allAvailable => "AllAvailable"
  | .fixedCash => "FixedCash"
  | .fixedShares => "FixedShares"
  | .percentOfEquity => "PercentOfEquity"

end SizingMode

namespace ExitKind

/-- Name of a risk exit in reports. -/
def text : ExitKind -> String
  | .stopLoss => "stop loss"
  | .takeProfit => "take profit"
  | .trailingStop => "trailing stop"

/-- Whether the exit closes a position that falls to its level; a take profit
closes one that rises to it. -/
def isStop : ExitKind -> Bool
  | .takeProfit => false
  | _ => true

end ExitKind

namespace Subject

/-- Name of the kind of node that observes the subject. -/
def kindName : Subject -> String
  | .price _ => "price"
  | .indicator _ _ => "indicator"
  | .value _ => "value"

end Subject

namespace Node

/-- The condition a node states, if it states one. -/
def condition? (node : Node) : Option Condition :=
  match node.kind with
  | .condition _ condition => some condition
  | _ => none

/-- What a node observes, if it states a condition. -/
def subject? (node : Node) : Option Subject :=
  match node.kind with
  | .condition subject _ => some subject
  | _ => none

/-- Whether the node states a condition. -/
def isCondition (node : Node) : Bool :=
  node.condition?.isSome

/-- Whether the node places orders. -/
def isAction (node : Node) : Bool :=
  match node.kind with
  | .action _ _ _ => true
  | _ => false

/-- Whether the node limits the risk of a position. -/
def isExit (node : Node) : Bool :=
  match node.kind with
  | .exit _ _ _ _ => true
  | _ => false

/-- Name of the kind of a node. -/
def kindName (node : Node) : String :=
  match node.kind with
  | .condition subject _ => subject.kindName
  | .gate _ => "logic"
  | .action _ _ _ => "action"
  | .exit _ _ _ _ => "exit"

end Node
end StrategyGraph
