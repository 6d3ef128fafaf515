import StrategyGraph.Strategy.ActionRule
import StrategyGraph.Strategy.ExitRule

/-!
# Compiled strategies

A compiled strategy is plain data: the series it reads, its action rules, its
risk exits and the state a run has to keep for them. It holds nothing of any
run.
-/

namespace StrategyGraph

/-- A value that a run keeps for the risk exits. -/
inductive StateSlot where
  /-- Price at which the open position was entered. -/
  | entryPrice
  /-- Level of one trailing stop. -/
  | trailingStop (rule : NodeId)
  deriving DecidableEq

/-- Outcome of compiling a graph. -/
structure Strategy where
  /-- Series the strategy reads, in the order of first use. -/
  indicators : List IndicatorSeries
  /-- One rule for every action, in node order. -/
  actions : List ActionRule
  /-- One rule for every risk exit, in node order. -/
  exits : List ExitRule
  stateSlots : List StateSlot

namespace StateSlot

/-- State that a list of exit rules needs. -/
def ofExits (exits : List ExitRule) : List StateSlot :=
  if exits.isEmpty then []
  else
    .entryPrice ::
      (exits.filter ExitRule.isTrailing).map fun rule => .trailingStop rule.node

end StateSlot

namespace Strategy

/-- Offsets that have to be available: those the actions read, and the latest
bar if there are risk exits. -/
def requiredOffsets (strategy : Strategy) : List Nat :=
  (if strategy.exits.isEmpty then [] else [0]) ++
    strategy.actions.filterMap fun rule => rule.predicate.maxOffset?

/-- Closed bars needed before every reference is defined: one more than the
largest offset, within a machine word. -/
def historyRequired (strategy : Strategy) : Nat :=
  match strategy.requiredOffsets.max? with
  | none => 0
  | some offset => min (offset + 1) Binary64.largestCount

end Strategy
end StrategyGraph
