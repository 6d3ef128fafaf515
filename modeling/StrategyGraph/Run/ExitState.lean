import StrategyGraph.Strategy.ExitRule

/-!
# State of the risk exits

While a position is open, a run keeps its entry price and one level for every
trailing stop. Levels start unset and only ever move up. At each bar the rules
are tried in order and the first one that triggers ends the bar; the levels of
the rules behind it stay as they are.
-/

namespace StrategyGraph

/-- Why an open position should be closed. -/
structure ExitSignal (Value : Type) where
  rule : NodeId
  kind : ExitKind
  /-- Level that the close reached. -/
  level : Value

/-- Entry price and trailing levels of a run over a list of rules. -/
structure ExitState (Value : Type) where
  /-- Price at which the open position was entered. -/
  entryPrice : Option Value
  /-- One level for every rule; only trailing stops ever set theirs. -/
  levels : List (Option Value)

namespace ExitState

/-- State without a position. -/
def flat (rules : List ExitRule) : ExitState Value :=
  ⟨none, rules.map fun _ => none⟩

/-- Whether a position is open. -/
def isOpen (state : ExitState Value) : Bool :=
  state.entryPrice.isSome

/-- Start a position; all levels are unset. -/
def enter (state : ExitState Value) (price : Value) : ExitState Value :=
  ⟨some price, state.levels.map fun _ => none⟩

/-- End the position; all levels are unset. -/
def leave (state : ExitState Value) : ExitState Value :=
  ⟨none, state.levels.map fun _ => none⟩

/-- Trailing level of the first rule of a node. -/
def trailingLevel? (rules : List ExitRule) (state : ExitState Value) (node : NodeId) :
    Option Value :=
  (rules.findIdx? fun rule => rule.node == node).bind fun position =>
    (state.levels[position]?).join

variable [Quantity Value]

/-- Move a trailing level up to a candidate; an unset level takes any. -/
def ratchet (stored candidate : Option Value) : Option Value :=
  match stored, candidate with
  | stored, none => stored
  | none, some candidate => some candidate
  | some stored, some candidate =>
      if Quantity.less stored candidate then some candidate else some stored

/-- The level of a rule at a bar and the trailing level it keeps. A rule that
reads a range holds while there is none: it has no level and keeps its own. -/
def levelAt
    (rule : ExitRule)
    (entry close : Value)
    (range : Option Value)
    (stored : Option Value) : Option Value × Option Value :=
  if rule.atr.isSome && range.isNone then (none, stored)
  else if rule.isTrailing then
    let moved := ratchet stored (rule.level? close range)
    (moved, moved)
  else (rule.level? entry range, stored)

/-- Try the rules in order at a close. The outcome is the signal of the first
rule that triggers and the levels of all rules afterwards. -/
def tryRules
    (entry close : Value)
    (rangeOf : IndicatorSeries -> Option Value) :
    List ExitRule -> List (Option Value) ->
      Option (ExitSignal Value) × List (Option Value)
  | rule :: rules, stored :: levels =>
      let (level, kept) := levelAt rule entry close (rule.atr.bind rangeOf) stored
      match level.filter (rule.isBreached close) with
      | some level => (some ⟨rule.node, rule.kind, level⟩, kept :: levels)
      | none =>
          let (signal, others) := tryRules entry close rangeOf rules levels
          (signal, kept :: others)
  | _, levels => (none, levels)

/-- Try the rules at the close of a bar, with the latest values of range series.
Nothing happens without a position or without a close. The position stays open
in any case. -/
def onBar
    (rules : List ExitRule)
    (state : ExitState Value)
    (close : Value)
    (rangeOf : IndicatorSeries -> Option Value) :
    Option (ExitSignal Value) × ExitState Value :=
  match state.entryPrice with
  | none => (none, state)
  | some entry =>
      if Quantity.isNaN close then (none, state)
      else
        let (signal, levels) := tryRules entry close rangeOf rules state.levels
        (signal, { state with levels })

end ExitState
end StrategyGraph
