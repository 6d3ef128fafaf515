import StrategyGraph.Run.Decision
import StrategyGraph.Run.Evaluation
import StrategyGraph.Run.ExitState
import StrategyGraph.Run.Sizing

/-!
# Sessions

A session runs a strategy bar by bar and keeps nothing but the state of its
risk exits. While a position is open, risk exits come before the exit rules of
actions; while there is none, entry rules are tried. The first rule to fire
decides the bar.

Until enough bars have closed for every reference, a session holds.
-/

namespace StrategyGraph

variable [Quantity Value]

namespace Session

/-- State of a session in which nothing has happened. -/
def start (strategy : Strategy) : ExitState Value :=
  .flat strategy.exits

/-- The close of a bar, if it is an ordinary number. -/
def closeAt? (set : SeriesSet Value) (bar : Nat) : Option Value :=
  (set.value? Column.close.key bar).filter Quantity.isFinite

/-- The value of a range series at a bar, if it is available. -/
def rangeAt? (set : SeriesSet Value) (bar : Nat) (series : IndicatorSeries) :
    Option Value :=
  (set.value? series.key bar).filter fun value => !Quantity.isNaN value

/-- The first rule of a direction that fires at a bar. -/
def firstFiring?
    (strategy : Strategy)
    (set : SeriesSet Value)
    (bar : Nat)
    (eligible : ActionRule -> Bool) : Option ActionRule :=
  strategy.actions.find? fun rule =>
    eligible rule && rule.predicate.holds set bar

/-- The entry rule that fires at a bar. Rules that would buy nothing at the close
are passed over, so that a later rule gets its turn. -/
def firstEntry? (strategy : Strategy) (set : SeriesSet Value) (bar : Nat)
    (close : Value) : Option ActionRule :=
  firstFiring? strategy set bar fun rule =>
    rule.direction = .entry && rule.sizing.opensAt close

/-- The exit rule that fires at a bar. -/
def firstExit? (strategy : Strategy) (set : SeriesSet Value) (bar : Nat) :
    Option ActionRule :=
  firstFiring? strategy set bar fun rule => rule.direction = .exit

/-- Decide without a position. -/
def decideFlat
    (strategy : Strategy)
    (set : SeriesSet Value)
    (state : ExitState Value)
    (bar : Nat) : Decision × ExitState Value :=
  match closeAt? set bar with
  | none => (.hold, state)
  | some close =>
      match firstEntry? strategy set bar close with
      | some rule => (.enter rule.node, state.enter close)
      | none => (.hold, state)

/-- Try the risk exits of an open position; without a close none triggers. -/
def tryExits
    (strategy : Strategy)
    (set : SeriesSet Value)
    (state : ExitState Value)
    (bar : Nat) : Option (ExitSignal Value) × ExitState Value :=
  match closeAt? set bar with
  | none => (none, state)
  | some close => state.onBar strategy.exits close (rangeAt? set bar)

/-- Decide with an open position. -/
def decideOpen
    (strategy : Strategy)
    (set : SeriesSet Value)
    (state : ExitState Value)
    (bar : Nat) : Decision × ExitState Value :=
  match tryExits strategy set state bar with
  | (some signal, state) => (.riskExit signal.rule, state.leave)
  | (none, state) =>
      match firstExit? strategy set bar with
      | some rule => (.exit rule.node, state.leave)
      | none => (.hold, state)

/-- Number of bars that have closed by a bar. It is counted in a machine word, so
behind the last index the count is zero again. -/
def closedBars (bar : Nat) : Nat :=
  (bar + 1) % (Binary64.largestCount + 1)

/-- By any bar but the last index there is, one more bar has closed than stand
before it. -/
theorem closedBars_of_lt {bar : Nat} (below : bar < Binary64.largestCount) :
    closedBars bar = bar + 1 :=
  Nat.mod_eq_of_lt (Nat.succ_lt_succ below)

/-- Decide at a bar, the one closed last. -/
def onBar
    (strategy : Strategy)
    (set : SeriesSet Value)
    (state : ExitState Value)
    (bar : Nat) : Decision × ExitState Value :=
  if closedBars bar < strategy.historyRequired then (.hold, state)
  else if state.isOpen then decideOpen strategy set state bar
  else decideFlat strategy set state bar

/-- Decisions over a list of bars, from a given state. -/
def decisions (strategy : Strategy) (set : SeriesSet Value) :
    ExitState Value -> List Nat -> List Decision
  | _, [] => []
  | state, bar :: bars =>
      let (decision, next) := onBar strategy set state bar
      decision :: decisions strategy set next bars

end Session

namespace Strategy

/-- Run a strategy over all bars of a set of series, one decision for each. -/
def replay (strategy : Strategy) (set : SeriesSet Value) :
    Except SeriesError (List Decision) := do
  set.checkRequirements strategy
  return Session.decisions strategy set (Session.start strategy)
    (List.range set.barCount)

end Strategy
end StrategyGraph
