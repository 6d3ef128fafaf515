import StrategyGraph.Backtest.Computation
import StrategyGraph.Configuration
import StrategyGraph.Strategy.Basic

/-!
# Backtest scripts

A backtest script is a strategy class for the backtesting.py runners. The class
declares one attribute for every indicator series, named by the key of the
series. Its instance keeps the entry price and one level for every trailing
stop, so that one class serves any number of runs.

Node identities appear in remarks only, always as quoted texts.
-/

namespace StrategyGraph
namespace Backtest

/-- Close of the current bar. -/
def close : Code := .name "close"

/-- Price at which the open position was entered. -/
def entryPrice : Code := Code.own "entry_price"

/-- Open position of the run. -/
def position : Code := Code.own "position"

/-- Level of the trailing stop at a position in the list of exits. -/
def trailingLevel (index : Nat) : Code :=
  Code.own ("trail_" ++ index.repr)

/-- Latest value of an indicator series. -/
def latest (series : IndicatorSeries) : Code :=
  .itemFromEnd (Code.own series.key) 1

/-- Whether a value is missing. -/
def isMissing (value : Code) : Code :=
  .call (.attribute (.name "np") "isnan") [value]

/-- An expression as code. -/
def expressionCode : Expression -> Code
  | .price column offset =>
      .itemFromEnd (columnCode column) (Expression.backPosition offset)
  | .indicator series offset =>
      .itemFromEnd (Code.own series.key) (Expression.backPosition offset)
  | .literal constant => .number constant

mutual

/-- A predicate as code. Groups and negated predicates stand in parentheses. -/
def predicateCode : Predicate -> Code
  | .always => .true
  | .compare left relation right =>
      .comparison (expressionCode left) relation (expressionCode right)
  | .all parts => .enclosed (.conjunction (predicateCodes parts))
  | .any parts => .enclosed (.disjunction (predicateCodes parts))
  | .negation inner => .negation (.enclosed (predicateCode inner))

/-- Several predicates as code. -/
def predicateCodes : List Predicate -> List Code
  | [] => []
  | part :: parts => predicateCode part :: predicateCodes parts

end

/-! ## Exits -/

/-- Side of the reference on which the level of a rule lies. -/
def levelOperation (rule : ExitRule) : Arithmetic :=
  if rule.kind.isStop then .sub else .add

/-- Level of a rule for a reference price. -/
def levelCode (rule : ExitRule) (reference : Code) : Code :=
  let magnitude : Code := .number rule.magnitude
  match rule.basis, rule.atr with
  | .percent, _ =>
      .arithmetic reference .mul
        (.enclosed
          (.arithmetic (.count 1) (levelOperation rule)
            (.arithmetic magnitude .div (.count 100))))
  | .atrMultiple, some series =>
      .arithmetic reference (levelOperation rule)
        (.arithmetic magnitude .mul (latest series))
  | _, _ => .arithmetic reference (levelOperation rule) magnitude

/-- Conditions under which a rule is tried at all: a rule that reads a range
waits for it. -/
def guards (rule : ExitRule) : List Code :=
  rule.atr.toList.map fun series => .negation (isMissing (latest series))

/-- Statements that end the position and the bar. -/
def closing : List Statement := [
  .evaluate (.call (.attribute position "close") []),
  .evaluate (.call (Code.own "_flat") []),
  .leave]

/-- Move the level of a trailing stop up to its candidate at the close. -/
def ratcheting (index : Nat) (rule : ExitRule) : List Statement :=
  let candidate : Code := .name "candidate"
  let level := trailingLevel index
  [.assign candidate (levelCode rule close) none,
    .conditional
      (.disjunction [.isNone level, .comparison candidate .greater level])
      [.assign level candidate none]]

/-- Statements that try a trailing stop. -/
def trailingCheck (index : Nat) (rule : ExitRule) : List Statement :=
  let level := trailingLevel index
  let moving := ratcheting index rule
  (match rule.atr with
    | none => moving
    | some series => [.conditional (.negation (isMissing (latest series))) moving]) ++
  [.conditional
    (.conjunction
      (guards rule ++ [.isNotNone level, .comparison close .atMost level]))
    closing]

/-- Statements that try a rule whose level depends on the entry price. -/
def fixedCheck (rule : ExitRule) : List Statement :=
  let relation : Relation := if rule.kind.isStop then .atMost else .atLeast
  [.conditional
    (.conjunction
      (guards rule ++ [.comparison close relation (levelCode rule entryPrice)]))
    closing]

/-- Statements that try a risk exit. -/
def exitCheck (index : Nat) (rule : ExitRule) : List Statement :=
  .remark (rule.kind.text ++ " " ++ Quoted.encode rule.node) ::
    (if rule.isTrailing then trailingCheck index rule else fixedCheck rule)

/-- Statements that try an exit rule of an action. -/
def exitRuleCheck (rule : ActionRule) : List Statement := [
  .remark (Quoted.encode rule.node),
  .conditional (predicateCode rule.predicate) closing]

/-! ## Entries -/

/-- What a size in money has to satisfy so that it buys a share. -/
def sizeGuards : Sizing -> List Code
  | .fixedCash amount =>
      [.comparison (.arithmetic (.number amount) .floorDiv close) .atLeast (.count 1)]
  | _ => []

/-- Whether orders of a size can buy anything at any price. -/
def canBuy : Sizing -> Bool
  | .percentOfEquity percent => !(percent <= 0)
  | _ => true

/-- Whole number of shares for a fixed number of them, at least one. -/
def wholeShares (shares : Float) : Float :=
  let whole := Binary64.floor shares
  if 1 < whole then whole else 1

/-- Fraction of equity for a percentage; sizes from one upwards would be taken for
shares. -/
def equityFraction (percent : Float) : Float :=
  let fraction := percent / 100
  if fraction < 0.9999 then fraction else 0.9999

/-- Size argument of an order, if it has one. -/
def orderSize? : Sizing -> Option Code
  | .allAvailable => none
  | .fixedShares shares => some (.number (wholeShares shares))
  | .fixedCash amount =>
      some (.call (.name "int") [.arithmetic (.number amount) .floorDiv close])
  | .percentOfEquity percent => some (.number (equityFraction percent))

/-- Statements that place an order and end the bar. -/
def opening (sizing : Sizing) : List Statement :=
  let size := (orderSize? sizing).toList.map fun size => Code.keyword "size" size
  [.evaluate (.call (Code.own "buy") size),
    .evaluate (.call (Code.own "_opened") [close]),
    .leave]

/-- Statements that try an entry rule. A rule that can buy nothing is left out, so
that later ones get their turn. -/
def entryRuleCheck (rule : ActionRule) : List Statement :=
  .remark (Quoted.encode rule.node) ::
    if canBuy rule.sizing then
      [.conditional
        (.conjunction (predicateCode rule.predicate :: sizeGuards rule.sizing))
        (opening rule.sizing)]
    else [.remark "sizes to zero, never enters"]

/-! ## The class -/

/-- Positions and rules of the trailing stops. -/
def trailingRules (strategy : Strategy) : List (Nat × ExitRule) :=
  (strategy.exits.mapIdx fun index rule => (index, rule)).filter fun entry =>
    entry.2.isTrailing

/-- Action rules of a direction. -/
def rulesOf (direction : Direction) (strategy : Strategy) : List ActionRule :=
  strategy.actions.filter fun rule => rule.direction = direction

/-- The method that declares state and indicators. -/
def declarations (strategy : Strategy) : Statement :=
  .method "init" ["self"]
    (.assign entryPrice .none none ::
      ((trailingRules strategy).map (fun entry =>
        .assign (trailingLevel entry.1) .none (some (Quoted.encode entry.2.node))) ++
      strategy.indicators.map fun series =>
        .assign (Code.own series.key) (declaration series) none))

/-- Statements that wait for the history a strategy needs. -/
def waiting (strategy : Strategy) : List Statement :=
  if 1 < strategy.historyRequired then
    [.conditional
      (.comparison (.call (.name "len") [Code.own "data"]) .less
        (.count strategy.historyRequired))
      [.leave]]
  else []

/-- Statements for a bar with an open position. -/
def holding (strategy : Strategy) : List Statement :=
  (strategy.exits.mapIdx exitCheck).flatten ++
    (rulesOf .exit strategy).flatMap exitRuleCheck ++ [.leave]

/-- The method that decides at a bar. -/
def decisions (strategy : Strategy) : Statement :=
  .method "next" ["self"]
    (waiting strategy ++
      [.assign close (.itemFromEnd (columnCode .close) 1) none,
        .conditional position (holding strategy)] ++
      (rulesOf .entry strategy).flatMap entryRuleCheck)

/-- A method that sets the entry price and unsets all trailing levels. -/
def resetting (name : String) (parameters : List String) (price : Code)
    (strategy : Strategy) : Statement :=
  .method name ("self" :: parameters)
    (.assign entryPrice price none ::
      (trailingRules strategy).map fun entry =>
        .assign (trailingLevel entry.1) .none none)

/-- Modules that a script needs. -/
def imports (strategy : Strategy) : List Statement :=
  .importModule "numpy" (some "np") ::
    ((if strategy.indicators.isEmpty then [] else [.importModule "talib" none]) ++
      [.importFrom "backtesting" "Strategy"])

/-- Statements of the script of a strategy. -/
def statements (strategy : Strategy) (className : String) : List Statement :=
  imports strategy ++
    [.blank, .blank,
      .classOf className "Strategy" [
        declarations strategy, .blank,
        decisions strategy, .blank,
        resetting "_opened" ["price"] (.name "price") strategy, .blank,
        resetting "_flat" [] .none strategy]]

end Backtest

namespace Strategy

/-- The backtest script of a strategy, unless the class name is refused. -/
def script (strategy : Strategy) (className : String) :
    Except ConfigurationError String := do
  checkClassName className
  return Backtest.Statement.script (Backtest.statements strategy className)

end Strategy
end StrategyGraph
