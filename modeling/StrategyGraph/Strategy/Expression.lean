import StrategyGraph.Indicator.Series
import StrategyGraph.Market.Column

/-!
# Expressions

An expression describes a number for every bar: a price or indicator value some
bars back, or a constant. It is a description only. What it denotes depends on
the market data of a run.
-/

namespace StrategyGraph

/-- A number for every bar. -/
inductive Expression where
  /-- A price column, `offset` closed bars back. -/
  | price (column : Column) (offset : Nat)
  /-- An indicator series, `offset` closed bars back. -/
  | indicator (series : IndicatorSeries) (offset : Nat)
  | literal (constant : Float)
  deriving DecidableEq

namespace Expression

/-- Number of bars back, for an expression that reads a series. -/
def offset? : Expression -> Option Nat
  | .price _ offset => some offset
  | .indicator _ offset => some offset
  | .literal _ => none

/-- Key of the series an expression reads. -/
def seriesKey? : Expression -> Option String
  | .price column _ => some column.key
  | .indicator series _ => some series.key
  | .literal _ => none

/-- Position counted from the end, starting with one for the bar closed last.
The count stays within a machine word. -/
def backPosition (offset : Nat) : Nat :=
  min (offset + 1) Binary64.largestCount

/-- Position in brackets behind a series. -/
def backText (offset : Nat) : String :=
  "[-" ++ (backPosition offset).repr ++ "]"

/-- Rendered form. -/
def text : Expression -> String
  | .price column offset => column.label ++ backText offset
  | .indicator series offset => series.text ++ backText offset
  | .literal constant => NumberText.display constant

end Expression
end StrategyGraph
