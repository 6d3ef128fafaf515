import StrategyGraph.Market.Calendar
import StrategyGraph.Market.Column

/-!
# Bars

A bar holds the prices and the volume of one trading day. Missing numbers are
NaN.
-/

namespace StrategyGraph

/-- Prices and volume of one day. -/
structure Bar where
  date : Date
  opening : Float
  high : Float
  low : Float
  close : Float
  volume : Float
  deriving DecidableEq

namespace Bar

/-- The number a bar has in a column. -/
def column (bar : Bar) : Column -> Float
  | .opening => bar.opening
  | .high => bar.high
  | .low => bar.low
  | .close => bar.close
  | .volume => bar.volume

/-- Whether one of the prices is missing. -/
def isVoid (bar : Bar) : Bool :=
  bar.opening.isNaN || bar.high.isNaN || bar.low.isNaN || bar.close.isNaN

/-- Whether all prices are there, the high and low enclose the others and the
close is positive. -/
def isSane (bar : Bar) : Bool :=
  !bar.isVoid && bar.low <= bar.high && bar.opening <= bar.high &&
    bar.close <= bar.high && bar.low <= bar.opening && bar.low <= bar.close &&
    0 < bar.close

end Bar
end StrategyGraph
