/-!
# Indicator catalog

The closed set of indicators a graph may use. Indicator values are computed
elsewhere: the catalog only says which indicators exist, which parameters each
one takes and what their documented defaults are. An indicator with several
output lines appears once for every line.
-/

namespace StrategyGraph

/-- An indicator output line. -/
inductive Indicator where
  | sma
  | ema
  | wma
  | rsi
  | macdLine
  | macdSignal
  | macdHistogram
  | bollingerUpper
  | bollingerMiddle
  | bollingerLower
  | stochK
  | stochD
  | atr
  | adx
  | cci
  | roc
  | momentum
  | obv
  | donchianUpper
  | donchianLower
  | aroonUp
  | aroonDown
  deriving DecidableEq, Repr, Inhabited

/-- Definition of an indicator parameter. -/
structure Parameter where
  name : String
  default : Float
  /-- Whether values must be whole numbers, as periods are. -/
  whole : Bool
  deriving DecidableEq

namespace Parameter

/-- A whole-number parameter called `period`. -/
def period (default : Float) : Parameter :=
  ⟨"period", default, true⟩

end Parameter

namespace Indicator

/-- Every indicator, in catalog order. -/
def all : List Indicator := [
  .sma, .ema, .wma, .rsi, .macdLine, .macdSignal, .macdHistogram,
  .bollingerUpper, .bollingerMiddle, .bollingerLower, .stochK, .stochD,
  .atr, .adx, .cci, .roc, .momentum, .obv, .donchianUpper, .donchianLower,
  .aroonUp, .aroonDown]

/-- Name in files and at the front of series keys. -/
def name : Indicator -> String
  | .sma => "sma"
  | .ema => "ema"
  | .wma => "wma"
  | .rsi => "rsi"
  | .macdLine => "macd_line"
  | .macdSignal => "macd_signal"
  | .macdHistogram => "macd_histogram"
  | .bollingerUpper => "bollinger_upper"
  | .bollingerMiddle => "bollinger_middle"
  | .bollingerLower => "bollinger_lower"
  | .stochK => "stoch_k"
  | .stochD => "stoch_d"
  | .atr => "atr"
  | .adx => "adx"
  | .cci => "cci"
  | .roc => "roc"
  | .momentum => "momentum"
  | .obv => "obv"
  | .donchianUpper => "donchian_upper"
  | .donchianLower => "donchian_lower"
  | .aroonUp => "aroon_up"
  | .aroonDown => "aroon_down"

/-- Label in rendered conditions. -/
def label : Indicator -> String
  | .sma => "SMA"
  | .ema => "EMA"
  | .wma => "WMA"
  | .rsi => "RSI"
  | .macdLine => "MACD"
  | .macdSignal => "MACD.signal"
  | .macdHistogram => "MACD.hist"
  | .bollingerUpper => "BB.upper"
  | .bollingerMiddle => "BB.middle"
  | .bollingerLower => "BB.lower"
  | .stochK => "Stoch.K"
  | .stochD => "Stoch.D"
  | .atr => "ATR"
  | .adx => "ADX"
  | .cci => "CCI"
  | .roc => "ROC"
  | .momentum => "MOM"
  | .obv => "OBV"
  | .donchianUpper => "Donchian.upper"
  | .donchianLower => "Donchian.lower"
  | .aroonUp => "Aroon.up"
  | .aroonDown => "Aroon.down"

/-- Parameters in their canonical order. -/
def parameters : Indicator -> List Parameter
  | .sma | .ema | .wma => [.period 20]
  | .rsi => [.period 14]
  | .macdLine | .macdSignal | .macdHistogram =>
      [⟨"fast", 12, true⟩, ⟨"slow", 26, true⟩, ⟨"signal", 9, true⟩]
  | .bollingerUpper | .bollingerMiddle | .bollingerLower =>
      [.period 20, ⟨"std_dev", 2, false⟩]
  | .stochK | .stochD => [⟨"k_period", 14, true⟩, ⟨"d_period", 3, true⟩]
  | .atr | .adx => [.period 14]
  | .cci => [.period 20]
  | .roc => [.period 12]
  | .momentum => [.period 10]
  | .obv => []
  | .donchianUpper | .donchianLower => [.period 20]
  | .aroonUp | .aroonDown => [.period 25]

/-- The indicator of a name. -/
def ofName? (name : String) : Option Indicator :=
  all.find? fun indicator => indicator.name == name

/-- The parameter of an indicator with a given name. -/
def parameter? (indicator : Indicator) (name : String) : Option Parameter :=
  indicator.parameters.find? fun parameter => parameter.name == name

theorem mem_all (indicator : Indicator) : indicator ∈ all := by
  cases indicator <;> decide

/-- Names identify indicators. -/
theorem ofName?_name (indicator : Indicator) : ofName? indicator.name = some indicator := by
  cases indicator <;> decide

end Indicator
end StrategyGraph
