import StrategyGraph.Backtest.Code
import StrategyGraph.Indicator.Series

/-!
# Computation of indicators

Backtest scripts compute indicators with TA-Lib. The table says for every
indicator which function computes it, from which columns, with which settings,
and which of several output lines is meant.
-/

namespace StrategyGraph
namespace Backtest

/-- How an indicator is computed. -/
structure Computation where
  /-- Name of the library function. -/
  function : String
  /-- Columns it takes, in order. -/
  inputs : List Column
  /-- Settings, each with the parameter that gives its value. -/
  settings : List (String × String)
  /-- Position of the output line, for a function with several of them. -/
  outputLine : Option Nat

namespace Computation

/-- A function of some columns over a period. -/
def overPeriod (function : String) (inputs : List Column) : Computation :=
  ⟨function, inputs, [("timeperiod", "period")], none⟩

/-- An output line of the moving average convergence and divergence. -/
def convergence (outputLine : Nat) : Computation where
  function := "MACD"
  inputs := [.close]
  settings := [("fastperiod", "fast"), ("slowperiod", "slow"), ("signalperiod", "signal")]
  outputLine := some outputLine

/-- An output line of the Bollinger bands. -/
def bands (outputLine : Nat) : Computation where
  function := "BBANDS"
  inputs := [.close]
  settings := [("timeperiod", "period"), ("nbdevup", "std_dev"), ("nbdevdn", "std_dev")]
  outputLine := some outputLine

/-- An output line of the stochastic oscillator. -/
def oscillator (outputLine : Nat) : Computation where
  function := "STOCH"
  inputs := [.high, .low, .close]
  settings := [
    ("fastk_period", "k_period"), ("slowk_period", "d_period"),
    ("slowd_period", "d_period")]
  outputLine := some outputLine

/-- An output line of Aroon; the line for lows comes first. -/
def aroon (outputLine : Nat) : Computation :=
  { overPeriod "AROON" [.high, .low] with outputLine := some outputLine }

/-- The computation of an indicator. -/
def ofIndicator : Indicator -> Computation
  | .sma => overPeriod "SMA" [.close]
  | .ema => overPeriod "EMA" [.close]
  | .wma => overPeriod "WMA" [.close]
  | .rsi => overPeriod "RSI" [.close]
  | .macdLine => convergence 0
  | .macdSignal => convergence 1
  | .macdHistogram => convergence 2
  | .bollingerUpper => bands 0
  | .bollingerMiddle => bands 1
  | .bollingerLower => bands 2
  | .stochK => oscillator 0
  | .stochD => oscillator 1
  | .atr => overPeriod "ATR" [.high, .low, .close]
  | .adx => overPeriod "ADX" [.high, .low, .close]
  | .cci => overPeriod "CCI" [.high, .low, .close]
  | .roc => overPeriod "ROC" [.close]
  | .momentum => overPeriod "MOM" [.close]
  | .obv => ⟨"OBV", [.close, .volume], [], none⟩
  | .donchianUpper => overPeriod "MAX" [.high]
  | .donchianLower => overPeriod "MIN" [.low]
  | .aroonUp => aroon 1
  | .aroonDown => aroon 0

/-- Short name of a column inside a computation. -/
def inputName : Column -> String
  | .opening => "o"
  | .high => "h"
  | .low => "l"
  | .close => "c"
  | .volume => "v"

/-- The values of a computation with the settings of a series, as a function of
its inputs. -/
def body (computation : Computation) (series : IndicatorSeries) : Code :=
  let values : Code :=
    .call (.attribute (.name "talib") computation.function)
      (computation.inputs.map (fun input => .name (inputName input)) ++
        computation.settings.map fun setting =>
          .keyword setting.1 (.number (series.value setting.2)))
  match computation.outputLine with
  | some position => .item values position
  | none => values

end Computation

/-- A column of the market data of a run. -/
def columnCode (column : Column) : Code :=
  .attribute (Code.own "data") column.label

/-- The declaration of an indicator series, which has the run compute it. -/
def declaration (series : IndicatorSeries) : Code :=
  let computation := Computation.ofIndicator series.indicator
  .call (Code.own "I")
    (.lambda (computation.inputs.map Computation.inputName) (computation.body series) ::
      (computation.inputs.map columnCode ++ [.keyword "name" (.text series.text)]))

end Backtest
end StrategyGraph
