import StrategyGraph.Data.Dictionary
import StrategyGraph.Indicator.Catalog
import StrategyGraph.Number.Text

/-!
# Indicator series

An indicator with parameter values names a series of numbers that an execution
engine has to supply. Its key lists the values in canonical order, with the
decimal point written as `p`, so that it can serve as an identifier.
-/

namespace StrategyGraph

/-- An indicator with parameter values. -/
structure IndicatorSeries where
  indicator : Indicator
  parameters : Dictionary Float
  deriving DecidableEq

namespace IndicatorSeries

/-- The series of an indicator with every parameter at its documented default. -/
def withDefaults (indicator : Indicator) : IndicatorSeries :=
  ⟨indicator,
    .ofList (indicator.parameters.map fun parameter =>
      (parameter.name, parameter.default))⟩

/-- The average true range over a number of bars. -/
def averageTrueRange (period : Nat) : IndicatorSeries :=
  let series := withDefaults .atr
  { series with
    parameters := series.parameters.insert "period" (Binary64.ofNat period) }

/-- Value of a parameter: the given one, else the documented default, else NaN
for a name the indicator does not know. -/
def value (series : IndicatorSeries) (name : String) : Float :=
  match series.parameters.find? name with
  | some given => given
  | none =>
      match series.indicator.parameter? name with
      | some parameter => parameter.default
      | none => 0.0 / 0.0

/-- Parameter values in canonical order. -/
def orderedValues (series : IndicatorSeries) : List Float :=
  series.indicator.parameters.map fun parameter => series.value parameter.name

/-- Form of a number inside a key. -/
def keyNumber (x : Float) : String :=
  String.ofList
    ((NumberText.display x).toList.map fun character =>
      if character = '.' then 'p' else character)

/-- Key under which the values of the series are supplied. -/
def key (series : IndicatorSeries) : String :=
  series.orderedValues.foldl
    (fun text value => text ++ "_" ++ keyNumber value)
    series.indicator.name

/-- The series as rendered in conditions: a label and the parameter values. -/
def text (series : IndicatorSeries) : String :=
  match series.orderedValues with
  | [] => series.indicator.label
  | values =>
      series.indicator.label ++ "(" ++
        String.intercalate ", " (values.map NumberText.display) ++ ")"

end IndicatorSeries
end StrategyGraph
