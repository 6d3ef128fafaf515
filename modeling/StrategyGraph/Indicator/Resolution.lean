import StrategyGraph.Indicator.Series

/-!
# Indicator parameters

Given parameter values are checked against the catalog, and missing ones are
filled in: from configured overrides where there are any, otherwise from the
documented defaults. Overrides are trusted here, since a configuration checks
its own.
-/

namespace StrategyGraph

/-- Why a parameter value is refused. -/
inductive ValueFault where
  | notFinite
  | notPositive
  | notWhole
  deriving DecidableEq, Repr

namespace ValueFault

/-- Wording of a refusal, to follow the name of the parameter. -/
def reason : ValueFault -> String
  | .notFinite => "must be a finite number"
  | .notPositive => "must be positive"
  | .notWhole => "must be a whole number >= 1"

end ValueFault

/-- A refused parameter value. -/
structure InvalidValue where
  parameter : String
  value : Float
  fault : ValueFault
  deriving DecidableEq

namespace Parameter

/-- What is wrong with a value of the parameter, if anything: it has to be
finite and positive, and whole where the parameter is. -/
def fault? (parameter : Parameter) (value : Float) : Option ValueFault :=
  if !value.isFinite then some .notFinite
  else if value <= 0 then some .notPositive
  else if parameter.whole && !Binary64.isWhole value then some .notWhole
  else none

/-- Check a value of the parameter. -/
def check (parameter : Parameter) (value : Float) : Except InvalidValue Unit :=
  match parameter.fault? value with
  | some fault => .error ⟨parameter.name, value, fault⟩
  | none => .ok ()

end Parameter

/-- Outcome of resolving given parameters against the catalog. -/
structure ResolvedParameters where
  series : IndicatorSeries
  /-- Parameters that were not given, with the values they got. -/
  defaulted : List (String × Float)
  /-- Given names that the indicator does not know. -/
  unknown : List String

namespace Indicator

/-- Check the given values of known parameters, in canonical order. -/
def checkGiven (indicator : Indicator) (given : Dictionary Float) :
    Except InvalidValue Unit :=
  indicator.parameters.forM fun parameter =>
    match given.find? parameter.name with
    | some value => parameter.check value
    | none => .ok ()

/-- Value of a parameter that is not given. -/
def fallback (overrides : Dictionary Float) (parameter : Parameter) : Float :=
  (overrides.find? parameter.name).getD parameter.default

/-- Value of a parameter: the given one, else its fallback. -/
def resolvedValue (given overrides : Dictionary Float) (parameter : Parameter) : Float :=
  (given.find? parameter.name).getD (fallback overrides parameter)

/-- The series of an indicator with given parameters, completed. -/
def complete (indicator : Indicator) (given overrides : Dictionary Float) :
    IndicatorSeries :=
  ⟨indicator,
    .ofList (indicator.parameters.map fun parameter =>
      (parameter.name, resolvedValue given overrides parameter))⟩

/-- Parameters that are not given, with their fallbacks. -/
def defaulted (indicator : Indicator) (given overrides : Dictionary Float) :
    List (String × Float) :=
  indicator.parameters.filterMap fun parameter =>
    match given.find? parameter.name with
    | some _ => none
    | none => some (parameter.name, fallback overrides parameter)

/-- Given names that the indicator does not know, in ascending order. -/
def unknown (indicator : Indicator) (given : Dictionary Float) : List String :=
  given.names.filter fun name => (indicator.parameter? name).isNone

/-- Check the given parameters and complete them. -/
def resolve (indicator : Indicator) (given overrides : Dictionary Float) :
    Except InvalidValue ResolvedParameters := do
  indicator.checkGiven given
  return {
    series := indicator.complete given overrides
    defaulted := indicator.defaulted given overrides
    unknown := indicator.unknown given }

end Indicator
end StrategyGraph
