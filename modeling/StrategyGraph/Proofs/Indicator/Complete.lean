import StrategyGraph.Proofs.Compile.Series
import StrategyGraph.Proofs.Number.Whole

/-!
# Complete series

A complete series has an accepted value for each parameter of its indicator and no other
values. Its indicator and the values of its parameters determine it. Filling in missing
parameters completes a series, and so does giving a range its period.
-/

namespace StrategyGraph
namespace IndicatorSeries

/-- A series with values for exactly the parameters of its indicator, each of which passes
the check of its parameter. -/
structure Complete (series : IndicatorSeries) : Prop where
  names : ∀ name, name ∈ series.parameters.names ↔
    name ∈ series.indicator.parameters.map Parameter.name
  accepted : ∀ parameter ∈ series.indicator.parameters, ∀ value,
    series.parameters.find? parameter.name = some value -> parameter.check value = .ok ()

section

variable {series other : IndicatorSeries} (complete : series.Complete)

include complete

/-- The value of a parameter is the given one. -/
theorem Complete.find?_parameter
    {parameter : Parameter}
    (isParameter : parameter ∈ series.indicator.parameters) :
    series.parameters.find? parameter.name = some (series.value parameter.name) := by
  have isName := (complete.names parameter.name).2 (List.mem_map_of_mem isParameter)
  obtain ⟨value, found⟩ := Dictionary.mem_names_iff.1 isName
  rw [IndicatorSeries.value, found]

theorem Complete.admits
    {parameter : Parameter}
    (isParameter : parameter ∈ series.indicator.parameters) :
    parameter.Admits (series.value parameter.name) :=
  Parameter.check_eq_ok_iff.1
    (complete.accepted parameter isParameter _ (complete.find?_parameter isParameter))

/-- All values that are held have passed a check. -/
theorem Complete.admits_entry
    {entry : String × Float}
    (held : entry ∈ series.parameters.entries) :
    ∃ parameter ∈ series.indicator.parameters, parameter.Admits entry.2 := by
  have found := Dictionary.find?_eq_some_iff.2 held
  obtain ⟨parameter, isParameter, same⟩ :=
    List.mem_map.1 ((complete.names entry.1).1 (Dictionary.mem_names_iff.2 ⟨_, found⟩))
  rw [← same] at found
  exact ⟨parameter, isParameter,
    Parameter.check_eq_ok_iff.1 (complete.accepted parameter isParameter _ found)⟩

theorem Complete.unsigned : series.Unsigned := by
  refine unsigned_of_entries fun entry held => ?_
  obtain ⟨parameter, _, admits⟩ := complete.admits_entry held
  exact admits.unsigned

/-- All values are finite and positive. -/
theorem Complete.finite_pos {value : Float} (listed : value ∈ series.orderedValues) :
    value.isFinite = true ∧ 0 < value := by
  obtain ⟨parameter, isParameter, rfl⟩ := List.mem_map.1 listed
  obtain ⟨finite, positive, _⟩ := complete.admits isParameter
  exact ⟨finite, positive⟩

/-- Complete series of one indicator are equal if their values are. -/
theorem Complete.eq_of_orderedValues
    (completeOther : other.Complete)
    (sameIndicator : series.indicator = other.indicator)
    (sameValues : series.orderedValues = other.orderedValues) :
    series = other := by
  have values : ∀ parameter ∈ series.indicator.parameters,
      series.value parameter.name = other.value parameter.name := by
    rw [orderedValues, orderedValues, ← sameIndicator] at sameValues
    exact List.map_inj_left.1 sameValues
  have sameParameters : series.parameters = other.parameters := by
    refine Dictionary.eq_of_find?_eq fun name => ?_
    by_cases isName : name ∈ series.indicator.parameters.map Parameter.name
    · obtain ⟨parameter, isParameter, rfl⟩ := List.mem_map.1 isName
      rw [complete.find?_parameter isParameter,
        completeOther.find?_parameter (sameIndicator ▸ isParameter),
        values parameter isParameter]
    · have absent : ∀ one : IndicatorSeries, one.Complete -> one.indicator = series.indicator ->
          one.parameters.find? name = none := by
        intro one isComplete same
        rw [Option.eq_none_iff_forall_not_mem]
        intro value found
        rw [← same, ← isComplete.names] at isName
        exact isName (Dictionary.mem_names_iff.2 ⟨value, found⟩)
      rw [absent series complete rfl, absent other completeOther sameIndicator.symm]
  cases series
  cases other
  cases sameIndicator
  cases sameParameters
  rfl

end

/-! ## Completing -/

/-- Values that are collected for all parameters are found under their names. -/
theorem find?_ofList_parameters
    (indicator : Indicator)
    (values : Parameter -> Float)
    {parameter : Parameter}
    (isParameter : parameter ∈ indicator.parameters) :
    (Dictionary.ofList (indicator.parameters.map fun parameter =>
      (parameter.name, values parameter))).find? parameter.name = some (values parameter) := by
  have found : indicator.parameters.reverse.find?
      (fun other => other.name == parameter.name) = some parameter := by
    revert parameter
    cases indicator <;> decide
  rw [Dictionary.find?_ofList, ← List.map_reverse, List.find?_map]
  change ((indicator.parameters.reverse.find? fun other => other.name == parameter.name).map
    fun parameter => (parameter.name, values parameter)).map Prod.snd = _
  rw [found]
  rfl

/-- A series that collects an admitted value for each parameter is complete. -/
theorem complete_ofList
    {indicator : Indicator}
    {values : Parameter -> Float}
    (admits : ∀ parameter ∈ indicator.parameters, parameter.Admits (values parameter)) :
    Complete ⟨indicator, .ofList (indicator.parameters.map fun parameter =>
      (parameter.name, values parameter))⟩ := by
  constructor
  · intro name
    rw [Dictionary.mem_names_iff]
    constructor
    · rintro ⟨value, found⟩
      have entry := Dictionary.mem_of_mem_ofList (Dictionary.mem_of_find? found)
      obtain ⟨parameter, isParameter, same⟩ := List.mem_map.1 entry
      exact List.mem_map.2 ⟨parameter, isParameter, (Prod.mk.inj same).1⟩
    · intro isName
      obtain ⟨parameter, isParameter, rfl⟩ := List.mem_map.1 isName
      exact ⟨_, find?_ofList_parameters indicator values isParameter⟩
  · intro parameter isParameter value found
    have given := find?_ofList_parameters indicator values isParameter
    rw [Option.some.inj (found.symm.trans given)]
    exact Parameter.check_eq_ok_iff.2 (admits parameter isParameter)

theorem complete_withDefaults (indicator : Indicator) : (withDefaults indicator).Complete :=
  complete_ofList indicator.admits_default

/-- Filling in the missing parameters completes a series. -/
theorem complete_complete
    {configuration : Configuration}
    (checked : configuration.check = .ok ())
    {indicator : Indicator}
    {given : Dictionary Float}
    (admits : ∀ parameter ∈ indicator.parameters, ∀ value,
      given.find? parameter.name = some value -> parameter.Admits value) :
    (indicator.complete given (configuration.overrides indicator)).Complete :=
  complete_ofList (Indicator.admits_resolvedValue checked admits)

/-- A range with a period collects it as its only parameter. -/
theorem averageTrueRange_eq (period : Nat) :
    averageTrueRange period =
      ⟨.atr, .ofList (Indicator.atr.parameters.map fun parameter =>
        (parameter.name, Binary64.ofNat period))⟩ :=
  rfl

/-- Positive machine words are admitted as periods. -/
theorem admits_ofNat
    {period : Nat}
    (positive : period ≠ 0)
    (fits : period <= Binary64.largestCount)
    (parameter : Parameter) :
    parameter.Admits (Binary64.ofNat period) := by
  refine ⟨Binary64.isFinite_ofNat fits, ?_, fun _ => Binary64.isWhole_ofNat fits⟩
  have some : 1 <= period := Nat.one_le_iff_ne_zero.2 positive
  have bits : Binary64.magnitudeBits (Binary64.ofNat period) = Binary64.nearestBits period 1 :=
    Binary64.magnitudeBits_ofMagnitude (Binary64.nearestBits_le period 1)
  have atLeast := Binary64.nearestBits_mono_left Nat.one_ne_zero some
  rw [Binary64.nearestBits_one] at atLeast
  rw [(Binary64.unsigned_ofNat period).pos_iff, bits]
  omega

theorem complete_averageTrueRange
    {period : Nat}
    (positive : period ≠ 0)
    (fits : period <= Binary64.largestCount) :
    (averageTrueRange period).Complete := by
  rw [averageTrueRange_eq]
  exact complete_ofList fun parameter _ => admits_ofNat positive fits parameter

end IndicatorSeries
end StrategyGraph
