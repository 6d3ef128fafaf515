import StrategyGraph.Compile.Compilation
import StrategyGraph.Proofs.Data.Dictionary
import StrategyGraph.Proofs.Graph.Parameters
import StrategyGraph.Proofs.Script.Key

/-!
# Series of compiled strategies

Every parameter value that a compiled strategy reads has passed a check: given values
that of their node, overrides that of the configuration, and defaults need none.
-/

namespace StrategyGraph

theorem Parameter.Admits.unsigned
    {parameter : Parameter}
    {value : Float}
    (admits : parameter.Admits value) :
    Binary64.Unsigned value :=
  Binary64.unsigned_of_pos admits.1 admits.2.1

/-- Documented defaults pass their own checks. -/
theorem Indicator.admits_default (indicator : Indicator) :
    ∀ parameter ∈ indicator.parameters, parameter.Admits parameter.default := by
  have faultless : ∀ parameter ∈ indicator.parameters,
      parameter.fault? parameter.default = none := by
    cases indicator <;> decide
  exact fun parameter member => Parameter.fault_eq_none_iff.1 (faultless parameter member)

namespace Configuration

/-- Configured defaults of a checked configuration are admitted. -/
theorem admits_override
    {configuration : Configuration}
    (checked : configuration.check = .ok ())
    {indicator : Indicator}
    {parameter : Parameter}
    (isParameter : indicator.parameter? parameter.name = some parameter)
    {value : Float}
    (found : (configuration.overrides indicator).find? parameter.name = some value) :
    parameter.Admits value := by
  rw [check] at checked
  split at checked
  next => cases checked
  next =>
    have defaults := Outcome.forM_eq_ok_iff.1 (Outcome.check_then_eq_ok_iff.1 checked).2
    rw [overrides] at found
    cases given : configuration.indicatorDefaults.find? indicator.name with
    | none =>
        rw [given] at found
        cases found
    | some entries =>
        rw [given, Option.getD_some] at found
        have accepted := defaults _ (Dictionary.mem_of_find? given)
        rw [checkDefaults, Indicator.ofName?_name] at accepted
        have entry := Outcome.forM_eq_ok_iff.1 accepted _ (Dictionary.mem_of_find? found)
        rw [checkDefault, isParameter] at entry
        dsimp only at entry
        split at entry
        next => cases entry
        next noFault => exact Parameter.fault_eq_none_iff.1 noFault

end Configuration

/-- Each parameter is found by its name. -/
theorem Indicator.parameter?_name (indicator : Indicator) :
    ∀ parameter ∈ indicator.parameters,
      indicator.parameter? parameter.name = some parameter := by
  cases indicator <;> decide

/-- Given values that are admitted and values that are filled in for others are admitted. -/
theorem Indicator.admits_resolvedValue
    {configuration : Configuration}
    (checked : configuration.check = .ok ())
    {indicator : Indicator}
    {given : Dictionary Float}
    (admits : ∀ parameter ∈ indicator.parameters, ∀ value,
      given.find? parameter.name = some value -> parameter.Admits value) :
    ∀ parameter ∈ indicator.parameters,
      parameter.Admits (resolvedValue given (configuration.overrides indicator) parameter) := by
  intro parameter isParameter
  rw [resolvedValue]
  cases found : given.find? parameter.name with
  | some value => exact admits parameter isParameter value found
  | none =>
      rw [Option.getD_none, fallback]
      cases configured : (configuration.overrides indicator).find? parameter.name with
      | some value =>
          have isFound := indicator.parameter?_name parameter isParameter
          exact configuration.admits_override checked isFound configured
      | none => exact indicator.admits_default parameter isParameter

namespace IndicatorSeries

/-- A series is without signs if its given values are. -/
theorem unsigned_of_entries
    {series : IndicatorSeries}
    (given : ∀ entry ∈ series.parameters.entries, Binary64.Unsigned entry.2) :
    series.Unsigned := by
  intro value member
  obtain ⟨parameter, isParameter, rfl⟩ := List.mem_map.1 member
  rw [IndicatorSeries.value]
  split
  next value found => exact given _ (Dictionary.mem_of_find? found)
  next =>
    rw [series.indicator.parameter?_name parameter isParameter]
    exact (series.indicator.admits_default parameter isParameter).unsigned

/-- A range has the given period and documented defaults besides. -/
theorem averageTrueRange_entries
    {period : Nat}
    {entry : String × Float}
    (member : entry ∈ (averageTrueRange period).parameters.entries) :
    entry.2 = Binary64.ofNat period ∨
      ∃ parameter ∈ Indicator.atr.parameters, parameter.Admits entry.2 := by
  rcases Dictionary.mem_insertEntry member with rfl | inDefaults
  · exact Or.inl rfl
  · obtain ⟨parameter, isParameter, rfl⟩ :=
      List.mem_map.1 (Dictionary.mem_of_mem_ofList inDefaults)
    exact Or.inr ⟨parameter, isParameter, Indicator.admits_default .atr parameter isParameter⟩

/-- Ranges have no signs. -/
theorem unsigned_averageTrueRange (period : Nat) : (averageTrueRange period).Unsigned := by
  refine unsigned_of_entries fun entry member => ?_
  rcases averageTrueRange_entries member with equal | ⟨parameter, _, admits⟩
  · rw [equal]
    exact Binary64.unsigned_ofNat period
  · exact admits.unsigned

end IndicatorSeries

end StrategyGraph
