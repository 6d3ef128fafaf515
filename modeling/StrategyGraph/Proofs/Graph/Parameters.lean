import StrategyGraph.Graph.Validation
import StrategyGraph.Proofs.Number.Order
import StrategyGraph.Proofs.Outcome

/-!
# Parameters in range

Which parameters each kind of node admits, stated apart from the checks, and that
every check accepts exactly these.
-/

namespace StrategyGraph

namespace Parameter

/-- Values of an indicator parameter: finite and positive, and whole where the
parameter is. -/
def Admits (parameter : Parameter) (value : Float) : Prop :=
  value.isFinite = true ∧ 0 < value ∧
    (parameter.whole = true -> Binary64.isWhole value = true)

theorem fault_eq_none_iff {parameter : Parameter} {value : Float} :
    parameter.fault? value = none ↔ parameter.Admits value := by
  unfold fault? Admits
  cases finite : value.isFinite with
  | false => simp
  | true =>
      have positive := Binary64.not_le_zero_iff finite
      by_cases small : value <= 0
      · have notPositive : ¬ 0 < value := fun isPositive => positive.2 isPositive small
        simp [small, notPositive]
      · have isPositive := positive.1 small
        cases parameter.whole <;> cases Binary64.isWhole value <;>
          simp [small, isPositive]

theorem check_eq_ok_iff {parameter : Parameter} {value : Float} :
    parameter.check value = .ok () ↔ parameter.Admits value := by
  rw [← fault_eq_none_iff, check]
  cases parameter.fault? value <;> simp

end Parameter

namespace Condition

/-- Settings of a condition: bounded numbers of bars and a finite literal. -/
structure InRange (condition : Condition) : Prop where
  offset : condition.offset <= 10000
  lookback : condition.lookback <= 10000
  compareValue : ∀ value, condition.compareValue = some value -> value.isFinite = true

theorem check_eq_ok_iff {condition : Condition} {node : NodeId} :
    condition.check node = .ok () ↔ condition.InRange := by
  unfold check
  split
  next large =>
    have tooLarge : ¬ condition.offset <= 10000 := Nat.not_le.2 large
    refine ⟨fun refused => ?_, fun range => absurd range.offset tooLarge⟩
    cases refused
  next offset =>
    split
    next large =>
      have tooLarge : ¬ condition.lookback <= 10000 := Nat.not_le.2 large
      refine ⟨fun refused => ?_, fun range => absurd range.lookback tooLarge⟩
      cases refused
    next lookback =>
      cases given : condition.compareValue with
      | none =>
          refine ⟨fun _ => ⟨Nat.not_lt.1 offset, Nat.not_lt.1 lookback, ?_⟩, fun _ => rfl⟩
          intro value present
          cases given.symm.trans present
      | some value =>
          cases finite : value.isFinite with
          | false =>
              refine ⟨fun refused => by simp [finite] at refused, fun range => ?_⟩
              cases finite.symm.trans (range.compareValue value given)
          | true =>
              refine ⟨fun _ => ⟨Nat.not_lt.1 offset, Nat.not_lt.1 lookback, ?_⟩,
                fun _ => by simp [finite]⟩
              intro other present
              cases given.symm.trans present
              exact finite

end Condition

namespace Indicator

/-- The given values of known parameters pass their check exactly when each is
admitted. -/
theorem checkGiven_eq_ok_iff {line : Indicator} {given : Dictionary Float} :
    line.checkGiven given = .ok () ↔
      ∀ parameter ∈ line.parameters, ∀ value,
        given.find? parameter.name = some value -> parameter.Admits value := by
  unfold checkGiven
  rw [Outcome.forM_eq_ok_iff]
  refine forall₂_congr fun parameter member => ?_
  cases given.find? parameter.name with
  | none => simp
  | some value => simp [Parameter.check_eq_ok_iff]

end Indicator

namespace Subject

/-- What a node may observe: indicators with admitted parameters and finite
constants. -/
def InRange : Subject -> Prop
  | .price _ => True
  | .indicator line given =>
      ∀ parameter ∈ line.parameters, ∀ value,
        given.find? parameter.name = some value -> parameter.Admits value
  | .value constant => constant.isFinite = true

theorem check_eq_ok_iff {subject : Subject} {node : NodeId} :
    subject.check node = .ok () ↔ subject.InRange := by
  cases subject with
  | price column => simp [check, InRange]
  | indicator line given =>
      rw [InRange, ← Indicator.checkGiven_eq_ok_iff, check]
      cases line.checkGiven given with
      | ok checked => simp
      | error invalid => simp
  | value constant => cases finite : constant.isFinite <;> simp [check, InRange, finite]

end Subject

/-- Sizings of an action: unless everything available is used, an amount that is
finite and positive, or a percentage between zero and a hundred. -/
def SizingInRange (amount : Option Float) : SizingMode -> Prop
  | .allAvailable => True
  | .percentOfEquity =>
      ∃ percent, amount = some percent ∧
        percent.isFinite = true ∧ 0 <= percent ∧ percent <= 100
  | .fixedCash | .fixedShares =>
      ∃ value, amount = some value ∧ value.isFinite = true ∧ 0 < value

theorem sizingFault_eq_none_iff {mode : SizingMode} {amount : Option Float} :
    sizingFault? mode amount = none ↔ SizingInRange amount mode := by
  cases amount with
  | none => cases mode <;> simp [sizingFault?, SizingInRange]
  | some value =>
      cases finite : value.isFinite with
      | false => cases mode <;> simp [sizingFault?, SizingInRange, finite]
      | true =>
          have positive := Binary64.not_le_zero_iff finite
          cases mode <;> simp [sizingFault?, SizingInRange, finite, positive]

/-- Risk exits: a finite and positive magnitude, below a hundred where it is a
percentage below the price, and a range over at least one bar. -/
structure ExitInRange
    (kind : ExitKind)
    (basis : ExitBasis)
    (magnitude : Float)
    (atrPeriod : Option Nat) : Prop where
  finite : magnitude.isFinite = true
  positive : 0 < magnitude
  belowHundred :
    basis = .percent -> kind = .stopLoss ∨ kind = .trailingStop -> magnitude < 100
  period : atrPeriod ≠ some 0

theorem isStop_iff {kind : ExitKind} :
    kind.isStop = true ↔ kind = .stopLoss ∨ kind = .trailingStop := by
  cases kind <;> decide

theorem exitFault_eq_none_iff
    {kind : ExitKind}
    {basis : ExitBasis}
    {magnitude : Float}
    {atrPeriod : Option Nat} :
    exitFault? kind basis magnitude atrPeriod = none ↔
      ExitInRange kind basis magnitude atrPeriod := by
  unfold exitFault?
  cases finite : magnitude.isFinite with
  | false =>
      refine ⟨fun accepted => by simp at accepted, fun range => ?_⟩
      cases finite.symm.trans range.finite
  | true =>
      have positive := Binary64.not_le_zero_iff finite
      have below : ¬ 100 <= magnitude ↔ magnitude < 100 :=
        Binary64.not_le_iff_lt (by decide) (Binary64.isNaN_of_isFinite finite)
      by_cases small : magnitude <= 0
      · refine ⟨fun accepted => by simp [small] at accepted, fun range => ?_⟩
        exact absurd range.positive fun isPositive => positive.2 isPositive small
      · by_cases large : basis = .percent ∧ kind.isStop = true ∧ 100 <= magnitude
        · obtain ⟨percent, stop, reached⟩ := large
          refine ⟨fun accepted => by simp [small, percent, stop, reached] at accepted,
            fun range => ?_⟩
          exact absurd reached (below.2 (range.belowHundred percent (isStop_iff.1 stop)))
        · have bounded : basis = .percent -> kind = .stopLoss ∨ kind = .trailingStop ->
              magnitude < 100 := by
            intro percent stop
            exact below.1 fun reached => large ⟨percent, isStop_iff.2 stop, reached⟩
          have passed : (decide (basis = .percent) && kind.isStop && decide (100 <= magnitude)) =
              false := by
            simpa [and_assoc] using large
          simp only [Bool.not_true, Bool.false_or, small, decide_false, Bool.false_eq_true,
            if_false, passed]
          by_cases zero : atrPeriod = some 0
          · refine ⟨fun accepted => by simp [zero] at accepted, fun range => ?_⟩
            exact absurd zero range.period
          · exact ⟨fun _ => ⟨finite, positive.1 small, bounded, zero⟩, fun _ => by simp [zero]⟩

namespace Node

/-- Nodes with parameters in range. -/
def InRange (node : Node) : Prop :=
  match node.kind with
  | .condition subject condition => condition.InRange ∧ subject.InRange
  | .gate _ => True
  | .action _ mode amount => SizingInRange amount mode
  | .exit kind basis magnitude atrPeriod => ExitInRange kind basis magnitude atrPeriod

/-- The parameters of a node pass their check exactly when they are in range. -/
theorem check_eq_ok_iff {node : Node} : node.check = .ok () ↔ node.InRange := by
  unfold check InRange
  cases node.kind with
  | condition subject condition =>
      dsimp only
      rw [Outcome.check_then_eq_ok_iff, Condition.check_eq_ok_iff, Subject.check_eq_ok_iff]
  | gate gate => simp
  | action side mode amount =>
      dsimp only
      rw [← sizingFault_eq_none_iff]
      cases sizingFault? mode amount <;> simp
  | exit kind basis magnitude atrPeriod =>
      dsimp only
      rw [← exitFault_eq_none_iff]
      cases exitFault? kind basis magnitude atrPeriod <;> simp

end Node
end StrategyGraph
