import Mathlib

/-!
# Order of doubles

Doubles other than NaN are totally ordered: of two of them the first is not at
most the second exactly when the second is less. Signed zeros count as equal.
-/

namespace StrategyGraph
namespace Binary64

open Float.Model (UnpackedFloat)

/-- Magnitudes compare by exponent and then by significand, whichever comes first. -/
theorem magnitude_swap
    (exponent otherExponent : Int)
    (significand otherSignificand : Nat) :
    ((compare otherExponent exponent).then (compare otherSignificand significand)) =
      ((compare exponent otherExponent).then (compare significand otherSignificand)).swap := by
  have exponents : compare otherExponent exponent = (compare exponent otherExponent).swap :=
    Std.OrientedCmp.eq_swap
  have significands :
      compare otherSignificand significand = (compare significand otherSignificand).swap :=
    Std.OrientedCmp.eq_swap
  rw [Ordering.swap_then, exponents, significands]

/-- Comparing the other way around swaps the outcome. -/
theorem compare_swap (left right : UnpackedFloat) :
    right.compare left = (left.compare right).map Ordering.swap := by
  cases left with
  | notANumber => cases right with
    | infinity sign => cases sign <;> rfl
    | _ => rfl
  | infinity sign => cases right with
    | infinity other => cases sign <;> cases other <;> rfl
    | finite other => cases sign <;> cases other <;> rfl
    | _ => cases sign <;> rfl
  | zero sign => cases right with
    | infinity other => cases other <;> rfl
    | finite other => cases other <;> rfl
    | _ => rfl
  | finite sign significand exponent => cases right with
    | infinity other => cases sign <;> cases other <;> rfl
    | finite other otherSignificand otherExponent =>
        have swapped := magnitude_swap exponent otherExponent significand otherSignificand
        cases sign <;> cases other <;>
          simp [UnpackedFloat.compare, swapped, Ordering.swap_swap]
    | _ => cases sign <;> rfl

/-- Numbers other than NaN are comparable. -/
theorem isSome_compare
    {left right : UnpackedFloat}
    (leftNumber : left.isNaN = false)
    (rightNumber : right.isNaN = false) :
    (left.compare right).isSome = true := by
  cases left with
  | notANumber => cases leftNumber
  | infinity sign => cases right with
    | notANumber => cases rightNumber
    | infinity other => rfl
    | _ => cases sign <;> rfl
  | zero sign => cases right with
    | notANumber => cases rightNumber
    | zero other => rfl
    | infinity other => cases other <;> rfl
    | finite other => cases other <;> rfl
  | finite sign significand exponent => cases right with
    | notANumber => cases rightNumber
    | zero other => cases sign <;> rfl
    | infinity other => cases sign <;> cases other <;> rfl
    | finite other => cases sign <;> cases other <;> rfl

/-- Of two numbers other than NaN one is at most the other or is greater. -/
theorem not_le_iff_lt
    {left right : Float}
    (leftNumber : left.isNaN = false)
    (rightNumber : right.isNaN = false) :
    ¬ left <= right ↔ right < left := by
  have comparable : (left.toModel.unpack.compare right.toModel.unpack).isSome = true :=
    isSome_compare leftNumber rightNumber
  have swapped := compare_swap left.toModel.unpack right.toModel.unpack
  obtain ⟨order, compared⟩ := Option.isSome_iff_exists.1 comparable
  change ¬ (decide (left.toModel <= right.toModel) = true) ↔
    decide (right.toModel < left.toModel) = true
  rw [decide_eq_true_iff, decide_eq_true_iff]
  change ¬ ((left.toModel.unpack.compare right.toModel.unpack).any (·.isLE) = true) ↔
    (right.toModel.unpack.compare left.toModel.unpack == some .lt) = true
  rw [swapped, compared]
  cases order <;> decide

/-- An ordinary number is not NaN. -/
theorem isNaN_of_isFinite {x : Float} (finite : x.isFinite = true) : x.isNaN = false := by
  change x.toModel.unpack.isFinite = true at finite
  change x.toModel.unpack.isNaN = false
  cases unpacked : x.toModel.unpack with
  | notANumber => rw [unpacked] at finite; cases finite
  | _ => rfl

/-- An ordinary number that is not at most zero is positive. -/
theorem not_le_zero_iff {x : Float} (finite : x.isFinite = true) : ¬ x <= 0 ↔ 0 < x :=
  not_le_iff_lt (isNaN_of_isFinite finite) (by decide)

end Binary64
end StrategyGraph
