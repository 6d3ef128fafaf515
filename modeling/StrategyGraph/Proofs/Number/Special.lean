import StrategyGraph.Proofs.Number.Finite

/-!
# Infinities and NaN

Which operations on doubles make NaN of numbers: a product with a finite factor other than
zero and a quotient by one never do, and a difference does exactly if it is one of an
infinity and itself. The operations round unpacked numbers and pack the outcome, which may
overflow but loses neither infinities nor NaN.
-/

namespace StrategyGraph
namespace Binary64

open Float.Model (UnpackedFloat Format)
open Float.Model.UnpackedFloat (Sign)

/-! ## Unpacked numbers -/

theorem isNaN_of_isFinite_unpacked
    {number : UnpackedFloat}
    (finite : number.isFinite = true) :
    number.isNaN = false := by
  cases number with
  | notANumber => cases finite
  | _ => rfl

/-- Infinite numbers with all bits of the exponent set and none of the mantissa. -/
theorem unpack_packedInfinity (sign : Sign) :
    UnpackedFloat.unpack Format.binary64 (UnpackedFloat.packedInfinity Format.binary64 sign) =
      .infinity sign := by
  cases sign <;> rfl

/-- Packing makes an infinity of what is too large, but NaN of nothing else than NaN. -/
theorem isNaN_unpack_pack (number : UnpackedFloat) :
    (UnpackedFloat.unpack Format.binary64
      (UnpackedFloat.pack Format.binary64 number)).isNaN = number.isNaN := by
  cases number with
  | notANumber => decide
  | infinity sign | zero sign => cases sign <;> decide
  | finite sign mantissa exponent positive =>
      by_cases large : 2 ^ Format.binary64.exponentBits <=
          (exponent + Format.binary64.exponentBias +
            (Format.binary64.mantissaBitsWithoutImplicit : Nat)).toNat + 1
      · rw [UnpackedFloat.pack, if_pos large, unpack_packedInfinity]
        rfl
      · have bias : ((Format.binary64.exponentBias : Nat) : Int) = 1023 := rfl
        have small : exponent + 1075 < 2047 := by
          rw [bias] at large
          change ¬ 2048 <= (exponent + 1023 + 52).toNat + 1 at large
          omega
        exact isNaN_of_isFinite_unpacked (isFinite_unpack_pack positive small)

/-- Rounding makes no NaN. -/
theorem isNaN_roundWithAccuracy
    (sign : Sign)
    (mantissa : Nat)
    (exponent : Int)
    (accuracy : UnpackedFloat.Accuracy) :
    (UnpackedFloat.roundWithAccuracy Format.binary64 sign mantissa exponent accuracy).isNaN =
      false := by
  rcases roundWithAccuracy_sign Format.binary64 sign mantissa exponent accuracy with
    rounded | ⟨_, _, _, rounded⟩
  · rw [rounded]
    rfl
  · rw [rounded]
    rfl

theorem isNaN_normalize (mantissa exponent : Int) (zeroSign : Sign) :
    (UnpackedFloat.normalize Format.binary64 mantissa exponent zeroSign).isNaN = false := by
  rw [UnpackedFloat.normalize]
  split
  next => exact isNaN_roundWithAccuracy _ _ _ _
  next => rfl
  next => exact isNaN_roundWithAccuracy _ _ _ _

/-- A difference of numbers is NaN exactly if both are the same infinity. -/
theorem isNaN_unpackedSub
    {left right : UnpackedFloat}
    (leftNumber : left.isNaN = false)
    (rightNumber : right.isNaN = false) :
    (UnpackedFloat.sub Format.binary64 left right).isNaN =
      (left.isInf && left.compare right == some .eq) := by
  cases left with
  | notANumber => cases leftNumber
  | infinity sign => cases right with
    | notANumber => cases rightNumber
    | infinity other => cases sign <;> cases other <;> rfl
    | zero other => cases sign <;> rfl
    | finite other => cases sign <;> rfl
  | zero sign => cases right with
    | notANumber => cases rightNumber
    | infinity other => rfl
    | zero other => cases sign <;> cases other <;> rfl
    | finite other => rfl
  | finite sign significand exponent => cases right with
    | notANumber => cases rightNumber
    | infinity other => rfl
    | zero other => rfl
    | finite other => exact isNaN_normalize _ _ _

/-- A product of a number and a finite factor other than zero is a number. -/
theorem isNaN_unpackedMul
    {left : UnpackedFloat}
    (number : left.isNaN = false)
    (sign : Sign)
    (mantissa : Nat)
    (exponent : Int)
    (positive : 0 < mantissa) :
    (UnpackedFloat.mul Format.binary64 left (.finite sign mantissa exponent positive)).isNaN =
      false := by
  cases left with
  | notANumber => cases number
  | infinity other | zero other => rfl
  | finite other => exact isNaN_roundWithAccuracy _ _ _ _

/-- Factors change places without making NaN of numbers. -/
theorem isNaN_unpackedMul_comm (left right : UnpackedFloat) :
    (UnpackedFloat.mul Format.binary64 left right).isNaN =
      (UnpackedFloat.mul Format.binary64 right left).isNaN := by
  cases left <;> cases right <;>
    first | rfl | simp only [UnpackedFloat.mul, isNaN_roundWithAccuracy]

/-- A quotient of a number by a finite one other than zero is a number. -/
theorem isNaN_unpackedDiv
    {left : UnpackedFloat}
    (number : left.isNaN = false)
    (sign : Sign)
    (mantissa : Nat)
    (exponent : Int)
    (positive : 0 < mantissa) :
    (UnpackedFloat.div Format.binary64 left (.finite sign mantissa exponent positive)).isNaN =
      false := by
  cases left with
  | notANumber => cases number
  | infinity other | zero other => rfl
  | finite other => exact isNaN_roundWithAccuracy _ _ _ _

/-! ## Doubles -/

variable {x y : Float}

/-- A difference of numbers is NaN exactly if it is one of an infinity and itself. -/
theorem isNaN_sub_iff (number : x.isNaN = false) (otherNumber : y.isNaN = false) :
    (x - y).isNaN = true ↔ x.isInf = true ∧ (x == y) = true := by
  have difference : (x - y).isNaN = (x.isInf && x == y) :=
    (isNaN_unpack_pack _).trans (isNaN_unpackedSub number otherNumber)
  rw [difference, Bool.and_eq_true]

/-- A number times a positive finite one is a number. -/
theorem isNaN_mul (number : x.isNaN = false) (finite : y.isFinite = true) (positive : 0 < y) :
    (x * y).isNaN = false := by
  obtain ⟨mantissa, exponent, nonzero, unpacked⟩ := unpack_of_pos finite positive
  refine (isNaN_unpack_pack _).trans ?_
  rw [unpacked]
  exact isNaN_unpackedMul number _ _ _ _

/-- A number divided by a positive finite one is a number. -/
theorem isNaN_div (number : x.isNaN = false) (finite : y.isFinite = true) (positive : 0 < y) :
    (x / y).isNaN = false := by
  obtain ⟨mantissa, exponent, nonzero, unpacked⟩ := unpack_of_pos finite positive
  refine (isNaN_unpack_pack _).trans ?_
  rw [unpacked]
  exact isNaN_unpackedDiv number _ _ _ _

/-- A positive finite number times a number is a number. -/
theorem isNaN_pos_mul (number : x.isNaN = false) (finite : y.isFinite = true) (positive : 0 < y) :
    (y * x).isNaN = false := by
  have changed : (y * x).isNaN = (x * y).isNaN := by
    refine (isNaN_unpack_pack _).trans (Eq.trans ?_ (isNaN_unpack_pack _).symm)
    exact isNaN_unpackedMul_comm _ _
  rw [changed]
  exact isNaN_mul number finite positive

/-! ## Infinities -/

theorem unpack_of_isInf (infinite : x.isInf = true) :
    ∃ sign, x.toModel.unpack = .infinity sign := by
  change x.toModel.unpack.isInf = true at infinite
  cases unpacked : x.toModel.unpack with
  | infinity sign => exact ⟨sign, rfl⟩
  | notANumber | zero | finite =>
      rw [unpacked] at infinite
      cases infinite

/-- A positive multiple of an infinity, and a positive part of it, is the infinity itself. -/
theorem beq_mul_div_of_isInf
    {z : Float}
    (infinite : x.isInf = true)
    (finite : y.isFinite = true)
    (positive : 0 < y)
    (otherFinite : z.isFinite = true)
    (otherPositive : 0 < z) :
    (x == x * y / z) = true := by
  obtain ⟨sign, unpacked⟩ := unpack_of_isInf infinite
  obtain ⟨_, _, _, factor⟩ := unpack_of_pos finite positive
  obtain ⟨_, _, _, divisor⟩ := unpack_of_pos otherFinite otherPositive
  have product : (x * y).toModel.unpack = .infinity sign := by
    change UnpackedFloat.unpack Format.binary64 (UnpackedFloat.pack Format.binary64
      (UnpackedFloat.mul Format.binary64 x.toModel.unpack y.toModel.unpack)) = _
    rw [unpacked, factor]
    cases sign <;> exact unpack_packedInfinity _
  have quotient : (x * y / z).toModel.unpack = .infinity sign := by
    change UnpackedFloat.unpack Format.binary64 (UnpackedFloat.pack Format.binary64
      (UnpackedFloat.div Format.binary64 (x * y).toModel.unpack z.toModel.unpack)) = _
    rw [product, divisor]
    cases sign <;> exact unpack_packedInfinity _
  change (x.toModel.unpack.compare (x * y / z).toModel.unpack == some .eq) = true
  rw [unpacked, quotient]
  cases sign <;> rfl

/-- An infinity differs from every ordinary number. -/
theorem not_beq_of_isFinite (infinite : x.isInf = true) (finite : y.isFinite = true) :
    (x == y) = false := by
  obtain ⟨sign, unpacked⟩ := unpack_of_isInf infinite
  change y.toModel.unpack.isFinite = true at finite
  change (x.toModel.unpack.compare y.toModel.unpack == some .eq) = false
  rw [unpacked]
  cases ordinary : y.toModel.unpack with
  | notANumber | infinity => rw [ordinary] at finite; cases finite
  | zero | finite => cases sign <;> rfl

/-! ## Comparisons -/

theorem compare_of_isNaN
    {left right : UnpackedFloat}
    (missing : left.isNaN = true ∨ right.isNaN = true) :
    left.compare right = none := by
  cases left with
  | notANumber => rfl
  | infinity | zero | finite =>
      rcases missing with isLeft | isRight
      · cases isLeft
      · cases right with
        | notANumber => rfl
        | infinity | zero | finite => cases isRight

theorem lt_iff_compare : x < y ↔ x.toModel.unpack.compare y.toModel.unpack = some .lt := by
  change decide (x.toModel < y.toModel) = true ↔ _
  rw [decide_eq_true_iff]
  change (x.toModel.unpack.compare y.toModel.unpack == some .lt) = true ↔ _
  exact beq_iff_eq

theorem le_iff_compare :
    x <= y ↔ (x.toModel.unpack.compare y.toModel.unpack).any (·.isLE) = true := by
  change decide (x.toModel <= y.toModel) = true ↔ _
  rw [decide_eq_true_iff]
  rfl

/-- NaN is not below anything, and nothing is below NaN. -/
theorem not_lt_of_isNaN (missing : x.isNaN = true ∨ y.isNaN = true) : ¬ x < y := by
  have incomparable : x.toModel.unpack.compare y.toModel.unpack = none := compare_of_isNaN missing
  rw [lt_iff_compare, incomparable]
  intro below
  cases below

theorem not_le_of_isNaN (missing : x.isNaN = true ∨ y.isNaN = true) : ¬ x <= y := by
  have incomparable : x.toModel.unpack.compare y.toModel.unpack = none := compare_of_isNaN missing
  rw [le_iff_compare, incomparable]
  exact Bool.false_ne_true

theorem le_of_lt (below : x < y) : x <= y := by
  rw [le_iff_compare, lt_iff_compare.1 below]
  rfl

theorem le_refl_of_number (number : x.isNaN = false) : x <= x := by
  by_contra notAtMost
  have below := lt_iff_compare.1 ((not_le_iff_lt number number).1 notAtMost)
  have above := compare_swap x.toModel.unpack x.toModel.unpack
  rw [below] at above
  cases above

end Binary64
end StrategyGraph
