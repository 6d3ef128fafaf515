import StrategyGraph.Backtest.Script
import StrategyGraph.Proofs.Number.Bits
import StrategyGraph.Proofs.Number.Nearest

/-!
# Finite doubles

Rounding down to a whole number and taking a fraction of a hundred lead from finite
doubles to finite ones, so that sizes of orders are ordinary numbers.
-/

namespace StrategyGraph
namespace Binary64

open Float.Model (UnpackedFloat Format)
open Float.Model.UnpackedFloat (Sign)

/-- A packed pattern keeps its sign. -/
theorem unpackSign_packComponents
    (spec : Format)
    (sign : Sign)
    (exponent : BitVec spec.exponentBits)
    (mantissa : BitVec spec.mantissaBitsWithoutImplicit) :
    UnpackedFloat.unpackSign (UnpackedFloat.packComponents spec sign exponent mantissa) =
      sign.toBitVec := by
  refine BitVec.eq_of_getLsbD_eq fun position inside => ?_
  have first : position = 0 := by omega
  subst first
  simp [UnpackedFloat.unpackSign, UnpackedFloat.packComponents, BitVec.getLsbD_append,
    BitVec.getElem_append]

/-- Packing keeps exponents in range. -/
theorem isFinite_unpack_pack
    {sign : Sign}
    {mantissa : Nat}
    {exponent : Int}
    (positive : 0 < mantissa)
    (small : exponent + 1075 < 2047) :
    (UnpackedFloat.unpack Format.binary64
      (UnpackedFloat.pack _ (.finite sign mantissa exponent positive))).isFinite = true := by
  have bias : ((Format.binary64.exponentBias : Nat) : Int) = 1023 := rfl
  have field : (exponent + Format.binary64.exponentBias +
      (Format.binary64.mantissaBitsWithoutImplicit : Nat)).toNat < 2047 := by
    rw [bias]
    change (exponent + 1023 + 52).toNat < 2047
    omega
  rw [isFinite_unpack_iff, ← toNat_unpackExponent, UnpackedFloat.pack]
  have inRange : ¬ 2 ^ Format.binary64.exponentBits <=
      (exponent + Format.binary64.exponentBias +
        (Format.binary64.mantissaBitsWithoutImplicit : Nat)).toNat + 1 := by
    change ¬ 2048 <= _
    omega
  rw [if_neg inRange]
  split
  next =>
    rw [UnpackedFloat.unpackExponent_packComponents]
    change _ % 2048 ≠ 2047
    omega
  next =>
    rw [UnpackedFloat.unpackExponent_packComponents]
    decide

/-- The pattern of a magnitude. -/
def magnitudePattern (bits : Nat) : BitVec Format.binary64.numBits :=
  (UInt64.ofNat bits).toBitVec

theorem toNat_magnitudePattern {bits : Nat} (bounded : bits <= infinityBits) :
    (magnitudePattern bits).toNat = bits := by
  change bits % 2 ^ 64 = bits
  have words : infinityBits < 2 ^ 64 := by decide
  omega

/-- A magnitude pattern below that of infinity is one of a finite double. -/
theorem isFinite_ofMagnitude {bits : Nat} (below : bits < infinityBits) :
    (ofMagnitude false bits).isFinite = true := by
  let pattern := magnitudePattern bits
  change (UnpackedFloat.unpack Format.binary64
    (UnpackedFloat.pack Format.binary64 (UnpackedFloat.unpack _ pattern))).isFinite = true
  have same : pattern.toNat = bits := toNat_magnitudePattern below.le
  have finite : exponentField pattern.toNat ≠ 2047 := by
    rw [same, exponentField]
    simp only [infinityBits, Nat.pow_eq] at below ⊢
    omega
  by_cases zero : exponentField pattern.toNat = 0 ∧ mantissaField pattern.toNat = 0
  · obtain ⟨sign, isZero⟩ := unpack_of_zero pattern zero.1 zero.2
    rw [isZero]
    cases sign <;> rfl
  · obtain ⟨mantissa, exponent, positive, unpacked, small⟩ :=
      unpack_of_nonzero pattern finite (Classical.not_and_iff_not_or_not.1 zero)
    rw [unpacked]
    exact isFinite_unpack_pack positive small

/-! ## Rounding down -/

/-- A significand has at most fifty-three bits. -/
theorem significand_lt (x : Float) : significand x < 2 ^ 53 := by
  have mantissa : mantissaField x.toBits.toNat < Nat.pow 2 52 := Nat.mod_lt _ (by decide)
  rw [significand, exponentOffset, magnitudeBits_eq]
  simp only [Nat.pow_eq] at mantissa ⊢
  omega

/-- Doubles near machine words are finite. -/
theorem isFinite_ofNat {count : Nat} (fits : count <= largestCount) :
    (ofNat count).isFinite = true := by
  have words : largestCount < 1 * 2 ^ 64 := by decide
  exact isFinite_ofMagnitude (nearestBits_lt (Nat.lt_of_le_of_lt fits words) (by decide))

/-- Rounding down keeps positive doubles finite. -/
theorem isFinite_floor {x : Float} (finite : x.isFinite = true) (positive : 0 < x) :
    (floor x).isFinite = true := by
  have noSign := ((zero_lt_iff finite).1 positive).1
  rw [floor]
  split
  next => exact finite
  next fractional =>
    rw [noSign, if_neg Bool.false_ne_true]
    refine isFinite_ofNat ?_
    have words : 2 ^ 53 <= largestCount := by decide
    have below := significand_lt x
    have small : ¬ 0 <= exponent x := fun nonnegative =>
      fractional (by simp [isWhole, finite, nonnegative])
    rw [integerPart, if_neg small]
    exact (Nat.div_le_self _ _).trans (below.le.trans words)

/-! ## Fractions -/

/-- Rounding keeps the sign. -/
theorem roundWithAccuracy_sign
    (spec : Format)
    (sign : Sign)
    (mantissa : Nat)
    (exponent : Int)
    (accuracy : UnpackedFloat.Accuracy) :
    UnpackedFloat.roundWithAccuracy spec sign mantissa exponent accuracy = .zero sign ∨
      ∃ mantissa' exponent' positive,
        UnpackedFloat.roundWithAccuracy spec sign mantissa exponent accuracy =
          .finite sign mantissa' exponent' positive := by
  rw [UnpackedFloat.roundWithAccuracy]
  dsimp only
  split
  next => exact Or.inl rfl
  next nonzero => exact Or.inr ⟨_, _, Nat.pos_of_ne_zero nonzero, rfl⟩

theorem unpackSign_pack_finite
    {sign : Sign}
    {mantissa : Nat}
    {exponent : Int}
    (positive : 0 < mantissa) :
    UnpackedFloat.unpackSign
      (UnpackedFloat.pack Format.binary64 (.finite sign mantissa exponent positive)) =
        sign.toBitVec := by
  rw [UnpackedFloat.pack]
  dsimp only
  split
  next => exact unpackSign_packComponents _ _ _ _
  next =>
    split
    next => exact unpackSign_packComponents _ _ _ _
    next => exact unpackSign_packComponents _ _ _ _

/-- Positive finite doubles are unpacked with a positive sign. -/
theorem unpack_of_pos {x : Float} (finite : x.isFinite = true) (positive : 0 < x) :
    ∃ mantissa exponent nonzero,
      x.toModel.unpack = .finite .positive mantissa exponent nonzero := by
  have order : ((0 : Float).toModel.unpack.compare x.toModel.unpack == some .lt) = true := by
    change decide ((0 : Float).toModel < x.toModel) = true at positive
    rw [decide_eq_true_iff] at positive
    exact positive
  have zeroUnpacked : (0 : Float).toModel.unpack = .zero .positive := rfl
  change x.toModel.unpack.isFinite = true at finite
  rw [zeroUnpacked] at order
  cases unpacked : x.toModel.unpack with
  | notANumber => rw [unpacked] at finite; cases finite
  | infinity sign => rw [unpacked] at finite; cases finite
  | zero sign => rw [unpacked] at order; cases order
  | finite sign mantissa exponent nonzero =>
      cases sign with
      | positive => exact ⟨mantissa, exponent, nonzero, rfl⟩
      | negative => rw [unpacked] at order; cases order

/-- A pattern with a positive sign that is below some double is finite. -/
theorem isFinite_of_lt
    {x bound : Float}
    (noSign : UnpackedFloat.unpackSign (pattern x) = 0#1)
    (below : x < bound) :
    x.isFinite = true := by
  change decide (x.toModel < bound.toModel) = true at below
  rw [decide_eq_true_iff] at below
  change ((UnpackedFloat.unpack _ (pattern x)).compare bound.toModel.unpack ==
    some .lt) = true at below
  change (UnpackedFloat.unpack _ (pattern x)).isFinite = true
  cases unpacked : UnpackedFloat.unpack Format.binary64 (pattern x) with
  | notANumber => rw [unpacked] at below; cases below
  | zero sign => rfl
  | finite sign mantissa exponent nonzero => rfl
  | infinity sign =>
      have positive : sign = .positive := by
        rw [UnpackedFloat.unpack, noSign] at unpacked
        split at unpacked
        next =>
          split at unpacked
          next => cases unpacked; rfl
          next => cases unpacked
        next =>
          split at unpacked
          next =>
            split at unpacked
            next => cases unpacked
            next => cases unpacked
          next => cases unpacked
      rw [unpacked, positive] at below
      cases upper : bound.toModel.unpack with
      | infinity sign => rw [upper] at below; cases sign <;> cases below
      | _ => rw [upper] at below; cases below

/-- A quotient of positive finite doubles that is below some double is finite. -/
theorem isFinite_div_of_lt
    {numerator denominator bound : Float}
    (finiteNumerator : numerator.isFinite = true)
    (positiveNumerator : 0 < numerator)
    (finiteDenominator : denominator.isFinite = true)
    (positiveDenominator : 0 < denominator)
    (below : numerator / denominator < bound) :
    (numerator / denominator).isFinite = true := by
  obtain ⟨mantissa, exponent, nonzero, unpacked⟩ :=
    unpack_of_pos finiteNumerator positiveNumerator
  obtain ⟨other, otherExponent, otherNonzero, otherUnpacked⟩ :=
    unpack_of_pos finiteDenominator positiveDenominator
  refine isFinite_of_lt ?_ below
  change UnpackedFloat.unpackSign (UnpackedFloat.pack Format.binary64
    (UnpackedFloat.div _ numerator.toModel.unpack denominator.toModel.unpack)) = 0#1
  rw [unpacked, otherUnpacked]
  change UnpackedFloat.unpackSign (UnpackedFloat.pack Format.binary64
    (UnpackedFloat.roundWithAccuracy _ .positive _ _ _)) = 0#1
  rcases roundWithAccuracy_sign Format.binary64 .positive _ _ _ with
    rounded | ⟨_, _, positive, rounded⟩
  · rw [rounded]
    rfl
  · rw [rounded]
    exact unpackSign_pack_finite positive

end Binary64

namespace Backtest

/-- Whole numbers of shares are finite. -/
theorem isFinite_wholeShares
    {shares : Float}
    (finite : shares.isFinite = true)
    (positive : 0 < shares) :
    (wholeShares shares).isFinite = true := by
  rw [wholeShares]
  split
  next => exact Binary64.isFinite_floor finite positive
  next => decide

/-- Fractions of equity are finite. -/
theorem isFinite_equityFraction
    {percent : Float}
    (finite : percent.isFinite = true)
    (positive : 0 < percent) :
    (equityFraction percent).isFinite = true := by
  rw [equityFraction]
  split
  next below =>
    exact Binary64.isFinite_div_of_lt finite positive (by decide) (by decide) below
  next => decide

end Backtest
end StrategyGraph
