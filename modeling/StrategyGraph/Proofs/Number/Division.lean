import StrategyGraph.Proofs.Number.Bits
import StrategyGraph.Proofs.Number.Shortest

/-!
# Division and multiplication of doubles

The quotient of two positive doubles is the double nearest to the ratio of the numbers they
are, and their product the one nearest to the product of these. Both are computed to more bits
than a significand has; the last bits, the remainder and the bits that are shifted out are kept
as a round bit and a sticky bit, from which the outcome is rounded once.
-/

namespace StrategyGraph
namespace Binary64

open Float.Model (UnpackedFloat Format totalExponent)
open Float.Model.UnpackedFloat (Sign Accuracy ExtendedMantissa)

/-! ## Round bits and sticky bits -/

/-- An extended mantissa stands for a ratio: the mantissa for its whole part, the round bit for
the half above it and the sticky bit for everything behind that. -/
structure Represents (extended : ExtendedMantissa) (numerator denominator : Nat) : Prop where
  mantissa : extended.mantissa = numerator / denominator
  roundBit : extended.roundBit = true ↔ denominator <= 2 * (numerator % denominator)
  stickyBit : extended.stickyBit = true ↔
    numerator % denominator ≠ 0 ∧ 2 * (numerator % denominator) ≠ denominator

section

variable {numerator denominator : Nat} {extended : ExtendedMantissa}

/-- A whole part with the accuracy of its remainder stands for the ratio. -/
theorem represents_quotient (proper : 0 < denominator) :
    Represents
      (ExtendedMantissa.ofMantissaAndAccuracy (numerator / denominator)
        (UnpackedFloat.accuracyOfFraction (numerator % denominator) denominator))
      numerator denominator := by
  rw [UnpackedFloat.accuracyOfFraction]
  split
  next whole =>
    constructor <;> simp [ExtendedMantissa.ofMantissaAndAccuracy, whole, proper.ne']
  next fractional =>
    cases order : compare (2 * (numerator % denominator)) denominator with
    | lt =>
        rw [Nat.compare_eq_lt] at order
        constructor <;>
          simp [ExtendedMantissa.ofMantissaAndAccuracy, fractional, order, order.ne]
    | eq =>
        rw [Nat.compare_eq_eq] at order
        constructor <;> simp [ExtendedMantissa.ofMantissaAndAccuracy, order]
    | gt =>
        rw [Nat.compare_eq_gt] at order
        constructor <;>
          simp [ExtendedMantissa.ofMantissaAndAccuracy, fractional, order.le, order.ne']

/-- Shifting out one bit halves the ratio. -/
theorem Represents.shiftRightOne
    (represents : Represents extended numerator denominator)
    (proper : 0 < denominator) :
    Represents extended.shiftRightOne numerator (denominator * 2) := by
  have below := Nat.mod_lt numerator proper
  have remainder : numerator % (denominator * 2) =
      numerator % denominator + denominator * (numerator / denominator % 2) := Nat.mod_mul
  have bit : numerator / denominator % 2 = 0 ∨ numerator / denominator % 2 = 1 :=
    Nat.mod_two_eq_zero_or_one _
  constructor
  · rw [ExtendedMantissa.shiftRightOne, represents.mantissa, Nat.div_div_eq_div_mul]
  · rw [ExtendedMantissa.shiftRightOne, represents.mantissa, bne_iff_ne, remainder]
    rcases bit with even | odd
    · rw [even]
      omega
    · rw [odd]
      omega
  · rw [ExtendedMantissa.shiftRightOne, Bool.or_eq_true, represents.roundBit,
      represents.stickyBit, remainder]
    rcases bit with even | odd
    · rw [even]
      omega
    · rw [odd]
      omega

/-- Shifting out several bits divides the ratio by a power of two. -/
theorem Represents.shiftRight
    (represents : Represents extended numerator denominator)
    (proper : 0 < denominator)
    (amount : Nat) :
    Represents (extended >>> amount) numerator (denominator * 2 ^ amount) := by
  change Represents (amount.repeat ExtendedMantissa.shiftRightOne extended) _ _
  induction amount with
  | zero =>
      rw [Nat.pow_zero, Nat.mul_one]
      exact represents
  | succ amount hypothesis =>
      rw [Nat.repeat, Nat.pow_succ, ← Nat.mul_assoc]
      exact hypothesis.shiftRightOne (Nat.mul_pos proper (Nat.two_pow_pos amount))

/-- Rounding goes to the nearest whole number, on a tie to the even one. -/
theorem Represents.roundedMantissa_eq
    (represents : Represents extended numerator denominator)
    (proper : 0 < denominator) :
    extended.roundedMantissa = roundedQuotient numerator denominator := by
  have below := Nat.mod_lt numerator proper
  obtain ⟨mantissa, roundBit, stickyBit⟩ := extended
  obtain ⟨rfl, round, sticky⟩ := represents
  dsimp only at round sticky
  unfold roundedQuotient
  dsimp only
  -- The round bit says on which side of the half the remainder is, or that it is there.
  cases roundBit with
  | false =>
      have lower : 2 * (numerator % denominator) < denominator := by simpa using round
      rw [if_pos lower]
      cases stickyBit <;> rfl
  | true =>
      have upper : denominator <= 2 * (numerator % denominator) := by simpa using round
      rw [if_neg (Nat.not_lt.2 upper)]
      cases stickyBit with
      | false =>
          have tie : 2 * (numerator % denominator) = denominator := by
            simp only [Bool.false_eq_true, false_iff] at sticky
            omega
          rw [if_neg (Nat.not_lt.2 tie.le)]
          change numerator / denominator + numerator / denominator % 2 = _
          split <;> omega
      | true =>
          have above : denominator < 2 * (numerator % denominator) := by
            simp only [true_iff] at sticky
            omega
          rw [if_pos above]
          rfl

end

/-! ## Packing -/

/-- A pattern without a sign is its exponent in front of its mantissa. -/
theorem toNat_packComponents
    (exponent : BitVec Format.binary64.exponentBits)
    (mantissa : BitVec Format.binary64.mantissaBitsWithoutImplicit) :
    (UnpackedFloat.packComponents Format.binary64 .positive exponent mantissa).toNat =
      exponent.toNat * 2 ^ 52 + mantissa.toNat := by
  have bound : mantissa.toNat < 2 ^ 52 := mantissa.isLt
  rw [UnpackedFloat.packComponents, BitVec.toNat_append, ← Nat.shiftLeft_add_eq_or_of_lt bound,
    BitVec.toNat_append]
  simp [Sign.toBitVec, Nat.shiftLeft_eq]

/-- Significands that fill their exponent are packed behind one another; those that are too
large are infinite. -/
theorem toNat_pack
    {mantissa offset : Nat}
    {exponent : Int}
    (positive : 0 < mantissa)
    (position : exponent = (offset : Int) - 1074)
    (below : mantissa < 2 ^ 53)
    (filled : offset = 0 ∨ 2 ^ 52 <= mantissa) :
    (UnpackedFloat.pack Format.binary64 (.finite .positive mantissa exponent positive)).toNat =
      min infinityBits (offset * 2 ^ 52 + mantissa) := by
  have bias : ((Format.binary64.exponentBias : Nat) : Int) = 1023 := rfl
  have width : ((Format.binary64.mantissaBitsWithoutImplicit : Nat) : Int) = 52 := rfl
  have field : (exponent + (Format.binary64.exponentBias : Nat) +
      (Format.binary64.mantissaBitsWithoutImplicit : Nat)).toNat = offset + 1 := by
    rw [bias, width, position]
    omega
  rw [UnpackedFloat.pack]
  dsimp only
  rw [field]
  split
  next large =>
    change 2048 <= offset + 1 + 1 at large
    rw [UnpackedFloat.packedInfinity, toNat_packComponents]
    change 2047 * 2 ^ 52 + 0 = _
    rw [infinityBits, Nat.pow_eq]
    omega
  next small =>
    change ¬ 2048 <= offset + 1 + 1 at small
    have digits : 2 ^ 52 <= mantissa ↔ mantissa.log2 + 1 = Format.binary64.mantissaBits := by
      have below := (Nat.log2_lt positive.ne').2 below
      rw [← Nat.le_log2 positive.ne']
      change 52 <= mantissa.log2 ↔ mantissa.log2 + 1 = 53
      omega
    split
    next normal =>
      have long := digits.2 normal
      have exponentBits : (offset + 1) % 2048 = offset + 1 := by omega
      have mantissaBits : mantissa % 2 ^ 52 = mantissa - 2 ^ 52 := by omega
      rw [toNat_packComponents, BitVec.toNat_ofNat, BitVec.toNat_ofNat]
      change (offset + 1) % 2048 * 2 ^ 52 + mantissa % 2 ^ 52 = _
      have finite : offset * 2 ^ 52 + mantissa <= infinityBits := by
        rw [infinityBits, Nat.pow_eq]
        omega
      rw [exponentBits, mantissaBits, Nat.min_eq_right finite, Nat.succ_mul, Nat.add_assoc,
        Nat.add_sub_cancel' long]
    next subnormal =>
      have short := fun long => subnormal (digits.1 long)
      rw [toNat_packComponents]
      change 0 * 2 ^ 52 + mantissa % 2 ^ 52 = _
      rw [infinityBits, Nat.pow_eq]
      omega

/-! ## Rounding -/

theorem targetExponent_eq (mantissa : Nat) (exponent : Int) :
    Format.binary64.targetExponent (totalExponent mantissa exponent) =
      max (mantissa.log2 + exponent - 52) (-1074) := by
  have smallest : Format.binary64.minExponent = -1074 := by decide
  have bits : Format.binary64.mantissaBits = 53 := rfl
  rw [Format.targetExponent, totalExponent, smallest, bits]
  omega

/-- A significand that fits is not shifted again. -/
theorem shiftToTargetExponent_of_lt
    {mantissa : Nat}
    (below : mantissa < 2 ^ 53)
    (offset : Nat) :
    UnpackedFloat.shiftToTargetExponent Format.binary64 mantissa ((offset : Int) - 1074) .exact =
      (⟨mantissa, false, false⟩, (offset : Int) - 1074) := by
  have digits : mantissa.log2 <= 52 := by
    by_cases none : mantissa = 0
    · rw [none]
      decide
    · exact Nat.le_of_lt_succ ((Nat.log2_lt none).2 below)
  have amount : (max (mantissa.log2 + ((offset : Int) - 1074) - 52) (-1074) -
      ((offset : Int) - 1074)).toNat = 0 := by
    omega
  rw [UnpackedFloat.shiftToTargetExponent, targetExponent_eq, UnpackedFloat.shiftToExponent,
    amount]
  simp [ExtendedMantissa.ofMantissaAndAccuracy, HShiftRight.hShiftRight, Nat.repeat]

/-- A carry is shifted into the exponent. -/
theorem shiftToTargetExponent_carry (offset : Nat) :
    UnpackedFloat.shiftToTargetExponent Format.binary64 (2 ^ 53) ((offset : Int) - 1074) .exact =
      (⟨2 ^ 52, false, false⟩, ((offset + 1 : Nat) : Int) - 1074) := by
  have digits : (2 ^ 53).log2 = 53 := Nat.log2_two_pow
  have amount : (max ((53 : Nat) + ((offset : Int) - 1074) - 52) (-1074) -
      ((offset : Int) - 1074)).toNat = 1 := by
    omega
  rw [UnpackedFloat.shiftToTargetExponent, targetExponent_eq, digits,
    UnpackedFloat.shiftToExponent, amount]
  simp [ExtendedMantissa.ofMantissaAndAccuracy, ExtendedMantissa.shiftRightOne,
    HShiftRight.hShiftRight, Nat.repeat]
  omega

/-- A rounded significand of at most fifty-three bits is packed as it is, with a carry into the
exponent if it is the next power of two. -/
theorem toNat_pack_round
    {mantissa offset : Nat}
    {exponent : Int}
    {extended : ExtendedMantissa}
    {accuracy : Accuracy}
    (shifted : UnpackedFloat.shiftToTargetExponent Format.binary64 mantissa exponent accuracy =
      (extended, (offset : Int) - 1074))
    (bounded : extended.roundedMantissa <= 2 ^ 53)
    (filled : offset = 0 ∨ 2 ^ 52 <= extended.roundedMantissa) :
    (UnpackedFloat.pack Format.binary64
      (UnpackedFloat.roundWithAccuracy Format.binary64 .positive mantissa exponent
        accuracy)).toNat =
      min infinityBits (offset * 2 ^ 52 + extended.roundedMantissa) := by
  rw [UnpackedFloat.roundWithAccuracy, shifted]
  dsimp only
  generalize extended.roundedMantissa = rounded at bounded filled
  rcases Nat.lt_or_eq_of_le bounded with below | rfl
  · rw [shiftToTargetExponent_of_lt below]
    dsimp only
    split
    next none =>
      have first : offset = 0 := filled.resolve_right (by omega)
      rw [none, first]
      rfl
    next some => exact toNat_pack (Nat.pos_of_ne_zero some) rfl below filled
  · rw [shiftToTargetExponent_carry]
    dsimp only
    have some : 2 ^ 52 ≠ 0 := (Nat.two_pow_pos 52).ne'
    have carried : (offset + 1) * 2 ^ 52 + 2 ^ 52 = offset * 2 ^ 52 + 2 ^ 53 := by omega
    rw [dif_neg some, toNat_pack (Nat.two_pow_pos 52) rfl (by norm_num) (Or.inr le_rfl), carried]

/-- A ratio with enough digits in its whole part is rounded at the exponent at which it fits. -/
theorem toNat_pack_quotient
    {numerator denominator : Nat}
    {exponent : Int}
    (proper : 0 < denominator)
    (enough : exponent <= max ((numerator / denominator).log2 + exponent - 52) (-1074)) :
    ∃ offset shift : Nat, (offset : Int) = exponent + shift + 1074 ∧
      numerator < denominator * 2 ^ shift * 2 ^ 53 ∧
      (offset = 0 ∨ denominator * 2 ^ shift * 2 ^ 52 <= numerator) ∧
      (UnpackedFloat.pack Format.binary64
        (UnpackedFloat.roundWithAccuracy Format.binary64 .positive (numerator / denominator)
          exponent
          (UnpackedFloat.accuracyOfFraction (numerator % denominator) denominator))).toNat =
        min infinityBits
          (offset * 2 ^ 52 + roundedQuotient numerator (denominator * 2 ^ shift)) := by
  generalize digits : (numerator / denominator).log2 = length at enough
  obtain ⟨shift, isShift⟩ : ∃ shift : Nat,
      shift = (max ((length : Int) + exponent - 52) (-1074) - exponent).toNat := ⟨_, rfl⟩
  obtain ⟨offset, isOffset⟩ : ∃ offset : Nat, (offset : Int) = exponent + shift + 1074 :=
    ⟨(exponent + shift + 1074).toNat, by omega⟩
  have below : numerator / denominator < 2 ^ (shift + 53) := by
    have power : 2 ^ (length + 1) <= 2 ^ (shift + 53) :=
      Nat.pow_le_pow_right (by decide) (by omega)
    rw [← digits] at power
    exact Nat.lt_log2_self.trans_le power
  have filled : offset = 0 ∨ 2 ^ (shift + 52) <= numerator / denominator := by
    refine or_iff_not_imp_left.2 fun some => ?_
    have full : shift + 52 = length := by omega
    have significant : numerator / denominator ≠ 0 := by
      intro none
      rw [none, Nat.log2_zero] at digits
      omega
    rw [full, ← digits]
    exact Nat.log2_self_le significant
  rw [Nat.div_lt_iff_lt_mul proper, Nat.pow_add, Nat.mul_comm, ← Nat.mul_assoc] at below
  rw [Nat.le_div_iff_mul_le proper, Nat.pow_add, Nat.mul_comm, ← Nat.mul_assoc] at filled
  have positive : 0 < denominator * 2 ^ shift := Nat.mul_pos proper (Nat.two_pow_pos shift)
  have represents : Represents _ numerator (denominator * 2 ^ shift) :=
    (represents_quotient proper).shiftRight proper shift
  have rounded := represents.roundedMantissa_eq positive
  have shifted : UnpackedFloat.shiftToTargetExponent Format.binary64 (numerator / denominator)
      exponent (UnpackedFloat.accuracyOfFraction (numerator % denominator) denominator) =
      (ExtendedMantissa.ofMantissaAndAccuracy (numerator / denominator)
        (UnpackedFloat.accuracyOfFraction (numerator % denominator) denominator) >>> shift,
        (offset : Int) - 1074) := by
    rw [UnpackedFloat.shiftToTargetExponent, targetExponent_eq, digits,
      UnpackedFloat.shiftToExponent, ← isShift]
    have position : exponent + (shift : Int) = offset - 1074 := by omega
    rw [position]
  refine ⟨offset, shift, isOffset, below, filled, ?_⟩
  rw [toNat_pack_round shifted, rounded]
  · have quotient := roundedQuotient_le numerator (denominator * 2 ^ shift)
    have short := (Nat.div_lt_iff_lt_mul positive).2 (Nat.mul_comm _ _ ▸ below)
    omega
  · refine filled.imp_right fun full => ?_
    rw [rounded]
    rw [Nat.mul_comm, ← Nat.le_div_iff_mul_le positive] at full
    exact full.trans (le_roundedQuotient _ _)

/-! ## Quotients -/

/-- A ratio that is rounded at a scale at which it fits is rounded to the nearest double. -/
theorem nearestBits_of_scaled
    {numerator denominator scaledNumerator scaledDenominator offset factor : Nat}
    (significant : numerator ≠ 0)
    (proper : denominator ≠ 0)
    (positive : 0 < factor)
    (above : numerator * unitsInOne = scaledNumerator * factor)
    (beneath : denominator * 2 ^ offset = scaledDenominator * factor)
    (below : scaledNumerator < scaledDenominator * 2 ^ 53)
    (filled : offset = 0 ∨ scaledDenominator * 2 ^ 52 <= scaledNumerator) :
    nearestBits numerator denominator =
      min infinityBits (offset * 2 ^ 52 + roundedQuotient scaledNumerator scaledDenominator) := by
  have fits : FitsAt numerator denominator offset := by
    refine ⟨?_, filled.imp_right fun enough => ?_⟩
    · rw [Nat.pow_add, ← Nat.mul_assoc, beneath, above, Nat.mul_right_comm]
      exact Nat.mul_lt_mul_of_pos_right below positive
    · rw [Nat.pow_add, ← Nat.mul_assoc, beneath, above, Nat.mul_right_comm]
      exact Nat.mul_le_mul_right factor enough
  rw [nearestBits_of_fitsAt significant proper fits, above, beneath, roundedQuotient_mul positive]

/-- The whole part of a quotient has as many digits as the numerator has more than the
denominator. -/
theorem long_quotient
    {mantissa other amount : Nat}
    (positive : 0 < mantissa)
    (otherPositive : 0 < other)
    (longer : other.log2 + 53 <= mantissa.log2 + amount) :
    52 <= (mantissa * 2 ^ amount / other).log2 := by
  have large : 2 ^ 52 <= mantissa * 2 ^ amount / other := by
    rw [Nat.le_div_iff_mul_le otherPositive]
    calc 2 ^ 52 * other
        <= 2 ^ 52 * 2 ^ (other.log2 + 1) := Nat.mul_le_mul_left _ Nat.lt_log2_self.le
      _ = 2 ^ (52 + (other.log2 + 1)) := (Nat.pow_add _ _ _).symm
      _ <= 2 ^ (mantissa.log2 + amount) := Nat.pow_le_pow_right (by decide) (by omega)
      _ = 2 ^ mantissa.log2 * 2 ^ amount := Nat.pow_add _ _ _
      _ <= mantissa * 2 ^ amount :=
          Nat.mul_le_mul_right _ (Nat.log2_self_le positive.ne')
  have some : mantissa * 2 ^ amount / other ≠ 0 :=
    (Nat.lt_of_lt_of_le (Nat.two_pow_pos 52) large).ne'
  exact (Nat.le_log2 some).2 large

/-- The quotient of two positive numbers is packed as the double nearest to it. -/
theorem toNat_pack_div
    {mantissa offset other otherOffset : Nat}
    (positive : 0 < mantissa)
    (otherPositive : 0 < other) :
    (UnpackedFloat.pack Format.binary64
      (UnpackedFloat.div Format.binary64
        (.finite .positive mantissa ((offset : Int) - 1074) positive)
        (.finite .positive other ((otherOffset : Int) - 1074) otherPositive))).toNat =
      nearestBits (mantissa * 2 ^ offset) (other * 2 ^ otherOffset) := by
  have bits : Format.binary64.mantissaBits = 53 := rfl
  have smallest : Format.binary64.minExponent = -1074 := by decide
  obtain ⟨exponent, isExponent⟩ : ∃ exponent : Int, exponent =
      min ((offset : Int) - 1074 - ((otherOffset : Int) - 1074))
        (Format.binary64.targetExponent
          (totalExponent mantissa ((offset : Int) - 1074) -
            totalExponent other ((otherOffset : Int) - 1074))) := ⟨_, rfl⟩
  obtain ⟨amount, isAmount⟩ : ∃ amount : Nat,
      amount = ((offset : Int) - 1074 - ((otherOffset : Int) - 1074) - exponent).toNat := ⟨_, rfl⟩
  have quotient : UnpackedFloat.div Format.binary64
      (.finite .positive mantissa ((offset : Int) - 1074) positive)
      (.finite .positive other ((otherOffset : Int) - 1074) otherPositive) =
        UnpackedFloat.roundWithAccuracy Format.binary64 .positive
          (mantissa * 2 ^ amount / other) exponent
          (UnpackedFloat.accuracyOfFraction (mantissa * 2 ^ amount % other) other) := by
    rw [UnpackedFloat.div, UnpackedFloat.divCore, ← isExponent, ← isAmount, Nat.shiftLeft_eq]
    rfl
  rw [Format.targetExponent, totalExponent, totalExponent, bits, smallest] at isExponent
  have enough : exponent <=
      max ((mantissa * 2 ^ amount / other).log2 + exponent - 52) (-1074) := by
    by_cases small : exponent <= -1074
    · omega
    · have long := long_quotient positive otherPositive
        (show other.log2 + 53 <= mantissa.log2 + amount by omega)
      omega
  obtain ⟨target, shift, isTarget, below, filled, packed⟩ :=
    toNat_pack_quotient otherPositive enough
  have spare : amount + (offset + 1074 - amount) = offset + places := by
    rw [places]
    omega
  have lined : shift + (offset + 1074 - amount) = otherOffset + target := by omega
  rw [quotient, packed]
  refine (nearestBits_of_scaled (Nat.mul_pos positive (Nat.two_pow_pos offset)).ne'
    (Nat.mul_pos otherPositive (Nat.two_pow_pos otherOffset)).ne'
    (Nat.two_pow_pos (offset + 1074 - amount)) ?_ ?_ below filled).symm
  · rw [Nat.mul_assoc, Nat.mul_assoc, unitsInOne, ← Nat.pow_add, ← Nat.pow_add, spare]
  · rw [Nat.mul_assoc, Nat.mul_assoc, ← Nat.pow_add, ← Nat.pow_add, lined]

/-! ## Products -/

/-- The product of two positive numbers is packed as the double nearest to it. -/
theorem toNat_pack_mul
    {mantissa offset other otherOffset : Nat}
    (positive : 0 < mantissa)
    (otherPositive : 0 < other)
    (filled : offset = 0 ∨ 2 ^ 52 <= mantissa)
    (otherFilled : otherOffset = 0 ∨ 2 ^ 52 <= other) :
    (UnpackedFloat.pack Format.binary64
      (UnpackedFloat.mul Format.binary64
        (.finite .positive mantissa ((offset : Int) - 1074) positive)
        (.finite .positive other ((otherOffset : Int) - 1074) otherPositive))).toNat =
      nearestBits (mantissa * 2 ^ offset * (other * 2 ^ otherOffset))
        (unitsInOne * unitsInOne) := by
  obtain ⟨exponent, isExponent⟩ : ∃ exponent : Int,
      exponent = (offset : Int) - 1074 + ((otherOffset : Int) - 1074) := ⟨_, rfl⟩
  have some : 0 < mantissa * other := Nat.mul_pos positive otherPositive
  have product : UnpackedFloat.mul Format.binary64
      (.finite .positive mantissa ((offset : Int) - 1074) positive)
      (.finite .positive other ((otherOffset : Int) - 1074) otherPositive) =
        UnpackedFloat.roundWithAccuracy Format.binary64 .positive (mantissa * other / 1) exponent
          (UnpackedFloat.accuracyOfFraction (mantissa * other % 1) 1) := by
    rw [Nat.div_one, Nat.mod_one, isExponent]
    rfl
  have enough : exponent <= max ((mantissa * other / 1).log2 + exponent - 52) (-1074) := by
    rw [Nat.div_one]
    by_cases small : exponent <= -1074
    · omega
    · have large : 2 ^ 52 <= mantissa * other := by
        rcases filled with first | full
        · have otherFull := otherFilled.resolve_left (by omega)
          exact otherFull.trans (Nat.le_mul_of_pos_left other positive)
        · exact full.trans (Nat.le_mul_of_pos_right mantissa otherPositive)
      have long := (Nat.le_log2 some.ne').2 large
      omega
  obtain ⟨target, shift, isTarget, below, fits, packed⟩ :=
    toNat_pack_quotient Nat.one_pos enough
  have lined : places + places + target = shift + (offset + otherOffset + places) := by
    rw [places]
    omega
  rw [product, packed]
  refine (nearestBits_of_scaled
    (Nat.mul_pos (Nat.mul_pos positive (Nat.two_pow_pos offset))
      (Nat.mul_pos otherPositive (Nat.two_pow_pos otherOffset))).ne'
    (Nat.mul_pos unitsInOne_pos unitsInOne_pos).ne'
    (Nat.two_pow_pos (offset + otherOffset + places)) ?_ ?_ below fits).symm
  · rw [Nat.mul_mul_mul_comm, Nat.mul_assoc, unitsInOne, ← Nat.pow_add, ← Nat.pow_add]
  · rw [Nat.mul_assoc 1, Nat.one_mul, unitsInOne, ← Nat.pow_add, ← Nat.pow_add, ← Nat.pow_add,
      lined]

/-! ## Doubles -/

/-- A positive double is unpacked into its significand and its exponent. -/
theorem unpack_eq_finite {x : Float} (finite : x.isFinite = true) (positive : 0 < x) :
    ∃ nonzero : 0 < significand x,
      x.toModel.unpack =
        .finite .positive (significand x) ((exponentOffset x : Int) - 1074) nonzero := by
  obtain ⟨unsigned, some⟩ := (zero_lt_iff finite).1 positive
  refine ⟨Nat.pos_of_ne_zero some, ?_⟩
  have ordinary : UnpackedFloat.unpackExponent (pattern x) ≠ -1#_ := fun special =>
    isFinite_iff.1 finite ((unpackExponent_eq_iff (pattern x) (by decide)).1 special)
  have noSign : Sign.ofBitVec (UnpackedFloat.unpackSign (pattern x)) = .positive := by
    rw [unpackSign_eq_zero_iff.2 unsigned]
    rfl
  have bias : ((Format.binary64.exponentBias : Nat) : Int) = 1023 := rfl
  have width : ((Format.binary64.mantissaBitsWithoutImplicit : Nat) : Int) = 52 := rfl
  have mantissa : (UnpackedFloat.unpackMantissa (pattern x)).toNat =
      mantissaField x.toBits.toNat := toNat_unpackMantissa (pattern x)
  have exponent : (UnpackedFloat.unpackExponent (pattern x)).toNat =
      exponentField x.toBits.toNat := toNat_unpackExponent (pattern x)
  have split := magnitudeBits_eq x
  have small : mantissaField x.toBits.toNat < Nat.pow 2 52 := Nat.mod_lt _ (by decide)
  simp only [Nat.pow_eq] at split small
  change UnpackedFloat.unpack Format.binary64 (pattern x) = _
  rw [UnpackedFloat.unpack, if_neg ordinary]
  split
  next noExponent =>
    have none : exponentField x.toBits.toNat = 0 := by
      rw [← exponent, noExponent]
      rfl
    have first : exponentOffset x = 0 := by
      rw [exponentOffset, split, Nat.pow_eq]
      omega
    have digits : significand x = mantissaField x.toBits.toNat := by
      rw [significand, first, split, none]
      omega
    rw [dif_neg (fun noMantissa => some (significand_eq_zero_iff.2
      ⟨none, (unpackMantissa_eq_zero_iff (pattern x)).1 noMantissa⟩)),
      UnpackedFloat.finite.injEq, mantissa, exponent, none, first, digits, bias, width]
    exact ⟨noSign, rfl, rfl⟩
  next hasExponent =>
    have one : exponentField x.toBits.toNat ≠ 0 := fun none =>
      hasExponent ((unpackExponent_eq_iff (pattern x) (by decide)).2 none)
    have position : exponentOffset x = exponentField x.toBits.toNat - 1 := by
      rw [exponentOffset, split, Nat.pow_eq]
      omega
    have digits : significand x = 2 ^ 52 + mantissaField x.toBits.toNat := by
      rw [significand, position, split, Nat.pow_eq]
      omega
    have leading : (1#1 ++ UnpackedFloat.unpackMantissa (pattern x)).toNat =
        2 ^ 52 + (UnpackedFloat.unpackMantissa (pattern x)).toNat := toNat_implicit _
    rw [UnpackedFloat.finite.injEq, leading, mantissa, exponent, digits, position, bias, width]
    exact ⟨noSign, rfl, by omega⟩

/-- Magnitude of a double as a multiple of the smallest one. -/
def units (x : Float) : Nat :=
  significand x * 2 ^ exponentOffset x

/-- The quotient of two positive doubles is the double nearest to the ratio of the numbers they
are. -/
theorem toBits_div
    {x y : Float}
    (finite : x.isFinite = true)
    (positive : 0 < x)
    (finiteBy : y.isFinite = true)
    (positiveBy : 0 < y) :
    (x / y).toBits.toNat = nearestBits (units x) (units y) := by
  obtain ⟨nonzero, unpacked⟩ := unpack_eq_finite finite positive
  obtain ⟨nonzeroBy, unpackedBy⟩ := unpack_eq_finite finiteBy positiveBy
  change (UnpackedFloat.pack Format.binary64
    (UnpackedFloat.div Format.binary64 x.toModel.unpack y.toModel.unpack)).toNat = _
  rw [unpacked, unpackedBy, toNat_pack_div nonzero nonzeroBy, units, units]

/-- The product of two positive doubles is the double nearest to the product of the numbers
they are. -/
theorem toBits_mul
    {x y : Float}
    (finite : x.isFinite = true)
    (positive : 0 < x)
    (finiteBy : y.isFinite = true)
    (positiveBy : 0 < y) :
    (x * y).toBits.toNat = nearestBits (units x * units y) (unitsInOne * unitsInOne) := by
  obtain ⟨nonzero, unpacked⟩ := unpack_eq_finite finite positive
  obtain ⟨nonzeroBy, unpackedBy⟩ := unpack_eq_finite finiteBy positiveBy
  change (UnpackedFloat.pack Format.binary64
    (UnpackedFloat.mul Format.binary64 x.toModel.unpack y.toModel.unpack)).toNat = _
  rw [unpacked, unpackedBy, toNat_pack_mul nonzero nonzeroBy (significand_filled x)
    (significand_filled y), units, units]

end Binary64
end StrategyGraph
