import StrategyGraph.Proofs.Number.Division
import StrategyGraph.Proofs.Number.Shortest

/-!
# Magnitudes of doubles

Doubles without a sign are ordered like their bit patterns, and rounding to the nearest double
keeps the order of ratios. So a quotient reaches one exactly if the numerator reaches the
denominator, and only then is anything left of it after rounding down.
-/

namespace StrategyGraph
namespace Binary64

open Float.Model (UnpackedFloat Format)
open Float.Model.UnpackedFloat (Sign)

variable {x y : Float}

/-! ## Multiples of the smallest double -/

/-- Of two different magnitudes the smaller one falls short of the larger one by more than the
last bit of a significand. -/
theorem units_gap (less : magnitudeBits x < magnitudeBits y) :
    units x * 2 ^ 53 <= units y * (2 ^ 53 - 1) := by
  have short := significand_lt x
  have shortOther := significand_lt y
  have filled := significand_filled x
  have filledOther := significand_filled y
  rw [magnitudeBits_split, magnitudeBits_split y] at less
  rw [units, units]
  rcases Nat.lt_trichotomy (exponentOffset x) (exponentOffset y) with before | same | behind
  · have leading : 2 ^ 52 <= significand y := by omega
    have power : 2 ^ (exponentOffset x + 1) <= 2 ^ exponentOffset y :=
      Nat.pow_le_pow_right (by decide) before
    calc significand x * 2 ^ exponentOffset x * 2 ^ 53
        <= (2 ^ 53 - 1) * 2 ^ exponentOffset x * 2 ^ 53 :=
          Nat.mul_le_mul_right _ (Nat.mul_le_mul_right _ (by omega))
      _ = 2 ^ 52 * 2 ^ (exponentOffset x + 1) * (2 ^ 53 - 1) := by ring
      _ <= significand y * 2 ^ exponentOffset y * (2 ^ 53 - 1) :=
          Nat.mul_le_mul_right _ (Nat.mul_le_mul leading power)
  · rw [same] at less ⊢
    have digits : significand x * 2 ^ 53 <= significand y * (2 ^ 53 - 1) := by omega
    calc significand x * 2 ^ exponentOffset y * 2 ^ 53
        = significand x * 2 ^ 53 * 2 ^ exponentOffset y := Nat.mul_right_comm _ _ _
      _ <= significand y * (2 ^ 53 - 1) * 2 ^ exponentOffset y := Nat.mul_le_mul_right _ digits
      _ = significand y * 2 ^ exponentOffset y * (2 ^ 53 - 1) := Nat.mul_right_comm _ _ _
  · omega

theorem units_le_of_magnitudeBits_le (atMost : magnitudeBits x <= magnitudeBits y) :
    units x <= units y := by
  rcases Nat.lt_or_eq_of_le atMost with less | same
  · have gap := units_gap less
    omega
  · rw [units, units, significand, significand, exponentOffset, exponentOffset, same]

theorem units_pos (finite : x.isFinite = true) (positive : 0 < x) : 0 < units x :=
  Nat.mul_pos (Nat.pos_of_ne_zero ((zero_lt_iff finite).1 positive).2) (Nat.two_pow_pos _)

/-! ## Order -/

/-- A double without a sign is a zero, a positive finite double or infinite. -/
theorem Unsigned.cases (unsigned : Unsigned x) :
    ((∃ sign, x.toModel.unpack = .zero sign) ∧ magnitudeBits x = 0) ∨
      (x.isFinite = true ∧ 0 < x) ∨
      (x.toModel.unpack = .infinity .positive ∧ magnitudeBits x = infinityBits) := by
  by_cases finite : x.isFinite = true
  · by_cases positive : 0 < x
    · exact Or.inr (Or.inl ⟨finite, positive⟩)
    · have none : significand x = 0 := by
        by_contra some
        exact positive ((zero_lt_iff finite).2 ⟨unsigned.noSign, some⟩)
      obtain ⟨noExponent, noMantissa⟩ := significand_eq_zero_iff.1 none
      exact Or.inl ⟨unpack_of_zero (pattern x) noExponent noMantissa,
        magnitudeBits_of_significand_eq_zero none⟩
  · have special : exponentField x.toBits.toNat = 2047 := by
      by_contra ordinary
      exact finite (isFinite_iff.2 ordinary)
    have isNumber : (UnpackedFloat.unpack Format.binary64 (pattern x)).isNaN = false :=
      unsigned.isNumber
    have sign := unpackSign_eq_zero_iff.2 unsigned.noSign
    have allSet : UnpackedFloat.unpackExponent (pattern x) = -1#_ :=
      (unpackExponent_eq_iff (pattern x) (by decide)).2 special
    refine Or.inr (Or.inr ?_)
    change UnpackedFloat.unpack Format.binary64 (pattern x) = _ ∧ _
    rw [UnpackedFloat.unpack, if_pos allSet, sign] at isNumber ⊢
    split at isNumber
    next noMantissa =>
      have mantissa : mantissaField x.toBits.toNat = 0 :=
        (unpackMantissa_eq_zero_iff (pattern x)).1 noMantissa
      rw [if_pos noMantissa, magnitudeBits_eq, special, mantissa]
      exact ⟨rfl, rfl⟩
    next => cases isNumber

/-- Exponents and then significands are compared like the patterns they make. -/
theorem isLE_pattern
    {offset otherOffset digits otherDigits : Nat}
    (short : digits < 2 ^ 53)
    (shortOther : otherDigits < 2 ^ 53)
    (filled : offset = 0 ∨ 2 ^ 52 <= digits)
    (filledOther : otherOffset = 0 ∨ 2 ^ 52 <= otherDigits) :
    ((compare ((offset : Int) - 1074) ((otherOffset : Int) - 1074)).then
      (compare digits otherDigits)).isLE = true ↔
        offset * 2 ^ 52 + digits <= otherOffset * 2 ^ 52 + otherDigits := by
  rcases Nat.lt_trichotomy offset otherOffset with before | same | behind
  · have order : compare ((offset : Int) - 1074) ((otherOffset : Int) - 1074) = .lt :=
      compare_lt_iff_lt.2 (by omega)
    have patterns : offset * 2 ^ 52 + digits <= otherOffset * 2 ^ 52 + otherDigits := by omega
    simpa [order] using patterns
  · simp [same, Nat.isLE_compare]
  · have order : compare ((offset : Int) - 1074) ((otherOffset : Int) - 1074) = .gt :=
      compare_gt_iff_gt.2 (by omega)
    have patterns : ¬ offset * 2 ^ 52 + digits <= otherOffset * 2 ^ 52 + otherDigits := by omega
    simpa [order] using patterns

/-- Doubles without a sign are ordered like their patterns. -/
theorem Unsigned.le_iff (unsigned : Unsigned x) (unsignedBy : Unsigned y) :
    x <= y ↔ magnitudeBits x <= magnitudeBits y := by
  change decide (x.toModel <= y.toModel) = true ↔ _
  rw [decide_eq_true_iff]
  change ((x.toModel.unpack.compare y.toModel.unpack).any (·.isLE) = true) ↔ _
  rcases unsigned.cases with ⟨⟨sign, isZero⟩, none⟩ | ⟨finite, positive⟩ | ⟨infinite, all⟩
  · rw [isZero, none]
    refine iff_of_true ?_ (Nat.zero_le _)
    rcases unsignedBy.cases with ⟨⟨_, isZeroBy⟩, _⟩ | ⟨finiteBy, positiveBy⟩ | ⟨infiniteBy, _⟩
    · rw [isZeroBy]
      rfl
    · obtain ⟨_, unpackedBy⟩ := unpack_eq_finite finiteBy positiveBy
      rw [unpackedBy]
      rfl
    · rw [infiniteBy]
      rfl
  · obtain ⟨_, unpacked⟩ := unpack_eq_finite finite positive
    have some := ((zero_lt_iff finite).1 positive).2
    rw [unpacked]
    rcases unsignedBy.cases with
      ⟨⟨_, isZeroBy⟩, noneBy⟩ | ⟨finiteBy, positiveBy⟩ | ⟨infiniteBy, allBy⟩
    · rw [isZeroBy, noneBy, magnitudeBits_split]
      exact iff_of_false Bool.false_ne_true (by omega)
    · obtain ⟨_, unpackedBy⟩ := unpack_eq_finite finiteBy positiveBy
      rw [unpackedBy, magnitudeBits_split, magnitudeBits_split y]
      exact isLE_pattern (significand_lt x) (significand_lt y) (significand_filled x)
        (significand_filled y)
    · rw [infiniteBy, allBy]
      exact iff_of_true rfl (magnitudeBits_lt finite).le
  · rw [infinite, all]
    rcases unsignedBy.cases with
      ⟨⟨_, isZeroBy⟩, noneBy⟩ | ⟨finiteBy, positiveBy⟩ | ⟨infiniteBy, allBy⟩
    · rw [isZeroBy, noneBy]
      exact iff_of_false Bool.false_ne_true (by decide)
    · obtain ⟨_, unpackedBy⟩ := unpack_eq_finite finiteBy positiveBy
      rw [unpackedBy]
      exact iff_of_false Bool.false_ne_true (magnitudeBits_lt finiteBy).not_ge
    · rw [infiniteBy, allBy]
      exact iff_of_true rfl le_rfl

theorem Unsigned.le_trans
    {z : Float}
    (unsigned : Unsigned x)
    (unsignedBy : Unsigned y)
    (unsignedLast : Unsigned z)
    (first : x <= y)
    (second : y <= z) :
    x <= z :=
  (unsigned.le_iff unsignedLast).2
    (((unsigned.le_iff unsignedBy).1 first).trans ((unsignedBy.le_iff unsignedLast).1 second))

theorem Unsigned.isFinite_iff_lt (unsigned : Unsigned x) :
    x.isFinite = true ↔ magnitudeBits x < infinityBits := by
  refine ⟨magnitudeBits_lt, fun below => ?_⟩
  rcases unsigned.cases with ⟨⟨sign, isZero⟩, _⟩ | ⟨finite, _⟩ | ⟨_, all⟩
  · change x.toModel.unpack.isFinite = true
    rw [isZero]
    rfl
  · exact finite
  · omega

theorem unsigned_zero : Unsigned 0 := by
  constructor <;> decide

theorem Unsigned.pos_iff (unsigned : Unsigned x) : 0 < x ↔ 0 < magnitudeBits x := by
  have zero : magnitudeBits 0 = 0 := by decide
  rw [← not_le_iff_lt unsigned.isNumber unsigned_zero.isNumber, unsigned.le_iff unsigned_zero,
    zero]
  omega

/-- What lies between positive numbers is a positive number. -/
theorem Unsigned.isFinite_pos_of_le
    {low high : Float}
    (unsigned : Unsigned x)
    (unsignedLow : Unsigned low)
    (positive : 0 < low)
    (atLeast : low <= x)
    (unsignedHigh : Unsigned high)
    (finite : high.isFinite = true)
    (atMost : x <= high) :
    x.isFinite = true ∧ 0 < x := by
  rw [unsignedLow.le_iff unsigned] at atLeast
  rw [unsigned.le_iff unsignedHigh] at atMost
  exact ⟨unsigned.isFinite_iff_lt.2 (atMost.trans_lt (unsignedHigh.isFinite_iff_lt.1 finite)),
    unsigned.pos_iff.2 ((unsignedLow.pos_iff.1 positive).trans_le atLeast)⟩

/-- A pattern up to that of infinity is one of a double without a sign. -/
theorem unsigned_of_toBits_le (bounded : x.toBits.toNat <= infinityBits) :
    Unsigned x ∧ magnitudeBits x = x.toBits.toNat := by
  have bits : infinityBits < Nat.pow 2 63 := by decide
  have same : magnitudeBits x = x.toBits.toNat := Nat.mod_eq_of_lt (by omega)
  refine ⟨⟨?_, decide_eq_false (by omega)⟩, same⟩
  by_cases finite : x.isFinite = true
  · exact isNaN_of_isFinite finite
  · have special : exponentField x.toBits.toNat = 2047 := by
      by_contra ordinary
      exact finite (isFinite_iff.2 ordinary)
    have none : mantissaField x.toBits.toNat = 0 := by
      have split := magnitudeBits_eq x
      rw [same, special] at split
      rw [infinityBits] at bounded
      omega
    have allSet : UnpackedFloat.unpackExponent (pattern x) = -1#_ :=
      (unpackExponent_eq_iff (pattern x) (by decide)).2 special
    change (UnpackedFloat.unpack Format.binary64 (pattern x)).isNaN = false
    rw [UnpackedFloat.unpack, if_pos allSet,
      if_pos ((unpackMantissa_eq_zero_iff (pattern x)).2 none)]
    rfl

/-- A double made of a magnitude has it. -/
theorem magnitudeBits_ofMagnitude {bits : Nat} (bounded : bits <= infinityBits) :
    magnitudeBits (ofMagnitude false bits) = bits := by
  rcases Nat.lt_or_eq_of_le bounded with below | rfl
  · have same := toNat_magnitudePattern bounded
    have words : infinityBits < Nat.pow 2 63 := by decide
    have finite : exponentField (magnitudePattern bits).toNat ≠ 2047 := by
      rw [same, exponentField]
      simp only [infinityBits, Nat.pow_eq] at below ⊢
      omega
    change (UnpackedFloat.pack Format.binary64
      (UnpackedFloat.unpack Format.binary64 (magnitudePattern bits))).toNat % Nat.pow 2 63 = bits
    rw [pack_unpack (magnitudePattern bits) finite, same]
    exact Nat.mod_eq_of_lt (bounded.trans_lt words)
  · decide

/-! ## Rounding down -/

theorem magnitudeBits_one : magnitudeBits 1 = 1023 * 2 ^ 52 := by
  decide

theorem nearestBits_one : nearestBits 1 1 = 1023 * 2 ^ 52 := by
  decide +kernel

theorem unsigned_one : Unsigned 1 := by
  constructor <;> decide

theorem Unsigned.one_le_iff (unsigned : Unsigned x) :
    1 <= x ↔ 1023 * 2 ^ 52 <= magnitudeBits x := by
  rw [unsigned_one.le_iff unsigned, magnitudeBits_one]

/-- Of a number below one nothing is left. -/
theorem Unsigned.magnitudeBits_floor
    (unsigned : Unsigned x)
    (below : magnitudeBits x < 1023 * 2 ^ 52) :
    magnitudeBits (floor x) = 0 := by
  have finite : x.isFinite = true := by
    have split := magnitudeBits_eq x
    refine isFinite_iff.2 fun special => ?_
    rw [special, Nat.pow_eq] at split
    omega
  have early : exponentOffset x + 53 <= 1074 := by
    have split := magnitudeBits_split x
    have filled := significand_filled x
    omega
  have fraction : ¬ 0 <= exponent x := by
    change ¬ 0 <= (exponentOffset x : Int) - 1074
    omega
  have small : significand x < Nat.pow 2 (exponent x).natAbs := by
    have places : 53 <= (exponent x).natAbs := by
      change 53 <= ((exponentOffset x : Int) - 1074).natAbs
      omega
    exact (significand_lt x).trans_le (Nat.pow_le_pow_right (by decide) places)
  rw [floor, finite]
  split
  next whole =>
    have none : significand x % Nat.pow 2 (exponent x).natAbs = 0 := by
      simpa [isWhole, fraction, finite] using whole
    rw [Nat.mod_eq_of_lt small] at none
    exact magnitudeBits_of_significand_eq_zero none
  next =>
    rw [unsigned.noSign, if_neg Bool.false_ne_true, integerPart, if_neg fraction,
      Nat.div_eq_of_lt small]
    exact magnitudeBits_ofMagnitude (nearestBits_le 0 1)

/-- At least one of a number from one on is left. -/
theorem Unsigned.le_magnitudeBits_floor
    (unsigned : Unsigned x)
    (reached : 1023 * 2 ^ 52 <= magnitudeBits x) :
    1023 * 2 ^ 52 <= magnitudeBits (floor x) := by
  rw [floor]
  split
  next => exact reached
  next fractional =>
    have fraction : ¬ 0 <= exponent x := fun nonnegative =>
      fractional (by cases finite : x.isFinite <;> simp [isWhole, finite, nonnegative])
    have leading : 2 ^ 52 <= significand x ∧ 1022 <= exponentOffset x := by
      have split := magnitudeBits_split x
      have filled := significand_filled x
      have short := significand_lt x
      omega
    have places : (exponent x).natAbs <= 52 := by
      have position : exponent x = (exponentOffset x : Int) - 1074 := rfl
      omega
    have some : 1 <= significand x / Nat.pow 2 (exponent x).natAbs :=
      Nat.div_pos ((Nat.pow_le_pow_right (by decide) places).trans leading.1) (Nat.two_pow_pos _)
    rw [unsigned.noSign, if_neg Bool.false_ne_true, integerPart, if_neg fraction, nearest,
      magnitudeBits_ofMagnitude (nearestBits_le _ 1), ← nearestBits_one]
    exact nearestBits_mono_left Nat.one_ne_zero some

/-- Rounding down leaves a number without a sign. -/
theorem Unsigned.floor (unsigned : Unsigned x) : Unsigned (floor x) := by
  rw [Binary64.floor]
  split
  next => exact unsigned
  next =>
    rw [unsigned.noSign, if_neg Bool.false_ne_true]
    exact unsigned_ofNat (integerPart x)

/-! ## Quotients and products -/

section

variable
  (finite : x.isFinite = true)
  (positive : 0 < x)
  (finiteBy : y.isFinite = true)
  (positiveBy : 0 < y)

include finite positive finiteBy positiveBy

theorem unsigned_div :
    Unsigned (x / y) ∧ magnitudeBits (x / y) = nearestBits (units x) (units y) := by
  have bits := toBits_div finite positive finiteBy positiveBy
  rw [← bits]
  exact unsigned_of_toBits_le (bits.trans_le (nearestBits_le _ _))

theorem unsigned_mul :
    Unsigned (x * y) ∧
      magnitudeBits (x * y) = nearestBits (units x * units y) (unitsInOne * unitsInOne) := by
  have bits := toBits_mul finite positive finiteBy positiveBy
  rw [← bits]
  exact unsigned_of_toBits_le (bits.trans_le (nearestBits_le _ _))

/-- A whole part of a quotient is left exactly if the numerator reaches the denominator, and
then it is at least one. -/
theorem floor_div_iff : (0 < floor (x / y) ↔ y <= x) ∧ (1 <= floor (x / y) ↔ y <= x) := by
  obtain ⟨unsigned, bits⟩ := unsigned_div finite positive finiteBy positiveBy
  have someBy := (units_pos finiteBy positiveBy).ne'
  rw [(unsigned_of_pos finiteBy positiveBy).le_iff (unsigned_of_pos finite positive),
    unsigned.floor.pos_iff, unsigned.floor.one_le_iff]
  by_cases reached : magnitudeBits y <= magnitudeBits x
  · have quotient : 1023 * 2 ^ 52 <= magnitudeBits (x / y) := by
      rw [bits, ← nearestBits_one]
      refine nearestBits_mono Nat.one_ne_zero someBy ?_
      have atLeast := units_le_of_magnitudeBits_le reached
      omega
    have left := unsigned.le_magnitudeBits_floor quotient
    simp only [reached, iff_true]
    omega
  · have quotient : magnitudeBits (x / y) < 1023 * 2 ^ 52 := by
      have gap := units_gap (not_le.1 reached)
      have bounded : nearestBits (units x) (units y) <= nearestBits (2 ^ 53 - 1) (2 ^ 53) :=
        nearestBits_mono someBy (by norm_num) (Nat.mul_comm _ (units y) ▸ gap)
      rw [bits]
      refine bounded.trans_lt ?_
      decide +kernel
    have none := unsigned.magnitudeBits_floor quotient
    simp only [reached, iff_false, none]
    omega

variable
  {z : Float}
  (finiteMore : z.isFinite = true)
  (positiveMore : 0 < z)
  (atMost : y <= z)

include finiteMore positiveMore atMost

/-- Larger factors have no smaller products. -/
theorem mul_le_mul_of_le : x * y <= x * z := by
  obtain ⟨unsigned, bits⟩ := unsigned_mul finite positive finiteBy positiveBy
  obtain ⟨unsignedMore, bitsMore⟩ := unsigned_mul finite positive finiteMore positiveMore
  rw [(unsigned_of_pos finiteBy positiveBy).le_iff (unsigned_of_pos finiteMore positiveMore)]
    at atMost
  rw [unsigned.le_iff unsignedMore, bits, bitsMore]
  exact nearestBits_mono_left (Nat.mul_pos unitsInOne_pos unitsInOne_pos).ne'
    (Nat.mul_le_mul_left _ (units_le_of_magnitudeBits_le atMost))

/-- Larger numerators have no smaller quotients. -/
theorem div_le_div_of_le : y / x <= z / x := by
  obtain ⟨unsigned, bits⟩ := unsigned_div finiteBy positiveBy finite positive
  obtain ⟨unsignedMore, bitsMore⟩ := unsigned_div finiteMore positiveMore finite positive
  rw [(unsigned_of_pos finiteBy positiveBy).le_iff (unsigned_of_pos finiteMore positiveMore)]
    at atMost
  rw [unsigned.le_iff unsignedMore, bits, bitsMore]
  exact nearestBits_mono_left (units_pos finite positive).ne'
    (units_le_of_magnitudeBits_le atMost)

end

/-! ## Multiples of zero -/

/-- NaN or a zero. -/
def isVoid : UnpackedFloat -> Bool
  | .notANumber | .zero _ => true
  | .infinity _ | .finite .. => false

theorem isVoid_unpack_pack {number : UnpackedFloat} (void : isVoid number = true) :
    isVoid (UnpackedFloat.unpack Format.binary64
      (UnpackedFloat.pack Format.binary64 number)) = true := by
  cases number with
  | notANumber => decide
  | zero sign => cases sign <;> decide
  | infinity | finite => cases void

theorem isVoid_mul {left right : UnpackedFloat} (void : isVoid right = true) :
    isVoid (UnpackedFloat.mul Format.binary64 left right) = true := by
  cases right with
  | notANumber | zero => cases left <;> rfl
  | infinity | finite => cases void

theorem isVoid_div
    {left : UnpackedFloat}
    {sign : Sign}
    {mantissa : Nat}
    {exponent : Int}
    (void : isVoid left = true)
    (positive : 0 < mantissa) :
    isVoid (UnpackedFloat.div Format.binary64 left (.finite sign mantissa exponent positive)) =
      true := by
  cases left with
  | notANumber | zero => rfl
  | infinity | finite => cases void

theorem not_pos_of_isVoid (void : isVoid x.toModel.unpack = true) : ¬ 0 < x := by
  change ¬ decide ((0 : Float).toModel < x.toModel) = true
  rw [decide_eq_true_iff]
  change ¬ ((0 : Float).toModel.unpack.compare x.toModel.unpack == some .lt) = true
  cases unpacked : x.toModel.unpack with
  | notANumber => decide
  | zero sign => cases sign <;> decide
  | infinity | finite =>
      rw [unpacked] at void
      cases void

/-- A number that is neither below zero nor above it is zero. -/
theorem isVoid_of_not_pos
    (finite : x.isFinite = true)
    (nonnegative : 0 <= x)
    (notPositive : ¬ 0 < x) :
    isVoid x.toModel.unpack = true := by
  change x.toModel.unpack.isFinite = true at finite
  change decide ((0 : Float).toModel <= x.toModel) = true at nonnegative
  change ¬ decide ((0 : Float).toModel < x.toModel) = true at notPositive
  rw [decide_eq_true_iff] at nonnegative notPositive
  change ((0 : Float).toModel.unpack.compare x.toModel.unpack).any (·.isLE) = true
    at nonnegative
  change ¬ ((0 : Float).toModel.unpack.compare x.toModel.unpack == some .lt) = true
    at notPositive
  cases unpacked : x.toModel.unpack with
  | notANumber | zero => rfl
  | infinity =>
      rw [unpacked] at finite
      cases finite
  | finite sign =>
      rw [unpacked] at nonnegative notPositive
      cases sign with
      | positive => exact absurd rfl notPositive
      | negative => cases nonnegative

/-- A share of zero is not positive, whatever it is a share of. -/
theorem not_pos_mul_div_of_isVoid
    {z : Float}
    (void : isVoid y.toModel.unpack = true)
    (finite : z.isFinite = true)
    (positive : 0 < z) :
    ¬ 0 < x * y / z := by
  obtain ⟨nonzero, unpacked⟩ := unpack_eq_finite finite positive
  have product : isVoid (x * y).toModel.unpack = true := isVoid_unpack_pack (isVoid_mul void)
  have quotient : isVoid (UnpackedFloat.div Format.binary64 (x * y).toModel.unpack
      z.toModel.unpack) = true := by
    rw [unpacked]
    exact isVoid_div product nonzero
  exact not_pos_of_isVoid (isVoid_unpack_pack quotient)

end Binary64
end StrategyGraph
