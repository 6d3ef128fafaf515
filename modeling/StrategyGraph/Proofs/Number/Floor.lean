import StrategyGraph.Proofs.Number.Whole

/-!
# Rounding down

Rounding a double without a sign down leaves the whole part of the number it is. A quotient of
doubles is rounded before it is rounded down, so its whole part is that of the ratio unless the
first rounding has reached the next whole number.
-/

namespace StrategyGraph
namespace Binary64

variable {x y : Float}

/-! ## Whole parts -/

/-- Doubles without a sign are multiples of the smallest one. -/
theorem exact_of_noSign (noSign : isNegative x = false) :
    exact x = (units x : ℚ) / unitsInOne := by
  have position : exponent x = (exponentOffset x : Int) - places := rfl
  rw [exact, noSign, if_neg Bool.false_ne_true, one_mul, position, zpow_sub₀ two_ne_zero,
    zpow_natCast, zpow_natCast, units, unitsInOne, ← mul_div_assoc]
  push_cast
  rfl

theorem Unsigned.exact_le
    (unsigned : Unsigned x)
    (unsignedBy : Unsigned y)
    (atMost : magnitudeBits x <= magnitudeBits y) :
    exact x <= exact y := by
  rw [exact_of_noSign unsigned.noSign, exact_of_noSign unsignedBy.noSign]
  exact div_le_div_of_nonneg_right (Nat.cast_le.2 (units_le_of_magnitudeBits_le atMost))
    (Nat.cast_nonneg unitsInOne)

/-- Doubles without a sign are ordered like the numbers they are. -/
theorem Unsigned.exact_le_exact_iff (unsigned : Unsigned x) (unsignedBy : Unsigned y) :
    exact x <= exact y ↔ x <= y := by
  rw [unsigned.le_iff unsignedBy]
  refine ⟨fun atMost => ?_, unsigned.exact_le unsignedBy⟩
  by_contra! less
  have positive : (0 : ℚ) < unitsInOne := Nat.cast_pos.2 unitsInOne_pos
  rw [exact_of_noSign unsigned.noSign, exact_of_noSign unsignedBy.noSign,
    div_le_div_iff_of_pos_right positive, Nat.cast_le] at atMost
  have gap := units_gap less
  have some : units x ≠ 0 := by
    refine Nat.mul_ne_zero (fun none => ?_) (Nat.two_pow_pos _).ne'
    rw [magnitudeBits_of_significand_eq_zero none] at less
    exact Nat.not_lt_zero _ less
  omega

/-- So many ones are so much. -/
theorem exact_of_units
    {count : Nat}
    (noSign : isNegative x = false)
    (ones : units x = count * unitsInOne) :
    exact x = count := by
  have some : (unitsInOne : ℚ) ≠ 0 := Nat.cast_ne_zero.2 unitsInOne_pos.ne'
  rw [exact_of_noSign noSign, ones, Nat.cast_mul, mul_div_assoc, div_self some, mul_one]

/-- The integer part of a double is how often one goes into it. -/
theorem integerPart_eq (x : Float) : integerPart x = units x / unitsInOne := by
  have position : exponent x = (exponentOffset x : Int) - places := rfl
  rw [integerPart, units, unitsInOne]
  split
  next up =>
    have offset : exponentOffset x = (exponent x).natAbs + places := by omega
    rw [offset, Nat.pow_add, ← Nat.mul_assoc, Nat.mul_div_cancel _ (Nat.two_pow_pos _), Nat.pow_eq]
  next down =>
    have offset : places = (exponent x).natAbs + exponentOffset x := by omega
    rw [offset, Nat.pow_add, Nat.mul_div_mul_right _ _ (Nat.two_pow_pos _), Nat.pow_eq]

theorem floor_exact (noSign : isNegative x = false) : ⌊exact x⌋ = integerPart x := by
  rw [exact_of_noSign noSign, integerPart_eq]
  exact Rat.floor_natCast_div_natCast _ _

/-! ## Counts -/

/-- A count that is a significand at an offset is kept. -/
theorem units_ofNat_of_eq
    {count digits offset : Nat}
    (filled : 2 ^ 52 <= digits)
    (below : digits < 2 ^ 53)
    (near : offset < 2045)
    (equal : count * unitsInOne = digits * 2 ^ offset) :
    units (ofNat count) = count * unitsInOne := by
  have inRange : offset * 2 ^ 52 + digits < infinityBits := by
    rw [infinityBits, Nat.pow_eq]
    omega
  have bits : magnitudeBits (ofNat count) = offset * 2 ^ 52 + digits :=
    (magnitudeBits_ofMagnitude (nearestBits_le count 1)).trans
      (nearestBits_of_eq Nat.one_ne_zero below (Or.inr filled) inRange
        (equal.trans (Nat.one_mul _).symm))
  obtain ⟨parted, same⟩ := parts_of_magnitudeBits filled below bits
  rw [units, parted, same, equal]

/-- Counts of up to fifty-three bits are kept. -/
theorem units_ofNat {count : Nat} (small : count <= 2 ^ 53) :
    units (ofNat count) = count * unitsInOne := by
  rcases Nat.eq_zero_or_pos count with rfl | positive
  · decide +kernel
  rcases Nat.lt_or_eq_of_le small with below | rfl
  · have short : Nat.log2 count <= 52 := by
      have bounded := (Nat.log2_lt positive.ne').2 below
      omega
    have leading : 2 ^ Nat.log2 count <= count := Nat.log2_self_le positive.ne'
    have ending : count < 2 ^ (Nat.log2 count + 1) := Nat.lt_log2_self
    -- The count is moved up until its first bit is that of a significand.
    refine @units_ofNat_of_eq count (count * 2 ^ (52 - Nat.log2 count)) (1022 + Nat.log2 count)
      ?_ ?_ (by omega) ?_
    · calc 2 ^ 52 = 2 ^ Nat.log2 count * 2 ^ (52 - Nat.log2 count) := by
            rw [← Nat.pow_add, Nat.add_sub_cancel' short]
        _ <= count * 2 ^ (52 - Nat.log2 count) := Nat.mul_le_mul_right _ leading
    · calc count * 2 ^ (52 - Nat.log2 count)
          < 2 ^ (Nat.log2 count + 1) * 2 ^ (52 - Nat.log2 count) :=
            Nat.mul_lt_mul_of_pos_right ending (Nat.two_pow_pos _)
        _ = 2 ^ 53 := by rw [← Nat.pow_add]; congr 1; omega
    · rw [unitsInOne, places, Nat.mul_assoc, ← Nat.pow_add]
      congr 2
      omega
  · refine @units_ofNat_of_eq (2 ^ 53) (2 ^ 52) 1075 ?_ ?_ ?_ ?_ <;> decide +kernel

theorem exact_ofNat {count : Nat} (small : count <= 2 ^ 53) : exact (ofNat count) = count :=
  exact_of_units (unsigned_ofNat count).noSign (units_ofNat small)

/-! ## Rounding down -/

/-- Rounding down leaves the whole part. -/
theorem exact_floor (finite : x.isFinite = true) (noSign : isNegative x = false) :
    exact (floor x) = ⌊exact x⌋ := by
  rw [floor_exact noSign, Int.cast_natCast, floor, finite]
  split
  next whole => exact exact_of_units noSign (units_of_isWhole whole)
  next fractional =>
    have fraction : ¬ 0 <= exponent x := fun nonnegative =>
      fractional (by simp [isWhole, finite, nonnegative])
    have small : integerPart x <= 2 ^ 53 := by
      rw [integerPart, if_neg fraction]
      exact (Nat.div_le_self _ _).trans (significand_lt x).le
    rw [noSign, if_neg Bool.false_ne_true]
    exact exact_ofNat small

/-! ## Quotients -/

/-- Ratios of doubles are ratios of counts. -/
theorem exact_div_exact
    (noSign : isNegative x = false)
    (noSignBy : isNegative y = false) :
    exact x / exact y = (units x : ℚ) / units y := by
  have some : (unitsInOne : ℚ) ≠ 0 := Nat.cast_ne_zero.2 unitsInOne_pos.ne'
  rw [exact_of_noSign noSign, exact_of_noSign noSignBy, div_div_div_cancel_right₀ some]

section

variable
  (finite : x.isFinite = true)
  (positive : 0 < x)
  (finiteBy : y.isFinite = true)
  (positiveBy : 0 < y)

include finite positive finiteBy positiveBy

theorem floor_ratio : ⌊exact x / exact y⌋ = (units x / units y : Nat) := by
  rw [exact_div_exact (unsigned_of_pos finite positive).noSign
    (unsigned_of_pos finiteBy positiveBy).noSign]
  exact Rat.floor_natCast_div_natCast _ _

/-- Rounding keeps a quotient between the whole numbers around the ratio. -/
theorem magnitudeBits_div_between :
    magnitudeBits (ofNat (units x / units y)) <= magnitudeBits (x / y) ∧
      magnitudeBits (x / y) <= magnitudeBits (ofNat (units x / units y + 1)) := by
  obtain ⟨_, bits⟩ := unsigned_div finite positive finiteBy positiveBy
  have some := units_pos finiteBy positiveBy
  have counted : ∀ count, magnitudeBits (ofNat count) = nearestBits count 1 := fun count =>
    magnitudeBits_ofMagnitude (nearestBits_le count 1)
  rw [bits, counted, counted]
  constructor
  · refine nearestBits_mono Nat.one_ne_zero some.ne' ?_
    rw [Nat.mul_one]
    exact Nat.div_mul_le_self _ _
  · refine nearestBits_mono some.ne' Nat.one_ne_zero ?_
    rw [Nat.mul_one, Nat.mul_comm]
    exact (Nat.lt_mul_div_succ _ some).le

/-- The whole part of a quotient is that of the ratio, or the quotient has been rounded to the
next whole number. -/
theorem exact_floor_div (few : exact x / exact y < 2 ^ 53) :
    exact (floor (x / y)) = ⌊exact x / exact y⌋ ∨
      exact (floor (x / y)) = ⌊exact x / exact y⌋ + 1 ∧
        exact (x / y) = ⌊exact x / exact y⌋ + 1 := by
  obtain ⟨unsigned, _⟩ := unsigned_div finite positive finiteBy positiveBy
  obtain ⟨low, high⟩ := magnitudeBits_div_between finite positive finiteBy positiveBy
  have whole := floor_ratio finite positive finiteBy positiveBy
  have small : units x / units y < 2 ^ 53 := by
    have below : ⌊exact x / exact y⌋ < (2 ^ 53 : Nat) := by
      rw [Int.floor_lt]
      exact_mod_cast few
    rw [whole] at below
    exact_mod_cast below
  rw [whole, Int.cast_natCast]
  generalize units x / units y = count at low high small
  have least := (unsigned_ofNat count).exact_le unsigned low
  have most := unsigned.exact_le (unsigned_ofNat (count + 1)) high
  rw [exact_ofNat small.le] at least
  rw [exact_ofNat small] at most
  have isFinite : (x / y).isFinite = true := by
    have fits : count + 1 <= largestCount :=
      (Nat.succ_le_of_lt small).trans (by decide)
    exact unsigned.isFinite_iff_lt.2 (high.trans_lt (magnitudeBits_lt (isFinite_ofNat fits)))
  rw [exact_floor isFinite unsigned.noSign]
  rcases most.lt_or_eq with less | reached
  · refine Or.inl ?_
    have floored : ⌊exact (x / y)⌋ = (count : Int) := by
      rw [Int.floor_eq_iff]
      exact ⟨by exact_mod_cast least, by exact_mod_cast less⟩
    rw [floored, Int.cast_natCast]
  · refine Or.inr ⟨?_, by exact_mod_cast reached⟩
    rw [reached, Int.floor_natCast]
    push_cast
    rfl

end

end Binary64

namespace Backtest

open Binary64

/-- Whole shares are the whole part of a number of shares, or one if it is none. -/
theorem exact_wholeShares
    {shares : Float}
    (finite : shares.isFinite = true)
    (positive : 0 < shares) :
    exact (wholeShares shares) = max 1 ⌊exact shares⌋ := by
  have unsigned := unsigned_of_pos finite positive
  rw [wholeShares, Int.cast_max, Int.cast_one, ← exact_floor finite unsigned.noSign]
  split
  next several =>
    rw [← not_le_iff_lt unsigned.floor.isNumber unsigned_one.isNumber,
      unsigned.floor.le_iff unsigned_one, not_le] at several
    have above := unsigned_one.exact_le unsigned.floor several.le
    rw [exact_one] at above
    exact (max_eq_right above).symm
  next single =>
    rw [← not_le_iff_lt unsigned.floor.isNumber unsigned_one.isNumber, not_not,
      unsigned.floor.le_iff unsigned_one] at single
    have below := unsigned.floor.exact_le unsigned_one single
    rw [exact_one] at below
    rw [max_eq_left below, exact_one]

end Backtest
end StrategyGraph
