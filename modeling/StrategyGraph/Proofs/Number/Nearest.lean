import Mathlib.Tactic.Linarith
import Mathlib.Tactic.NormNum
import Mathlib.Tactic.Ring
import StrategyGraph.Number.Decimal

/-!
# The nearest double

The double nearest to a ratio depends on the ratio alone, not on the numerator and the
denominator it is given by, and a ratio that is a double is rounded to that double. Both
follow from what an exponent offset has to satisfy, which only one offset does. Decimals
that are too large or too small for any double are rounded like all others.
-/

namespace StrategyGraph
namespace Binary64

/-! ## Quotients -/

/-- Rounded quotients depend on the ratio alone. -/
theorem roundedQuotient_mul
    {numerator denominator factor : Nat}
    (positive : 0 < factor) :
    roundedQuotient (numerator * factor) (denominator * factor) =
      roundedQuotient numerator denominator := by
  have below : 2 * (numerator % denominator * factor) < denominator * factor ↔
      2 * (numerator % denominator) < denominator := by
    rw [← Nat.mul_assoc, Nat.mul_lt_mul_right positive]
  have above : denominator * factor < 2 * (numerator % denominator * factor) ↔
      denominator < 2 * (numerator % denominator) := by
    rw [← Nat.mul_assoc, Nat.mul_lt_mul_right positive]
  simp only [roundedQuotient, Nat.mul_div_mul_right _ _ positive, Nat.mul_mod_mul_right, below,
    above]

theorem roundedQuotient_mul_self
    {quotient denominator : Nat}
    (positive : 0 < denominator) :
    roundedQuotient (denominator * quotient) denominator = quotient := by
  simp [roundedQuotient, positive]

theorem le_roundedQuotient (numerator denominator : Nat) :
    numerator / denominator <= roundedQuotient numerator denominator := by
  unfold roundedQuotient
  dsimp only
  split
  next => exact le_rfl
  next =>
    split
    next => exact Nat.le_succ _
    next =>
      split
      next => exact le_rfl
      next => exact Nat.le_succ _

theorem roundedQuotient_le (numerator denominator : Nat) :
    roundedQuotient numerator denominator <= numerator / denominator + 1 := by
  unfold roundedQuotient
  dsimp only
  split
  next => exact Nat.le_succ _
  next =>
    split
    next => exact le_rfl
    next =>
      split
      next => exact Nat.le_succ _
      next => exact le_rfl

/-- Rounded quotients grow with their numerators. -/
theorem roundedQuotient_mono
    {numerator larger denominator : Nat}
    (atMost : numerator <= larger) :
    roundedQuotient numerator denominator <= roundedQuotient larger denominator := by
  have quotients : numerator / denominator <= larger / denominator := Nat.div_le_div_right atMost
  rcases Nat.lt_or_eq_of_le quotients with less | same
  · have upper := roundedQuotient_le numerator denominator
    have lower := le_roundedQuotient larger denominator
    omega
  · have remainders : numerator % denominator <= larger % denominator := by
      have split := Nat.div_add_mod numerator denominator
      have splitLarger := Nat.div_add_mod larger denominator
      rw [same] at split
      omega
    simp only [roundedQuotient, same]
    split_ifs <;> omega

theorem roundedQuotient_of_lt_half
    {numerator denominator : Nat}
    (small : 2 * numerator < denominator) :
    roundedQuotient numerator denominator = 0 := by
  have below : numerator < denominator := by omega
  simp [roundedQuotient, Nat.mod_eq_of_lt below, Nat.div_eq_of_lt below, small]

/-! ## Exponent offsets -/

/-- Binary places of the smallest double. -/
def places : Nat := 1074

/-- How many times the smallest double goes into one. -/
def unitsInOne : Nat := 2 ^ places

theorem unitsInOne_pos : 0 < unitsInOne :=
  Nat.two_pow_pos places

/-- Measured at an exponent offset, a ratio has a significand of fifty-three bits, or of
fewer at the smallest one. -/
structure FitsAt (numerator denominator offset : Nat) : Prop where
  below : numerator * unitsInOne < denominator * 2 ^ (offset + 53)
  filled : offset = 0 ∨ denominator * 2 ^ (offset + 52) <= numerator * unitsInOne

/-- Larger ratios fit at larger offsets. -/
theorem FitsAt.le
    {numerator larger denominator offset other : Nat}
    (fits : FitsAt numerator denominator offset)
    (fitsLarger : FitsAt larger denominator other)
    (atMost : numerator <= larger) :
    offset <= other := by
  by_contra before
  have filled := fits.filled.resolve_left (by omega)
  have power : 2 ^ (other + 53) <= 2 ^ (offset + 52) :=
    Nat.pow_le_pow_right (by decide) (by omega)
  have bounded := Nat.mul_le_mul_left denominator power
  have scaled := Nat.mul_le_mul_right unitsInOne atMost
  have below := fitsLarger.below
  omega

/-- A ratio fits at one offset only. -/
theorem FitsAt.unique
    {numerator denominator offset other : Nat}
    (fits : FitsAt numerator denominator offset)
    (fitsOther : FitsAt numerator denominator other) :
    offset = other :=
  Nat.le_antisymm (fits.le fitsOther le_rfl) (fitsOther.le fits le_rfl)

/-- Where a ratio fits, its whole part has at most fifty-three bits. -/
theorem FitsAt.quotient_lt
    {numerator denominator offset : Nat}
    (fits : FitsAt numerator denominator offset)
    (proper : denominator ≠ 0) :
    numerator * unitsInOne / (denominator * 2 ^ offset) < 2 ^ 53 := by
  rw [Nat.div_lt_iff_lt_mul (Nat.mul_pos (Nat.pos_of_ne_zero proper) (Nat.two_pow_pos _)),
    Nat.mul_left_comm, ← Nat.pow_add, Nat.add_comm 53]
  exact fits.below

/-- Behind the smallest offset it has no fewer. -/
theorem FitsAt.le_quotient
    {numerator denominator offset : Nat}
    (fits : FitsAt numerator denominator offset)
    (proper : denominator ≠ 0)
    (later : offset ≠ 0) :
    2 ^ 52 <= numerator * unitsInOne / (denominator * 2 ^ offset) := by
  rw [Nat.le_div_iff_mul_le (Nat.mul_pos (Nat.pos_of_ne_zero proper) (Nat.two_pow_pos _)),
    Nat.mul_left_comm, ← Nat.pow_add, Nat.add_comm 52]
  exact fits.filled.resolve_left later

/-- The pair of scaled numbers is the scaled ratio in lower terms. -/
theorem exists_scaledRatio (numerator denominator offset : Nat) :
    ∃ factor, 0 < factor ∧
      (scaledRatio numerator denominator offset).1 * factor = numerator * unitsInOne ∧
        (scaledRatio numerator denominator offset).2 * factor = denominator * 2 ^ offset := by
  rw [scaledRatio]
  split
  next small =>
    have power : 1074 - offset + offset = places := Nat.sub_add_cancel small
    refine ⟨2 ^ offset, Nat.two_pow_pos _, ?_, rfl⟩
    rw [Nat.pow_eq, Nat.mul_assoc, ← Nat.pow_add, power, unitsInOne]
  next large =>
    have power : offset - 1074 + places = offset := by
      rw [places]
      omega
    refine ⟨unitsInOne, unitsInOne_pos, rfl, ?_⟩
    rw [unitsInOne, Nat.pow_eq, Nat.mul_assoc, ← Nat.pow_add, power]

/-- The offset that is chosen fits. -/
theorem fitsAt_offsetOfRatio
    {numerator denominator : Nat}
    (significant : numerator ≠ 0)
    (proper : denominator ≠ 0) :
    FitsAt numerator denominator (offsetOfRatio numerator denominator) := by
  have atLeast : 2 ^ numerator.log2 <= numerator := Nat.log2_self_le significant
  have lessThan : numerator < 2 ^ (numerator.log2 + 1) :=
    (Nat.log2_lt significant).1 (Nat.lt_succ_self _)
  have atLeastOther : 2 ^ denominator.log2 <= denominator := Nat.log2_self_le proper
  have lessThanOther : denominator < 2 ^ (denominator.log2 + 1) :=
    (Nat.log2_lt proper).1 (Nat.lt_succ_self _)
  unfold offsetOfRatio
  extract_lets guess
  obtain ⟨factor, positive, scaledNumerator, scaledDenominator⟩ :=
    exists_scaledRatio numerator denominator guess
  -- The guess is right or one too large.
  have enough : numerator * unitsInOne < denominator * 2 ^ (guess + 53) := by
    calc numerator * unitsInOne
        < 2 ^ (numerator.log2 + 1) * unitsInOne :=
          Nat.mul_lt_mul_of_pos_right lessThan unitsInOne_pos
      _ = 2 ^ (numerator.log2 + 1 + places) := (Nat.pow_add _ _ _).symm
      _ <= 2 ^ (denominator.log2 + (guess + 53)) :=
          Nat.pow_le_pow_right (by decide) (by rw [places]; omega)
      _ = 2 ^ denominator.log2 * 2 ^ (guess + 53) := Nat.pow_add _ _ _
      _ <= denominator * 2 ^ (guess + 53) := Nat.mul_le_mul_right _ atLeastOther
  have almost : 0 < guess -> denominator * 2 ^ (guess + 51) <= numerator * unitsInOne := by
    intro some
    calc denominator * 2 ^ (guess + 51)
        <= 2 ^ (denominator.log2 + 1) * 2 ^ (guess + 51) :=
          Nat.mul_le_mul_right _ lessThanOther.le
      _ = 2 ^ (denominator.log2 + 1 + (guess + 51)) := (Nat.pow_add _ _ _).symm
      _ <= 2 ^ (numerator.log2 + places) :=
          Nat.pow_le_pow_right (by decide) (by rw [places]; omega)
      _ = 2 ^ numerator.log2 * unitsInOne := Nat.pow_add _ _ _
      _ <= numerator * unitsInOne := Nat.mul_le_mul_right _ atLeast
  have compared : (scaledRatio numerator denominator guess).1 <
      (scaledRatio numerator denominator guess).2 * Nat.pow 2 52 ↔
        numerator * unitsInOne < denominator * 2 ^ (guess + 52) := by
    rw [← Nat.mul_lt_mul_right positive, scaledNumerator, Nat.mul_right_comm, scaledDenominator,
      Nat.pow_eq, Nat.mul_assoc, ← Nat.pow_add]
  dsimp only
  split
  next short =>
    rw [compared] at short
    rcases Nat.eq_zero_or_pos guess with none | some
    · rw [none] at enough ⊢
      exact ⟨enough, Or.inl rfl⟩
    · have previous : guess - 1 + 53 = guess + 52 := by omega
      have previousFilled : guess - 1 + 52 = guess + 51 := by omega
      refine ⟨?_, Or.inr ?_⟩
      · rw [previous]
        exact short
      · rw [previousFilled]
        exact almost some
  next long =>
    rw [compared] at long
    exact ⟨enough, Or.inr (Nat.le_of_not_lt long)⟩

/-- The nearest double is the rounded significand at the offset that fits. -/
theorem nearestBits_of_fitsAt
    {numerator denominator offset : Nat}
    (significant : numerator ≠ 0)
    (proper : denominator ≠ 0)
    (fits : FitsAt numerator denominator offset) :
    nearestBits numerator denominator =
      min infinityBits (offset * 2 ^ 52 +
        roundedQuotient (numerator * unitsInOne) (denominator * 2 ^ offset)) := by
  have chosen := (fitsAt_offsetOfRatio significant proper).unique fits
  obtain ⟨factor, positive, scaledNumerator, scaledDenominator⟩ :=
    exists_scaledRatio numerator denominator offset
  rw [nearestBits, if_neg significant, chosen, ← scaledNumerator, ← scaledDenominator,
    roundedQuotient_mul positive]
  rfl

/-- The nearest double depends on the ratio alone. -/
theorem nearestBits_mul
    {numerator denominator factor : Nat}
    (proper : denominator ≠ 0)
    (positive : 0 < factor) :
    nearestBits (numerator * factor) (denominator * factor) =
      nearestBits numerator denominator := by
  by_cases significant : numerator = 0
  · simp [nearestBits, significant]
  have fits := fitsAt_offsetOfRatio significant proper
  have scaled : FitsAt (numerator * factor) (denominator * factor)
      (offsetOfRatio numerator denominator) := by
    refine ⟨?_, fits.filled.imp_right fun filled => ?_⟩
    · rw [Nat.mul_right_comm, Nat.mul_right_comm denominator]
      exact Nat.mul_lt_mul_of_pos_right fits.below positive
    · rw [Nat.mul_right_comm, Nat.mul_right_comm numerator]
      exact Nat.mul_le_mul_right _ filled
  rw [nearestBits_of_fitsAt significant proper fits,
    nearestBits_of_fitsAt (Nat.mul_ne_zero significant positive.ne')
      (Nat.mul_ne_zero proper positive.ne') scaled,
    Nat.mul_right_comm numerator, Nat.mul_right_comm denominator, roundedQuotient_mul positive]

/-- Of numbers over one denominator the larger one is rounded to no smaller double. -/
theorem nearestBits_mono_left
    {numerator larger denominator : Nat}
    (proper : denominator ≠ 0)
    (atMost : numerator <= larger) :
    nearestBits numerator denominator <= nearestBits larger denominator := by
  by_cases none : numerator = 0
  · rw [nearestBits, if_pos none]
    exact Nat.zero_le _
  have some : larger ≠ 0 := by omega
  have fits := fitsAt_offsetOfRatio none proper
  have fitsLarger := fitsAt_offsetOfRatio some proper
  rw [nearestBits_of_fitsAt none proper fits, nearestBits_of_fitsAt some proper fitsLarger]
  generalize offsetOfRatio numerator denominator = offset at fits ⊢
  generalize offsetOfRatio larger denominator = other at fitsLarger ⊢
  refine min_le_min_left infinityBits ?_
  rcases Nat.lt_or_eq_of_le (fits.le fitsLarger atMost) with before | same
  · -- A carry reaches the next offset at most.
    have upper := roundedQuotient_le (numerator * unitsInOne) (denominator * 2 ^ offset)
    have short := fits.quotient_lt proper
    have lower := le_roundedQuotient (larger * unitsInOne) (denominator * 2 ^ other)
    have long := fitsLarger.le_quotient proper (by omega)
    omega
  · rw [same]
    exact Nat.add_le_add_left
      (roundedQuotient_mono (Nat.mul_le_mul_right unitsInOne atMost)) _

/-- Larger ratios are rounded to no smaller doubles. -/
theorem nearestBits_mono
    {numerator denominator other otherDenominator : Nat}
    (proper : denominator ≠ 0)
    (otherProper : otherDenominator ≠ 0)
    (atMost : numerator * otherDenominator <= other * denominator) :
    nearestBits numerator denominator <= nearestBits other otherDenominator := by
  rw [← nearestBits_mul proper (Nat.pos_of_ne_zero otherProper),
    ← nearestBits_mul otherProper (Nat.pos_of_ne_zero proper), Nat.mul_comm otherDenominator]
  exact nearestBits_mono_left (Nat.mul_ne_zero proper otherProper) atMost

/-- A ratio that is a significand at an offset is rounded to it. -/
theorem nearestBits_of_eq
    {numerator denominator digits offset : Nat}
    (proper : denominator ≠ 0)
    (below : digits < 2 ^ 53)
    (filled : offset = 0 ∨ 2 ^ 52 <= digits)
    (finite : offset * 2 ^ 52 + digits < infinityBits)
    (equal : numerator * unitsInOne = denominator * (digits * 2 ^ offset)) :
    nearestBits numerator denominator = offset * 2 ^ 52 + digits := by
  have positive : 0 < denominator * 2 ^ offset :=
    Nat.mul_pos (Nat.pos_of_ne_zero proper) (Nat.two_pow_pos _)
  have arranged : numerator * unitsInOne = denominator * 2 ^ offset * digits := by
    rw [equal, Nat.mul_assoc, Nat.mul_comm digits]
  by_cases none : digits = 0
  · have zero : numerator = 0 := by
      rw [none, Nat.mul_zero, Nat.mul_eq_zero] at arranged
      exact arranged.resolve_right unitsInOne_pos.ne'
    have first : offset = 0 := filled.resolve_right (by omega)
    rw [nearestBits, if_pos zero, first, none, Nat.zero_mul]
  have significant : numerator ≠ 0 := by
    rintro rfl
    rw [Nat.zero_mul, eq_comm, Nat.mul_eq_zero] at arranged
    exact none (arranged.resolve_left positive.ne')
  have fits : FitsAt numerator denominator offset := by
    refine ⟨?_, filled.imp_right fun enough => ?_⟩
    · rw [arranged, Nat.pow_add, ← Nat.mul_assoc]
      exact Nat.mul_lt_mul_of_pos_left below positive
    · rw [arranged, Nat.pow_add, ← Nat.mul_assoc]
      exact Nat.mul_le_mul_left _ enough
  rw [nearestBits_of_fitsAt significant proper fits, arranged, roundedQuotient_mul_self positive,
    Nat.min_eq_right finite.le]

/-! ## Ratios beyond the doubles -/

theorem nearestBits_of_large
    {numerator denominator : Nat}
    (proper : denominator ≠ 0)
    (large : denominator * 2 ^ 1024 <= numerator) :
    nearestBits numerator denominator = infinityBits := by
  have significant : numerator ≠ 0 := by
    have positive := Nat.mul_pos (Nat.pos_of_ne_zero proper) (Nat.two_pow_pos 1024)
    omega
  have fits := fitsAt_offsetOfRatio significant proper
  rw [nearestBits_of_fitsAt significant proper fits]
  generalize offsetOfRatio numerator denominator = offset at fits
  refine Nat.min_eq_left ?_
  have late : 2045 < offset := by
    by_contra early
    have power : 2 ^ (offset + 53) <= 2 ^ 1024 * unitsInOne := by
      rw [unitsInOne, ← Nat.pow_add]
      exact Nat.pow_le_pow_right (by decide) (by rw [places]; omega)
    have smaller := Nat.mul_le_mul_left denominator power
    rw [← Nat.mul_assoc] at smaller
    have larger := Nat.mul_le_mul_right unitsInOne large
    exact absurd fits.below (not_lt.2 (smaller.trans larger))
  have leading := fits.le_quotient proper (by omega)
  have rounded := le_roundedQuotient (numerator * unitsInOne) (denominator * 2 ^ offset)
  simp only [infinityBits, Nat.pow_eq]
  omega

/-- Ratios up to half the bound of the doubles are rounded to finite ones. -/
theorem nearestBits_lt
    {numerator denominator power : Nat}
    (small : numerator < denominator * 2 ^ power)
    (bounded : power <= 1023) :
    nearestBits numerator denominator < infinityBits := by
  by_cases significant : numerator = 0
  · rw [nearestBits, if_pos significant]
    decide
  have proper : denominator ≠ 0 := by
    rintro rfl
    rw [Nat.zero_mul] at small
    exact Nat.not_lt_zero _ small
  have fits := fitsAt_offsetOfRatio significant proper
  rw [nearestBits_of_fitsAt significant proper fits]
  generalize offsetOfRatio numerator denominator = offset at fits
  refine Nat.lt_of_le_of_lt (Nat.min_le_right _ _) ?_
  have early : offset < 2045 := by
    by_contra late
    have powers : 2 ^ power * unitsInOne <= 2 ^ (offset + 52) := by
      rw [unitsInOne, ← Nat.pow_add]
      exact Nat.pow_le_pow_right (by decide) (by rw [places]; omega)
    have larger := Nat.mul_le_mul_left denominator powers
    rw [← Nat.mul_assoc] at larger
    have smaller := Nat.mul_lt_mul_of_pos_right small unitsInOne_pos
    have filled := fits.filled.resolve_left (by omega)
    exact absurd (larger.trans filled) (not_le.2 smaller)
  have short := fits.quotient_lt proper
  have rounded := roundedQuotient_le (numerator * unitsInOne) (denominator * 2 ^ offset)
  simp only [infinityBits, Nat.pow_eq]
  omega

theorem nearestBits_of_small
    {numerator denominator : Nat}
    (small : 2 * (numerator * unitsInOne) < denominator) :
    nearestBits numerator denominator = 0 := by
  by_cases significant : numerator = 0
  · rw [nearestBits, if_pos significant]
  have fits : FitsAt numerator denominator 0 := by
    refine ⟨?_, Or.inl rfl⟩
    have more : denominator * 1 <= denominator * 2 ^ (0 + 53) :=
      Nat.mul_le_mul_left _ (by decide)
    omega
  rw [nearestBits_of_fitsAt significant (by omega) fits, Nat.pow_zero, Nat.mul_one,
    roundedQuotient_of_lt_half small, Nat.zero_mul]
  exact Nat.min_eq_right (Nat.zero_le _)

end Binary64

/-! ## Decimals -/

namespace Decimal

theorem ratio_ne_zero (decimal : Decimal) : decimal.ratio.2 ≠ 0 := by
  rw [ratio]
  split
  next => exact Nat.one_ne_zero
  next => exact (Nat.pow_pos (by decide)).ne'

/-- Digits are as many as the powers of ten below the number. -/
theorem lt_pow_digitCount (number : Nat) : number < 10 ^ digitCount number :=
  (Nat.length_toDigits_le_iff (by decide) Nat.length_toDigits_pos).1 le_rfl

theorem pow_le_of_lt_digitCount
    {number count : Nat}
    (positive : 0 < count)
    (more : count < digitCount number) :
    10 ^ count <= number := by
  by_contra fewer
  have bounded := (Nat.length_toDigits_le_iff (b := 10) (by decide) positive).2 (not_le.1 fewer)
  exact absurd bounded (not_le.2 more)

/-- Compare powers step by step. -/
theorem two_pow_le_ten_pow
    {twos tens binary decimal : Nat}
    (step : 2 ^ twos <= 10 ^ tens)
    (steps : Nat)
    (enough : binary <= twos * steps)
    (fits : tens * steps <= decimal) :
    2 ^ binary <= 10 ^ decimal :=
  calc 2 ^ binary
      <= 2 ^ (twos * steps) := Nat.pow_le_pow_right (by decide) enough
    _ = (2 ^ twos) ^ steps := Nat.pow_mul _ _ _
    _ <= (10 ^ tens) ^ steps := Nat.pow_le_pow_left step steps
    _ = 10 ^ (tens * steps) := (Nat.pow_mul _ _ _).symm
    _ <= 10 ^ decimal := Nat.pow_le_pow_right (by decide) fits

theorem pow_le_ratio
    {decimal : Decimal}
    {places : Nat}
    (significant : decimal.digits ≠ 0)
    (large : places < decimal.exponent + Int.ofNat (digitCount decimal.digits)) :
    decimal.ratio.2 * 10 ^ places <= decimal.ratio.1 := by
  have leading : 10 ^ (digitCount decimal.digits - 1) <= decimal.digits := by
    rcases Nat.eq_zero_or_pos (digitCount decimal.digits - 1) with single | several
    · rw [single]
      exact Nat.pos_of_ne_zero significant
    · exact pow_le_of_lt_digitCount several (by omega)
  have positive : 0 < digitCount decimal.digits := Nat.length_toDigits_pos
  rw [Int.ofNat_eq_natCast] at large
  rw [ratio]
  split
  next =>
    calc 1 * 10 ^ places
        = 10 ^ places := Nat.one_mul _
      _ <= 10 ^ (digitCount decimal.digits - 1 + decimal.exponent.natAbs) :=
          Nat.pow_le_pow_right (by decide) (by omega)
      _ = 10 ^ (digitCount decimal.digits - 1) * 10 ^ decimal.exponent.natAbs := Nat.pow_add _ _ _
      _ <= decimal.digits * 10 ^ decimal.exponent.natAbs := Nat.mul_le_mul_right _ leading
  next =>
    calc 10 ^ decimal.exponent.natAbs * 10 ^ places
        = 10 ^ (decimal.exponent.natAbs + places) := (Nat.pow_add _ _ _).symm
      _ <= 10 ^ (digitCount decimal.digits - 1) := Nat.pow_le_pow_right (by decide) (by omega)
      _ <= decimal.digits := leading

theorem ratio_lt_pow
    {decimal : Decimal}
    {places : Nat}
    (small : decimal.exponent + Int.ofNat (digitCount decimal.digits) < -places) :
    decimal.ratio.1 * 10 ^ places < decimal.ratio.2 := by
  rw [Int.ofNat_eq_natCast] at small
  rw [ratio, if_neg (by omega)]
  calc decimal.digits * 10 ^ places
      < 10 ^ digitCount decimal.digits * 10 ^ places :=
        Nat.mul_lt_mul_of_pos_right (lt_pow_digitCount _) (Nat.pow_pos (by decide))
    _ = 10 ^ (digitCount decimal.digits + places) := (Nat.pow_add _ _ _).symm
    _ <= 10 ^ decimal.exponent.natAbs := Nat.pow_le_pow_right (by decide) (by omega)

/-- Decimals of any size are rounded to the nearest double. -/
theorem nearestBits_eq (decimal : Decimal) :
    decimal.nearestBits = Binary64.nearestBits decimal.ratio.1 decimal.ratio.2 := by
  rw [nearestBits]
  dsimp only
  split
  next none =>
    have zero : decimal.ratio.1 = 0 := by
      rw [ratio]
      split
      next => exact Nat.mul_eq_zero.2 (Or.inl none)
      next => exact none
    rw [Binary64.nearestBits, if_pos zero]
  next some =>
    split
    next large =>
      have power : 2 ^ 1024 <= 10 ^ 310 :=
        two_pow_le_ten_pow (show 2 ^ 205 <= 10 ^ 62 by norm_num) 5
          (by decide) (by decide)
      exact (Binary64.nearestBits_of_large decimal.ratio_ne_zero
        ((Nat.mul_le_mul_left _ power).trans (pow_le_ratio some large))).symm
    next =>
      split
      next small =>
        have power : 2 * Binary64.unitsInOne <= 10 ^ 330 := by
          rw [Binary64.unitsInOne, ← Nat.pow_succ']
          exact two_pow_le_ten_pow (show 2 ^ 33 <= 10 ^ 10 by norm_num) 33
            (by decide) (by decide)
        have bounded := Nat.mul_le_mul_left decimal.ratio.1 power
        rw [Nat.mul_left_comm] at bounded
        exact (Binary64.nearestBits_of_small
          (Nat.lt_of_le_of_lt bounded (ratio_lt_pow small))).symm
      next => rfl

end Decimal
end StrategyGraph
