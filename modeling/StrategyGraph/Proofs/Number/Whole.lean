import StrategyGraph.Proofs.Number.Magnitude

/-!
# Whole doubles

A whole double is its integer part, so a positive one is at least one. Counts become whole
doubles: below two to the fifty-third they are exact, and rounding larger ones leaves no
fraction either.
-/

namespace StrategyGraph
namespace Binary64

variable {x : Float}

/-- A whole double is as many ones as its integer part. -/
theorem units_of_isWhole (whole : isWhole x = true) :
    units x = integerPart x * unitsInOne := by
  rw [isWhole, Bool.and_eq_true] at whole
  obtain ⟨_, noFraction⟩ := whole
  have position : exponent x = exponentOffset x - places := rfl
  rw [units, integerPart, unitsInOne]
  split
  next up =>
    have offset : (exponent x).natAbs + places = exponentOffset x := by omega
    rw [Nat.mul_assoc, Nat.pow_eq, ← Nat.pow_add, offset]
  next down =>
    have offset : (exponent x).natAbs + exponentOffset x = places := by omega
    have divides : 2 ^ (exponent x).natAbs ∣ significand x := by
      simpa [down, Nat.dvd_iff_mod_eq_zero] using noFraction
    rw [← offset, Nat.pow_add, ← Nat.mul_assoc, Nat.pow_eq, Nat.div_mul_cancel divides]

/-- The magnitude of a whole double is its integer part. -/
theorem magnitudeBits_of_isWhole (whole : isWhole x = true) :
    magnitudeBits x = nearestBits (integerPart x) 1 := by
  have finite : x.isFinite = true := (Bool.and_eq_true _ _ ▸ whole).1
  rw [magnitudeBits_split]
  refine (nearestBits_of_eq Nat.one_ne_zero (significand_lt x) (significand_filled x)
    (magnitudeBits_split x ▸ magnitudeBits_lt finite) ?_).symm
  rw [Nat.one_mul]
  exact (units_of_isWhole whole).symm

/-- Positive whole doubles are at least one. -/
theorem one_le_of_isWhole (whole : isWhole x = true) (positive : 0 < x) : 1 <= x := by
  have finite : x.isFinite = true := (Bool.and_eq_true _ _ ▸ whole).1
  have unsigned := unsigned_of_pos finite positive
  have bits := unsigned.pos_iff.1 positive
  rw [unsigned.one_le_iff, magnitudeBits_of_isWhole whole, ← nearestBits_one]
  rw [magnitudeBits_of_isWhole whole] at bits
  refine nearestBits_mono_left Nat.one_ne_zero (Nat.one_le_iff_ne_zero.2 fun none => ?_)
  rw [none] at bits
  exact absurd bits (by decide)

/-- Doubles from two to the fifty-second on are whole. -/
theorem isWhole_of_le_exponentOffset
    (finite : x.isFinite = true)
    (large : places <= exponentOffset x) :
    isWhole x = true := by
  have nonnegative : 0 <= exponent x := Int.sub_nonneg_of_le (Int.ofNat_le.2 large)
  rw [isWhole, finite, decide_eq_true nonnegative]
  rfl

/-- A filled significand can be told from the pattern of its double. -/
theorem parts_of_magnitudeBits
    {offset digits : Nat}
    (filled : 2 ^ 52 <= digits)
    (below : digits < 2 ^ 53)
    (bits : magnitudeBits x = offset * 2 ^ 52 + digits) :
    exponentOffset x = offset ∧ significand x = digits := by
  have parted : exponentOffset x = offset := by
    rw [exponentOffset, bits]
    simp only [Nat.pow_eq]
    omega
  have split := magnitudeBits_split x
  rw [bits, parted] at split
  exact ⟨parted, (Nat.add_left_cancel split).symm⟩

/-- Doubles with as many zero bits at the end of their significand as there are binary
places are whole. -/
theorem isWhole_of_dvd
    {offset digits : Nat}
    (finite : x.isFinite = true)
    (filled : 2 ^ 52 <= digits)
    (below : digits < 2 ^ 53)
    (bits : magnitudeBits x = offset * 2 ^ 52 + digits)
    (divides : 2 ^ (places - offset) ∣ digits) :
    isWhole x = true := by
  obtain ⟨parted, same⟩ := parts_of_magnitudeBits filled below bits
  rcases Nat.le_total places offset with large | small
  · exact isWhole_of_le_exponentOffset finite (parted ▸ large)
  · have position : (exponent x).natAbs = places - offset := by
      change ((exponentOffset x : Int) - places).natAbs = places - offset
      omega
    rw [isWhole, finite, Bool.true_and, Bool.or_eq_true, same, position]
    exact Or.inr (beq_iff_eq.2 (Nat.mod_eq_zero_of_dvd divides))

/-- Counts become whole doubles. -/
theorem isWhole_ofNat {count : Nat} (fits : count <= largestCount) :
    isWhole (ofNat count) = true := by
  rcases Nat.eq_zero_or_pos count with rfl | positive
  · decide +kernel
  have finite := isFinite_ofNat fits
  have bits : magnitudeBits (ofNat count) = nearestBits count 1 :=
    magnitudeBits_ofMagnitude (nearestBits_le count 1)
  have bounded := magnitudeBits_lt finite
  have fitsAt := fitsAt_offsetOfRatio positive.ne' Nat.one_ne_zero
  generalize offsetOfRatio count 1 = offset at fitsAt
  have later : offset ≠ 0 := by
    rintro rfl
    have large : 2 ^ 53 <= count * unitsInOne :=
      (Nat.pow_le_pow_right (by decide) (by decide)).trans (Nat.le_mul_of_pos_left _ positive)
    exact absurd fitsAt.below (by rw [Nat.one_mul]; exact not_lt.2 large)
  rcases Nat.le_total offset places with small | large
  · -- The count lies on the grid of its significand, so nothing is rounded.
    have exact : count * 2 ^ (places - offset) * 2 ^ offset = count * unitsInOne := by
      rw [Nat.mul_assoc, ← Nat.pow_add, Nat.sub_add_cancel small, unitsInOne]
    have below := fitsAt.below
    have filled := fitsAt.filled.resolve_left later
    rw [← exact, Nat.one_mul, Nat.add_comm, Nat.pow_add] at below filled
    have short := Nat.lt_of_mul_lt_mul_right below
    have long := Nat.le_of_mul_le_mul_right filled (Nat.two_pow_pos offset)
    refine isWhole_of_dvd finite long short ?_ (dvd_mul_left _ _)
    refine bits.trans (nearestBits_of_eq Nat.one_ne_zero short (Or.inr long) ?_
      (exact.symm.trans (Nat.one_mul _).symm))
    rw [places] at small short
    rw [infinityBits, Nat.pow_eq, places]
    omega
  · -- The last bit of the significand stands for at least one.
    have quotient := fitsAt.le_quotient Nat.one_ne_zero later
    have rounded := quotient.trans (le_roundedQuotient _ _)
    refine isWhole_of_le_exponentOffset finite (large.trans ?_)
    rw [nearestBits_of_fitsAt positive.ne' Nat.one_ne_zero fitsAt] at bits
    rw [exponentOffset, Nat.pow_eq]
    omega

end Binary64
end StrategyGraph
