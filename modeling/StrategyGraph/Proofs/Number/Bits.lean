import StrategyGraph.Number.Binary64
import StrategyGraph.Proofs.Number.Order

/-!
# Bits of doubles

The bit pattern of a double has a sign, eleven bits of an exponent and fifty-two bits
of a mantissa. Signs and magnitudes that are computed from the pattern agree with
those that comparisons and quotients go by.
-/

namespace StrategyGraph
namespace Binary64

open Float.Model (UnpackedFloat Format)
open Float.Model.UnpackedFloat (Sign)

/-- Bit pattern of a double. -/
def pattern (x : Float) : BitVec Format.binary64.numBits :=
  x.toBits.toBitVec

/-- Bits of the exponent of a pattern. -/
def exponentField (pattern : Nat) : Nat :=
  pattern / Nat.pow 2 52 % Nat.pow 2 11

/-- Bits of the mantissa of a pattern. -/
def mantissaField (pattern : Nat) : Nat :=
  pattern % Nat.pow 2 52

/-- A mantissa with its implicit bit. -/
theorem toNat_implicit (mantissa : BitVec 52) :
    (1#1 ++ mantissa).toNat = 2 ^ 52 + mantissa.toNat := by
  rw [BitVec.toNat_append, ← Nat.shiftLeft_add_eq_or_of_lt mantissa.isLt]
  rfl

section

variable (bits : BitVec Format.binary64.numBits)

theorem toNat_unpackMantissa :
    (UnpackedFloat.unpackMantissa bits).toNat = mantissaField bits.toNat := by
  simp [UnpackedFloat.unpackMantissa, mantissaField]

theorem toNat_unpackExponent :
    (UnpackedFloat.unpackExponent bits).toNat = exponentField bits.toNat := by
  simp [UnpackedFloat.unpackExponent, exponentField, Nat.shiftRight_eq_div_pow]

theorem toNat_unpackSign :
    (UnpackedFloat.unpackSign bits).toNat = bits.toNat / Nat.pow 2 63 % 2 := by
  simp [UnpackedFloat.unpackSign, Nat.shiftRight_eq_div_pow]

theorem unpackExponent_eq_iff {field : Nat} (small : field < 2048) :
    UnpackedFloat.unpackExponent bits = BitVec.ofNat _ field ↔
      exponentField bits.toNat = field := by
  rw [← toNat_unpackExponent, ← BitVec.toNat_inj]
  change _ = field % 2048 ↔ _
  rw [Nat.mod_eq_of_lt small]

theorem unpackMantissa_eq_zero_iff :
    UnpackedFloat.unpackMantissa bits = 0#_ ↔ mantissaField bits.toNat = 0 := by
  rw [← toNat_unpackMantissa, ← BitVec.toNat_inj]
  rfl

/-- Patterns of finite doubles are those whose exponent bits are not all set. -/
theorem isFinite_unpack_iff :
    (UnpackedFloat.unpack Format.binary64 bits).isFinite = true ↔
      exponentField bits.toNat ≠ 2047 := by
  have allSet : UnpackedFloat.unpackExponent bits = -1#_ ↔ exponentField bits.toNat = 2047 :=
    unpackExponent_eq_iff bits (by decide)
  rw [Ne, ← allSet, UnpackedFloat.unpack]
  split
  next special =>
    split
    next => exact iff_of_false Bool.false_ne_true (fun different => different special)
    next => exact iff_of_false Bool.false_ne_true (fun different => different special)
  next ordinary =>
    split
    next =>
      split
      next => exact iff_of_true rfl ordinary
      next => exact iff_of_true rfl ordinary
    next => exact iff_of_true rfl ordinary

/-- A finite pattern without bits behind its sign is a zero. -/
theorem unpack_of_zero
    (noExponent : exponentField bits.toNat = 0)
    (noMantissa : mantissaField bits.toNat = 0) :
    ∃ sign, UnpackedFloat.unpack Format.binary64 bits = .zero sign := by
  have exponent := (unpackExponent_eq_iff bits (by decide)).2 noExponent
  have mantissa := (unpackMantissa_eq_zero_iff bits).2 noMantissa
  refine ⟨.ofBitVec (UnpackedFloat.unpackSign bits), ?_⟩
  rw [UnpackedFloat.unpack, if_neg (by rw [exponent]; decide), if_pos exponent,
    dif_pos mantissa]

/-- Every other finite pattern has the sign of its first bit and an exponent in
range. -/
theorem unpack_of_nonzero
    (finite : exponentField bits.toNat ≠ 2047)
    (significant : exponentField bits.toNat ≠ 0 ∨ mantissaField bits.toNat ≠ 0) :
    ∃ mantissa exponent positive,
      UnpackedFloat.unpack Format.binary64 bits =
        .finite (.ofBitVec (UnpackedFloat.unpackSign bits)) mantissa exponent positive ∧
      exponent + 1075 < 2047 := by
  have ordinary : UnpackedFloat.unpackExponent bits ≠ -1#_ := fun special =>
    finite ((unpackExponent_eq_iff bits (by decide)).1 special)
  have bound : exponentField bits.toNat < 2048 := Nat.mod_lt _ (by decide)
  have bias : ((Format.binary64.exponentBias : Nat) : Int) = 1023 := rfl
  have width : ((Format.binary64.mantissaBitsWithoutImplicit : Nat) : Int) = 52 := rfl
  have field := toNat_unpackExponent bits
  by_cases exponent : UnpackedFloat.unpackExponent bits = 0#_
  · have mantissa : UnpackedFloat.unpackMantissa bits ≠ 0#_ := by
      intro noMantissa
      rcases significant with nonzero | nonzero
      · exact nonzero ((unpackExponent_eq_iff bits (by decide)).1 exponent)
      · exact nonzero ((unpackMantissa_eq_zero_iff bits).1 noMantissa)
    rw [UnpackedFloat.unpack, if_neg ordinary, if_pos exponent, dif_neg mantissa]
    refine ⟨_, _, _, rfl, ?_⟩
    rw [field, bias, width]
    have noBits := (unpackExponent_eq_iff bits (by decide)).1 exponent
    omega
  · rw [UnpackedFloat.unpack, if_neg ordinary, if_neg exponent]
    refine ⟨_, _, _, rfl, ?_⟩
    rw [field, bias, width]
    omega

end

/-! ## Positive doubles -/

theorem isFinite_iff {x : Float} :
    x.isFinite = true ↔ exponentField x.toBits.toNat ≠ 2047 :=
  isFinite_unpack_iff (pattern x)

theorem magnitudeBits_eq (x : Float) :
    magnitudeBits x =
      exponentField x.toBits.toNat * Nat.pow 2 52 + mantissaField x.toBits.toNat := by
  rw [magnitudeBits, exponentField, mantissaField]
  simp only [Nat.pow_eq]
  omega

/-- A double without significand has no bits behind its sign. -/
theorem significand_eq_zero_iff {x : Float} :
    significand x = 0 ↔
      exponentField x.toBits.toNat = 0 ∧ mantissaField x.toBits.toNat = 0 := by
  have mantissa : mantissaField x.toBits.toNat < Nat.pow 2 52 := Nat.mod_lt _ (by decide)
  rw [significand, exponentOffset, magnitudeBits_eq]
  simp only [Nat.pow_eq] at mantissa ⊢
  omega

theorem magnitudeBits_of_significand_eq_zero {x : Float} (none : significand x = 0) :
    magnitudeBits x = 0 := by
  obtain ⟨noExponent, noMantissa⟩ := significand_eq_zero_iff.1 none
  rw [magnitudeBits_eq, noExponent, noMantissa, Nat.zero_mul]

/-- The sign that is unpacked is the first bit. -/
theorem unpackSign_eq_zero_iff {x : Float} :
    UnpackedFloat.unpackSign (pattern x) = 0#1 ↔ isNegative x = false := by
  have bound := x.toBits.toNat_lt
  rw [← BitVec.toNat_inj, toNat_unpackSign, isNegative, decide_eq_false_iff_not]
  change x.toBits.toNat / Nat.pow 2 63 % 2 = 0 ↔ _
  simp only [Nat.pow_eq] at bound ⊢
  omega

/-- The finite doubles above zero are those with a significand and without a sign. -/
theorem zero_lt_iff {x : Float} (finite : x.isFinite = true) :
    0 < x ↔ isNegative x = false ∧ significand x ≠ 0 := by
  have ordinary := isFinite_iff.1 finite
  have zeroUnpacked : (0 : Float).toModel.unpack = .zero .positive := by
    rfl
  change decide ((0 : Float).toModel < x.toModel) = true ↔ _
  rw [decide_eq_true_iff]
  change ((0 : Float).toModel.unpack.compare (UnpackedFloat.unpack _ (pattern x)) ==
    some .lt) = true ↔ _
  rw [zeroUnpacked, Ne, significand_eq_zero_iff, ← unpackSign_eq_zero_iff]
  by_cases zero : exponentField x.toBits.toNat = 0 ∧ mantissaField x.toBits.toNat = 0
  · obtain ⟨sign, isZero⟩ := unpack_of_zero (pattern x) zero.1 zero.2
    rw [isZero]
    simp [UnpackedFloat.compare, zero]
  · obtain ⟨mantissa, exponent, positive, isFinite, _⟩ :=
      unpack_of_nonzero (pattern x) ordinary (Classical.not_and_iff_not_or_not.1 zero)
    rw [isFinite, Sign.ofBitVec]
    split
    next none => simp [UnpackedFloat.compare, zero, none]
    next sign => simp [UnpackedFloat.compare, sign]

end Binary64
end StrategyGraph
