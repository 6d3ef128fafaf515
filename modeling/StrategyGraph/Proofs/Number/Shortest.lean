import StrategyGraph.Proofs.Number.Nearest
import StrategyGraph.Proofs.Number.Sign

/-!
# Shortest decimals read back

The shortest decimal of a finite double is a decimal whose nearest double is that double.
On every grid but the last one, a candidate is checked to read back before it is taken.
On the last one the number itself lies, so nothing is rounded there.
-/

namespace StrategyGraph
namespace Binary64

open Float.Model (UnpackedFloat Format)
open Float.Model.UnpackedFloat (Sign)

/-! ## Patterns of finite doubles -/

theorem toBitVec_ofBitVec (bit : BitVec 1) : (Sign.ofBitVec bit).toBitVec = bit := by
  revert bit
  decide

/-- A pattern consists of its sign, its exponent and its mantissa. -/
theorem packComponents_unpack (bits : BitVec Format.binary64.numBits) :
    UnpackedFloat.packComponents Format.binary64
      (.ofBitVec (UnpackedFloat.unpackSign bits)) (UnpackedFloat.unpackExponent bits)
      (UnpackedFloat.unpackMantissa bits) = bits := by
  refine BitVec.eq_of_getLsbD_eq fun position inside => ?_
  rw [UnpackedFloat.packComponents, toBitVec_ofBitVec]
  change position < 64 at inside
  simp only [UnpackedFloat.unpackSign, UnpackedFloat.unpackExponent, UnpackedFloat.unpackMantissa,
    BitVec.getLsbD_append]
  grind

/-- A mantissa with its implicit bit has fifty-three bits. -/
theorem log2_implicit (mantissa : BitVec 52) : ((1#1 ++ mantissa).toNat).log2 = 52 := by
  have bound := mantissa.isLt
  rw [toNat_implicit, Nat.log2_eq_iff (by omega)]
  omega

/-- Finite patterns are packed the way they were unpacked. -/
theorem pack_unpack
    (bits : BitVec Format.binary64.numBits)
    (finite : exponentField bits.toNat ≠ 2047) :
    UnpackedFloat.pack Format.binary64 (UnpackedFloat.unpack Format.binary64 bits) = bits := by
  have whole := packComponents_unpack bits
  have ordinary : UnpackedFloat.unpackExponent bits ≠ -1#_ := fun special =>
    finite ((unpackExponent_eq_iff bits (by decide)).1 special)
  have field := toNat_unpackExponent bits
  have bound : exponentField bits.toNat < 2048 := Nat.mod_lt _ (by decide)
  rw [UnpackedFloat.unpack, if_neg ordinary]
  split
  next noExponent =>
    rw [noExponent] at whole
    split
    next noMantissa =>
      rw [noMantissa] at whole
      exact whole
    next mantissa =>
      have short : ¬ (UnpackedFloat.unpackMantissa bits).toNat.log2 + 1 =
          Format.binary64.mantissaBits := by
        have different : (UnpackedFloat.unpackMantissa bits).toNat ≠ 0 := fun none =>
          mantissa (BitVec.eq_of_toNat_eq none)
        have below := (Nat.log2_lt different).2 (UnpackedFloat.unpackMantissa bits).isLt
        change _ < 52 at below
        change ¬ _ = 53
        omega
      rw [UnpackedFloat.pack]
      dsimp only
      rw [if_neg (by rw [noExponent]; decide), if_neg short, BitVec.ofNat_toNat,
        BitVec.setWidth_eq]
      exact whole
  next exponent =>
    have biased : (((UnpackedFloat.unpackExponent bits).toNat : Int) -
        ((Format.binary64.exponentBias : Nat) +
          (Format.binary64.mantissaBitsWithoutImplicit : Nat)) +
        (Format.binary64.exponentBias : Nat) +
        (Format.binary64.mantissaBitsWithoutImplicit : Nat)).toNat =
          (UnpackedFloat.unpackExponent bits).toNat := by
      omega
    have small : ¬ 2 ^ Format.binary64.exponentBits <=
        (UnpackedFloat.unpackExponent bits).toNat + 1 := by
      change ¬ 2048 <= _
      omega
    have long : (1#1 ++ UnpackedFloat.unpackMantissa bits).toNat.log2 + 1 =
        Format.binary64.mantissaBits := by
      rw [log2_implicit]
      rfl
    have dropped : BitVec.ofNat Format.binary64.mantissaBitsWithoutImplicit
        (1#1 ++ UnpackedFloat.unpackMantissa bits).toNat = UnpackedFloat.unpackMantissa bits := by
      rw [BitVec.ofNat_toNat]
      exact BitVec.setWidth_append_eq_right
    rw [UnpackedFloat.pack]
    dsimp only
    rw [biased, if_neg small, if_pos long, dropped, BitVec.ofNat_toNat, BitVec.setWidth_eq]
    exact whole

/-- A finite double is the one of its sign and its magnitude. -/
theorem ofMagnitude_magnitudeBits {x : Float} (finite : x.isFinite = true) :
    ofMagnitude (isNegative x) (magnitudeBits x) = x := by
  have bound := x.toBits.toNat_lt
  have whole : UInt64.ofNat (if isNegative x then Nat.pow 2 63 + magnitudeBits x
      else magnitudeBits x) = x.toBits := by
    refine UInt64.toNat_inj.1 ?_
    rw [UInt64.toNat_ofNat', isNegative, magnitudeBits]
    simp only [Nat.pow_eq, decide_eq_true_eq]
    split <;> omega
  have packed := pack_unpack (pattern x) (isFinite_iff.1 finite)
  rw [ofMagnitude, whole]
  obtain ⟨⟨bits, valid⟩⟩ := x
  refine congrArg Float.ofModel ?_
  change Float.Model.mk
    ⟨UnpackedFloat.pack Format.binary64 (UnpackedFloat.unpack Format.binary64 bits.toBitVec)⟩ _ = _
  congr 1
  exact congrArg UInt64.ofBitVec packed

/-! ## Significands -/

theorem magnitudeBits_split (x : Float) :
    magnitudeBits x = exponentOffset x * 2 ^ 52 + significand x := by
  rw [significand, exponentOffset]
  simp only [Nat.pow_eq]
  omega

/-- Significands have fifty-three bits, or fewer at the smallest exponent. -/
theorem significand_filled (x : Float) : exponentOffset x = 0 ∨ 2 ^ 52 <= significand x := by
  rw [significand, exponentOffset]
  simp only [Nat.pow_eq]
  omega

theorem magnitudeBits_lt {x : Float} (finite : x.isFinite = true) :
    magnitudeBits x < infinityBits := by
  have ordinary := isFinite_iff.1 finite
  have mantissa : mantissaField x.toBits.toNat < Nat.pow 2 52 := Nat.mod_lt _ (by decide)
  have field : exponentField x.toBits.toNat < 2048 := Nat.mod_lt _ (by decide)
  rw [magnitudeBits_eq, infinityBits]
  simp only [Nat.pow_eq] at mantissa ⊢
  omega

end Binary64

namespace Shortest

open Binary64

/-! ## The last grid -/

theorem scaledMagnitude_of_nonpos
    (x : Float)
    {power : Int}
    (fraction : power <= 0) :
    scaledMagnitude x power =
      (significand x * 2 ^ (exponent x).toNat * 10 ^ power.natAbs, 2 ^ (-exponent x).toNat) := by
  have tens : (if 0 <= power then 1 else Nat.pow 10 power.natAbs) = 10 ^ power.natAbs := by
    split
    next whole =>
      have none : power.natAbs = 0 := by omega
      rw [none, Nat.pow_zero]
    next => rfl
  have one : (if 0 <= power then Nat.pow 10 power.natAbs else 1) = 1 := by
    split
    next whole =>
      have none : power.natAbs = 0 := by omega
      rw [none]
    next => rfl
  rw [scaledMagnitude, tens, one, Nat.mul_one]
  split
  next whole =>
    have up : (exponent x).natAbs = (exponent x).toNat := by omega
    have down : (-exponent x).toNat = 0 := by omega
    rw [up, down]
    rfl
  next small =>
    have up : (exponent x).toNat = 0 := by omega
    have down : (exponent x).natAbs = (-exponent x).toNat := by omega
    rw [up, down]
    rfl

/-- On a grid as fine as the binary exponent lies the exact value, whose count of units
reads back. -/
theorem readsBack_exact
    {x : Float}
    {power : Int}
    (finite : x.isFinite = true)
    (fine : power <= exactPower x) :
    readsBack x power ((scaledMagnitude x power).1 / (scaledMagnitude x power).2) = true := by
  rw [exactPower] at fine
  have isFraction : power <= 0 := by omega
  rw [readsBack, beq_iff_eq, Decimal.nearestBits_eq, magnitudeBits_split,
    scaledMagnitude_of_nonpos x isFraction]
  generalize counted : significand x * 2 ^ (exponent x).toNat * 10 ^ power.natAbs /
    2 ^ (-exponent x).toNat = count
  have whole : count * 2 ^ (-exponent x).toNat =
      significand x * 2 ^ (exponent x).toNat * 10 ^ power.natAbs := by
    have divides : 2 ^ (-exponent x).toNat ∣ 10 ^ power.natAbs :=
      (pow_dvd_pow_of_dvd (by decide : 2 ∣ 10) _).trans (pow_dvd_pow 10 (by omega))
    rw [← counted]
    exact Nat.div_mul_cancel (Dvd.dvd.mul_left divides _)
  have ratio : (Decimal.mk false count power).ratio = (count, 10 ^ power.natAbs) := by
    rw [Decimal.ratio]
    split
    next whole =>
      have none : power.natAbs = 0 := by
        dsimp only at whole
        omega
      simp [none]
    next => rfl
  rw [ratio]
  refine nearestBits_of_eq (Nat.pow_pos (by decide)).ne' (significand_lt x) (significand_filled x)
    (magnitudeBits_split x ▸ magnitudeBits_lt finite) ?_
  have position : exponent x = exponentOffset x - places := rfl
  have down : (-exponent x).toNat + (places - (-exponent x).toNat) = places := by omega
  have up : (exponent x).toNat + (places - (-exponent x).toNat) = exponentOffset x := by omega
  calc count * unitsInOne
      = count * 2 ^ (-exponent x).toNat * 2 ^ (places - (-exponent x).toNat) := by
        rw [Nat.mul_assoc, ← Nat.pow_add, down, unitsInOne]
    _ = 10 ^ power.natAbs *
          (significand x * (2 ^ (exponent x).toNat * 2 ^ (places - (-exponent x).toNat))) := by
        rw [whole]
        ring
    _ = 10 ^ power.natAbs * (significand x * 2 ^ exponentOffset x) := by
        rw [← Nat.pow_add, up]

/-! ## The search -/

/-- What is chosen on a grid reads back. -/
theorem readsBack_of_onGrid?
    {tie : Tie}
    {x : Float}
    {power : Int}
    {digits : Nat}
    (found : onGrid? tie x power = some digits) :
    readsBack x power digits = true := by
  rw [onGrid?] at found
  dsimp only at found
  split at found
  next both =>
    rw [Bool.and_eq_true, Bool.and_eq_true] at both
    obtain ⟨lower, _, upper⟩ := both
    cases found
    unfold chooseCandidate
    split
    next => exact lower
    next =>
      split
      next => exact upper
      next =>
        cases tie with
        | up => exact upper
        | even =>
            dsimp only
            split
            next => exact lower
            next => exact upper
  next =>
    split at found
    next lower =>
      cases found
      exact lower
    next =>
      split at found
      next upper =>
        cases found
        exact (Bool.and_eq_true _ _ ▸ upper).2
      next => cases found

theorem readsBack_searchGrids
    {tie : Tie}
    {x : Float}
    (finite : x.isFinite = true)
    (negative : Bool)
    {steps : Nat}
    {power : Int}
    (reached : power - steps <= exactPower x) :
    let decimal := searchGrids negative (scaledMagnitude x) (onGrid? tie x) steps power
    readsBack x decimal.exponent decimal.digits = true := by
  induction steps generalizing power with
  | zero =>
      rw [Int.natCast_zero, Int.sub_zero] at reached
      exact readsBack_exact finite reached
  | succ steps hypothesis =>
      rw [searchGrids]
      split
      next found => exact readsBack_of_onGrid? found
      next => exact hypothesis (by omega)

/-- The double nearest to the shortest decimal of a finite double is that double. -/
theorem toFloat_ofFloat (tie : Tie) {x : Float} (finite : x.isFinite = true) :
    (ofFloat tie x).toFloat = x := by
  have magnitude : (ofFloat tie x).nearestBits = magnitudeBits x := by
    rw [ofFloat]
    split
    next none =>
      rw [magnitudeBits_of_significand_eq_zero none]
      rfl
    next =>
      dsimp only
      rw [search_eq_searchGrids]
      refine beq_iff_eq.1 (readsBack_searchGrids finite _ ?_)
      omega
  rw [Decimal.toFloat, negative_ofFloat, magnitude, ofMagnitude_magnitudeBits finite]

end Shortest
end StrategyGraph
