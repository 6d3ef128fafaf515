import StrategyGraph.Number.Text
import StrategyGraph.Proofs.Number.Exact
import StrategyGraph.Proofs.Number.Finite

/-!
# Signs of doubles

A positive double has no sign bit and is a positive number, and so has every count.
A shortest decimal has the sign of the double it is for.
-/

namespace StrategyGraph
namespace Binary64

open Float.Model (UnpackedFloat Format)
open Float.Model.UnpackedFloat (Sign)

/-! ## The numbers that doubles are -/

theorem exact_zero : exact 0 = 0 := by
  have none : significand 0 = 0 := by decide
  simp [exact, none]

theorem exact_one : exact 1 = 1 := by
  have unsigned : isNegative 1 = false := by decide
  have digits : significand 1 = 2 ^ 52 := by decide
  have power : exponent 1 = -52 := by decide
  rw [exact, unsigned, digits, power]
  norm_num

theorem exact_hundred : exact 100 = 100 := by
  have unsigned : isNegative 100 = false := by decide
  have digits : significand 100 = 100 * 2 ^ 46 := by decide
  have power : exponent 100 = -46 := by decide
  rw [exact, unsigned, digits, power]
  norm_num

/-- Positive doubles are positive numbers. -/
theorem zero_lt_exact_iff {x : Float} (finite : x.isFinite = true) :
    0 < exact x ↔ 0 < x := by
  have scale : (0 : ℚ) < 2 ^ exponent x := zpow_pos (by norm_num) _
  rw [zero_lt_iff finite, exact, mul_pos_iff_of_pos_right scale, ← Nat.pos_iff_ne_zero]
  cases isNegative x with
  | false => simp
  | true =>
      refine iff_of_false (not_lt.2 ?_) (by simp)
      simp

/-! ## Numbers without a sign -/

/-- A number, possibly an infinite one, without a sign. -/
structure Unsigned (x : Float) : Prop where
  isNumber : x.isNaN = false
  noSign : isNegative x = false

theorem unsigned_of_pos {x : Float} (finite : x.isFinite = true) (positive : 0 < x) :
    Unsigned x :=
  ⟨isNaN_of_isFinite finite, ((zero_lt_iff finite).1 positive).1⟩

/-- Unpacking and packing keep a pattern without a sign. -/
theorem unpackSign_pack_unpack
    {bits : BitVec Format.binary64.numBits}
    (noSign : UnpackedFloat.unpackSign bits = 0#1) :
    UnpackedFloat.unpackSign
      (UnpackedFloat.pack Format.binary64 (UnpackedFloat.unpack Format.binary64 bits)) =
        0#1 := by
  have positive : Sign.ofBitVec (UnpackedFloat.unpackSign bits) = .positive := by
    rw [noSign]
    rfl
  rw [UnpackedFloat.unpack]
  dsimp only
  rw [positive]
  split
  next =>
    split
    next => exact unpackSign_packComponents _ _ _ _
    next => exact unpackSign_packComponents _ _ _ _
  next =>
    split
    next =>
      split
      next => exact unpackSign_packComponents _ _ _ _
      next => exact unpackSign_pack_finite _
    next => exact unpackSign_pack_finite _

/-- Magnitudes are numbers without a sign. -/
theorem unsigned_ofMagnitude {bits : Nat} (bounded : bits <= infinityBits) :
    Unsigned (ofMagnitude false bits) := by
  constructor
  · rcases Nat.lt_or_eq_of_le bounded with below | rfl
    · exact isNaN_of_isFinite (isFinite_ofMagnitude below)
    · decide
  · rw [← unpackSign_eq_zero_iff]
    change UnpackedFloat.unpackSign (UnpackedFloat.pack Format.binary64
      (UnpackedFloat.unpack Format.binary64 (magnitudePattern bits))) = 0#1
    refine unpackSign_pack_unpack ?_
    rw [← BitVec.toNat_inj, toNat_unpackSign, toNat_magnitudePattern bounded]
    change bits / Nat.pow 2 63 % 2 = 0
    simp only [infinityBits, Nat.pow_eq] at bounded ⊢
    omega

theorem nearestBits_le (numerator denominator : Nat) :
    nearestBits numerator denominator <= infinityBits := by
  by_cases zero : numerator = 0
  · rw [nearestBits, if_pos zero]
    exact Nat.zero_le infinityBits
  · rw [nearestBits, if_neg zero]
    extract_lets offset
    split
    exact Nat.min_le_left infinityBits _

/-- Counts have no sign. -/
theorem unsigned_ofNat (count : Nat) : Unsigned (ofNat count) :=
  unsigned_ofMagnitude (nearestBits_le count 1)

end Binary64

namespace Exact

theorem ofFloat_zero : (Quantity.ofFloat 0 : Exact) = .number 0 := by
  have finite : (0 : Float).isFinite = true := by decide
  rw [ofFloat_of_isFinite finite, Binary64.exact_zero]

theorem ofFloat_one : (Quantity.ofFloat 1 : Exact) = .number 1 := by
  have finite : (1 : Float).isFinite = true := by decide
  rw [ofFloat_of_isFinite finite, Binary64.exact_one]

theorem ofFloat_hundred : (Quantity.ofFloat 100 : Exact) = .number 100 := by
  have finite : (100 : Float).isFinite = true := by decide
  rw [ofFloat_of_isFinite finite, Binary64.exact_hundred]

end Exact

namespace Shortest

/-- The search over grids for any sign, magnitudes and candidates. -/
def searchGrids
    (negative : Bool)
    (magnitude : Int -> Nat × Nat)
    (candidate? : Int -> Option Nat) : Nat -> Int -> Decimal
  | 0, power =>
      let (numerator, denominator) := magnitude power
      ⟨negative, numerator / denominator, power⟩
  | steps + 1, power =>
      match candidate? power with
      | some digits => ⟨negative, digits, power⟩
      | none => searchGrids negative magnitude candidate? steps (power - 1)

theorem search_eq_searchGrids (tie : Tie) (x : Float) (steps : Nat) (power : Int) :
    search tie x steps power =
      searchGrids (Binary64.isNegative x) (scaledMagnitude x) (onGrid? tie x) steps power := by
  delta search searchGrids
  rfl

theorem negative_searchGrids
    (negative : Bool)
    (magnitude : Int -> Nat × Nat)
    (candidate? : Int -> Option Nat)
    (steps : Nat)
    (power : Int) :
    (searchGrids negative magnitude candidate? steps power).negative = negative := by
  induction steps generalizing power with
  | zero => rfl
  | succ steps hypothesis =>
      rw [searchGrids]
      split
      next => rfl
      next => exact hypothesis (power - 1)

/-- A shortest decimal has the sign of its double. -/
theorem negative_ofFloat (tie : Tie) (x : Float) :
    (ofFloat tie x).negative = Binary64.isNegative x := by
  have searched := negative_searchGrids (Binary64.isNegative x) (scaledMagnitude x) (onGrid? tie x)
  rw [ofFloat]
  split
  next => exact congrArg Decimal.negative (Eq.refl (Decimal.mk (Binary64.isNegative x) 0 0))
  next =>
    dsimp only
    rw [search_eq_searchGrids]
    exact searched _ _

end Shortest
end StrategyGraph
