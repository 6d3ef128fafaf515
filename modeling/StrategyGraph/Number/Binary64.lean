/-!
# Doubles as exact numbers

A finite double is a sign and a magnitude `significand * 2 ^ exponent`. Its
bit pattern without the sign is `(exponent + 1074) * 2 ^ 52 + significand`,
for subnormal and normal magnitudes alike, since the leading bit of a normal
significand carries into the exponent field.

`nearest` is the reverse direction: the double closest to a ratio of natural
numbers, with ties going to the even significand and overflow to infinity.
Everything is exact natural-number arithmetic on bit patterns.
-/

namespace StrategyGraph
namespace Binary64

/-- Bit pattern of positive infinity. -/
def infinityBits : Nat := 2047 * Nat.pow 2 52

/-- Bit pattern of the magnitude of a double. -/
def magnitudeBits (x : Float) : Nat :=
  x.toBits.toNat % Nat.pow 2 63

/-- A double is negative when its sign bit is set, negative zero included. -/
def isNegative (x : Float) : Bool :=
  Nat.pow 2 63 <= x.toBits.toNat

/-- Position of the exponent above the smallest one, `-1074`. -/
def exponentOffset (x : Float) : Nat :=
  magnitudeBits x / Nat.pow 2 52 - 1

/-- Integer significand: the magnitude is `significand * 2 ^ exponent`. -/
def significand (x : Float) : Nat :=
  magnitudeBits x - exponentOffset x * Nat.pow 2 52

/-- Binary exponent of the integer significand. -/
def exponent (x : Float) : Int :=
  Int.ofNat (exponentOffset x) - 1074

/-- The double with a given sign and magnitude pattern. -/
def ofMagnitude (negative : Bool) (bits : Nat) : Float :=
  Float.ofBits (UInt64.ofNat (if negative then Nat.pow 2 63 + bits else bits))

/-- Divide and round to the nearest integer, ties to even. -/
def roundedQuotient (numerator denominator : Nat) : Nat :=
  let quotient := numerator / denominator
  let remainder := numerator % denominator
  if 2 * remainder < denominator then quotient
  else if denominator < 2 * remainder then quotient + 1
  else if quotient % 2 = 0 then quotient
  else quotient + 1

/-- `numerator / denominator / 2 ^ (offset - 1074)` as a pair with a natural
numerator and a positive denominator. -/
def scaledRatio (numerator denominator offset : Nat) : Nat × Nat :=
  if offset <= 1074 then
    (numerator * Nat.pow 2 (1074 - offset), denominator)
  else
    (numerator, denominator * Nat.pow 2 (offset - 1074))

/-- Exponent offset at which the ratio has a significand of 53 bits or fewer. -/
def offsetOfRatio (numerator denominator : Nat) : Nat :=
  let guess := Nat.log2 numerator + 1074 - Nat.log2 denominator - 52
  let (scaledNumerator, scaledDenominator) :=
    scaledRatio numerator denominator guess
  if scaledNumerator < scaledDenominator * Nat.pow 2 52 then guess - 1 else guess

/-- Magnitude pattern of the double nearest to a ratio. -/
def nearestBits (numerator denominator : Nat) : Nat :=
  if numerator = 0 then 0
  else
    let offset := offsetOfRatio numerator denominator
    let (scaledNumerator, scaledDenominator) :=
      scaledRatio numerator denominator offset
    min infinityBits
      (offset * Nat.pow 2 52 + roundedQuotient scaledNumerator scaledDenominator)

/-- The double nearest to a ratio of natural numbers. -/
def nearest (negative : Bool) (numerator denominator : Nat) : Float :=
  ofMagnitude negative (nearestBits numerator denominator)

/-- The double nearest to a natural number. -/
def ofNat (n : Nat) : Float :=
  nearest false n 1

/-- The double nearest to an integer. -/
def ofInt (n : Int) : Float :=
  nearest (n < 0) n.natAbs 1

/-- A finite double without fractional part. -/
def isWhole (x : Float) : Bool :=
  x.isFinite &&
    (0 <= exponent x || significand x % Nat.pow 2 (exponent x).natAbs == 0)

/-- Integer part of the magnitude of a finite double. -/
def integerPart (x : Float) : Nat :=
  if 0 <= exponent x then
    significand x * Nat.pow 2 (exponent x).natAbs
  else
    significand x / Nat.pow 2 (exponent x).natAbs

/-- Largest whole double that is not above `x`; special values and signed
zeros stay as they are. -/
def floor (x : Float) : Float :=
  if !x.isFinite || isWhole x then x
  else if isNegative x then
    nearest true (integerPart x + 1) 1
  else
    nearest false (integerPart x) 1

/-- Largest count a 64-bit machine word holds. -/
def largestCount : Nat := Nat.pow 2 64 - 1

/-- A double as a machine count: truncated, negative values and NaN to zero,
too large values to the largest count. -/
def toCount (x : Float) : Nat :=
  if x.isNaN || isNegative x then 0
  else if x.isFinite then min (integerPart x) largestCount
  else largestCount

end Binary64
end StrategyGraph
