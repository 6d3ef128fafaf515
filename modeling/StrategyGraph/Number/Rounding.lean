import StrategyGraph.Number.Decimal

/-!
# Rounding of written numbers

A numeral is a number as it is written. It becomes a double in one of two ways.
`Rounding.nearest` rounds once, to the double closest to the number.
`Rounding.stepwise` computes in doubles and rounds at every step: the digits that
fit a machine word are taken as a whole number, which is then multiplied or
divided by a power of ten. That is quick, and exact for short numbers, but with
many digits or a large power the result may be a neighbour of the closest double.
-/

namespace StrategyGraph

/-- A number as it is written: digits before and after the point, and the power
of ten that follows. -/
structure Numeral where
  negative : Bool
  whole : List Char
  fraction : List Char
  power : Int

/-- How the double for a numeral is found. -/
inductive Rounding where
  /-- Round once, to the closest double. -/
  | nearest
  /-- Compute in doubles. -/
  | stepwise
  deriving DecidableEq, Repr

namespace Numeral

/-- The decimal that a numeral denotes. -/
def decimal (numeral : Numeral) : Decimal :=
  .ofParts numeral.negative numeral.whole numeral.fraction numeral.power

/-- Append digits to a number as long as it fits a machine word. The digits from
the first that does not are left. -/
def appendFitting (start : Nat) : List Char -> Nat × List Char
  | [] => (start, [])
  | digit :: digits =>
      let next := 10 * start + digitValue digit
      if next <= Binary64.largestCount then appendFitting next digits
      else (start, digit :: digits)

/-- The largest power of ten that is below the largest double. -/
def largestPower : Nat := 308

/-- The double closest to a power of ten. -/
def powerOfTen (power : Nat) : Float :=
  Binary64.ofNat (Nat.pow 10 power)

/-- A whole number times a power of ten in doubles. Division by a power that is no
double takes two steps. -/
def scale (significand : Nat) (exponent : Int) : Float :=
  let start := Binary64.ofNat significand
  let power := exponent.natAbs
  if significand = 0 then start
  else if 0 <= exponent then
    if power <= largestPower then start * powerOfTen power
    else Binary64.ofMagnitude false Binary64.infinityBits
  else if power <= largestPower then start / powerOfTen power
  else if power <= 2 * largestPower then
    start / powerOfTen largestPower / powerOfTen (power - largestPower)
  else 0

/-- The double for a numeral, computed in doubles. Digits before the point that
do not fit the significand count as zeros, those after it are dropped. -/
def toFloatStepwise (numeral : Numeral) : Float :=
  let (whole, skipped) := appendFitting 0 numeral.whole
  let (significand, dropped) := appendFitting whole numeral.fraction
  let places := numeral.fraction.length - dropped.length
  let magnitude :=
    scale significand
      (numeral.power + Int.ofNat skipped.length - Int.ofNat places)
  if numeral.negative then -magnitude else magnitude

/-- The double for a numeral. -/
def toFloat (numeral : Numeral) : Rounding -> Float
  | .nearest => numeral.decimal.toFloat
  | .stepwise => numeral.toFloatStepwise

end Numeral
end StrategyGraph
