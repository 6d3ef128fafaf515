import StrategyGraph.Number.Decimal

/-!
# Shortest decimals

The shortest decimal of a double is the one on the coarsest power-of-ten grid
that reads back to the same double. On each grid only the two neighbours of
the exact value matter: if any grid point reads back, one of them does. When
both do, the nearer one is taken, and a tie is settled by a rounding rule.

The search starts at a grid too coarse to hold the value and moves to finer
ones. It ends at the latest on the grid of the binary exponent, where the
exact value itself is a grid point.
-/

namespace StrategyGraph

/-- How a value exactly between two candidates is rounded. -/
inductive Tie where
  | up
  | even
  deriving DecidableEq, Repr

namespace Shortest

/-- Numerator and denominator of the magnitude of a finite double, measured in
units of `10 ^ power`. -/
def scaledMagnitude (x : Float) (power : Int) : Nat × Nat :=
  let exponent := Binary64.exponent x
  let numerator :=
    Binary64.significand x *
      (if 0 <= exponent then Nat.pow 2 exponent.natAbs else 1) *
      (if 0 <= power then 1 else Nat.pow 10 power.natAbs)
  let denominator :=
    (if 0 <= exponent then 1 else Nat.pow 2 exponent.natAbs) *
      (if 0 <= power then Nat.pow 10 power.natAbs else 1)
  (numerator, denominator)

/-- Whether a count of units of `10 ^ power` reads back to `x`. -/
def readsBack (x : Float) (power : Int) (digits : Nat) : Bool :=
  Decimal.nearestBits ⟨false, digits, power⟩ == Binary64.magnitudeBits x

/-- Choose between a lower candidate and its successor when both read back. -/
def chooseCandidate (tie : Tie) (lower twiceRemainder denominator : Nat) : Nat :=
  if twiceRemainder < denominator then lower
  else if denominator < twiceRemainder then lower + 1
  else
    match tie with
    | .up => lower + 1
    | .even => if lower % 2 = 0 then lower else lower + 1

/-- The best count of units of `10 ^ power` that reads back, if there is one. -/
def onGrid? (tie : Tie) (x : Float) (power : Int) : Option Nat :=
  let (numerator, denominator) := scaledMagnitude x power
  let lower := numerator / denominator
  let remainder := numerator % denominator
  let lowerReads := readsBack x power lower
  let upperReads := remainder != 0 && readsBack x power (lower + 1)
  if lowerReads && upperReads then
    some (chooseCandidate tie lower (2 * remainder) denominator)
  else if lowerReads then some lower
  else if upperReads then some (lower + 1)
  else none

/-- The first grid, from `power` downwards through at most `steps` finer ones,
that holds a decimal reading back to `x`. -/
def search (tie : Tie) (x : Float) : Nat -> Int -> Decimal
  | 0, power =>
      let (numerator, denominator) := scaledMagnitude x power
      ⟨Binary64.isNegative x, numerator / denominator, power⟩
  | steps + 1, power =>
      match onGrid? tie x power with
      | some digits => ⟨Binary64.isNegative x, digits, power⟩
      | none => search tie x steps (power - 1)

/-- A power of ten above twice the magnitude of a nonzero finite double. The
decimal logarithm of two is taken as `0.30103`. -/
def coarsePower (x : Float) : Int :=
  let bitLength := Int.ofNat (Nat.log2 (Binary64.significand x) + 1)
  (bitLength + Binary64.exponent x + 1) * 30103 / 100000 + 1

/-- Grid on which the exact value of a finite double lies. -/
def exactPower (x : Float) : Int :=
  min 0 (Binary64.exponent x)

/-- Shortest decimal of a finite double; zero has the digit zero. -/
def ofFloat (tie : Tie) (x : Float) : Decimal :=
  if Binary64.significand x = 0 then ⟨Binary64.isNegative x, 0, 0⟩
  else
    let start := coarsePower x
    search tie x (start - exactPower x).toNat start

end Shortest
end StrategyGraph
