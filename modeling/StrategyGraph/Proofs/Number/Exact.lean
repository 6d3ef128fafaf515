import Mathlib.Algebra.Order.Floor.Ring
import Mathlib.Data.Rat.Floor
import StrategyGraph.Number.Quantity

/-!
# Exact quantities

A quantity whose arithmetic does not round: a rational number, or a missing one
that every operation passes on. A finite double stands for the number it is.
-/

namespace StrategyGraph

/-- The number a finite double is. -/
def Binary64.exact (x : Float) : ℚ :=
  (if isNegative x then -1 else 1) * (significand x : ℚ) * (2 : ℚ) ^ exponent x

/-- A number, or none. -/
inductive Exact where
  | missing
  | number (value : ℚ)
  deriving DecidableEq

namespace Exact

/-- The number of a double; special values count as missing. -/
def ofFloat (x : Float) : Exact :=
  if x.isFinite then number (Binary64.exact x) else missing

/-- Apply an operation to two numbers. -/
def lift (operation : ℚ -> ℚ -> ℚ) : Exact -> Exact -> Exact
  | number left, number right => number (operation left right)
  | _, _ => missing

/-- Whether two numbers stand in a relation. -/
def relates (related : ℚ -> ℚ -> Bool) : Exact -> Exact -> Bool
  | number left, number right => related left right
  | _, _ => false

/-- Largest whole number that is not above a number. -/
def floor : Exact -> Exact
  | number value => number ⌊value⌋
  | missing => missing

/-- Whether there is no number. -/
def isMissing : Exact -> Bool
  | number _ => false
  | missing => true

instance : Quantity Exact where
  ofFloat := ofFloat
  add := lift (· + ·)
  sub := lift (· - ·)
  mul := lift (· * ·)
  div := lift (· / ·)
  floor := floor
  less := relates (· < ·)
  atMost := relates (· <= ·)
  equal := relates (· = ·)
  isNaN := isMissing
  isFinite quantity := !quantity.isMissing

section

variable (left right : ℚ)

@[simp] theorem add_number :
    Quantity.add (number left) (number right) = number (left + right) := rfl

@[simp] theorem sub_number :
    Quantity.sub (number left) (number right) = number (left - right) := rfl

@[simp] theorem mul_number :
    Quantity.mul (number left) (number right) = number (left * right) := rfl

@[simp] theorem div_number :
    Quantity.div (number left) (number right) = number (left / right) := rfl

@[simp] theorem floor_number : Quantity.floor (number left) = number ⌊left⌋ := rfl

@[simp] theorem less_number :
    Quantity.less (number left) (number right) = decide (left < right) := rfl

@[simp] theorem atMost_number :
    Quantity.atMost (number left) (number right) = decide (left <= right) := rfl

@[simp] theorem equal_number :
    Quantity.equal (number left) (number right) = decide (left = right) := rfl

@[simp] theorem isNaN_number : Quantity.isNaN (number left) = false := rfl

@[simp] theorem isNaN_missing : Quantity.isNaN missing = true := rfl

@[simp] theorem isFinite_number : Quantity.isFinite (number left) = true := rfl

/-- Only numbers are finite. -/
theorem exists_number_of_isFinite {value : Exact} (finite : Quantity.isFinite value = true) :
    ∃ quantity, value = number quantity := by
  cases value with
  | number quantity => exact ⟨quantity, rfl⟩
  | missing => exact absurd finite Bool.false_ne_true

end

@[simp] theorem ofFloat_of_isFinite {x : Float} (finite : x.isFinite = true) :
    (Quantity.ofFloat x : Exact) = number (Binary64.exact x) :=
  if_pos finite

end Exact
end StrategyGraph
