import StrategyGraph.Number.Binary64

/-!
# Quantities

Prices, indicator values, stop levels and share counts are quantities. The
rules that compute with them are stated over any type of quantities, so that
one definition serves runs in doubles and statements about other arithmetics.
-/

namespace StrategyGraph

/-- The operations on market quantities that trading rules need. -/
class Quantity (Value : Type) where
  /-- The quantity a written number denotes. -/
  ofFloat : Float -> Value
  add : Value -> Value -> Value
  sub : Value -> Value -> Value
  mul : Value -> Value -> Value
  div : Value -> Value -> Value
  /-- Largest whole quantity that is not above the given one. -/
  floor : Value -> Value
  less : Value -> Value -> Bool
  atMost : Value -> Value -> Bool
  equal : Value -> Value -> Bool
  /-- Whether the quantity stands for a missing number. -/
  isNaN : Value -> Bool
  /-- Whether the quantity is an ordinary number. -/
  isFinite : Value -> Bool

instance : Quantity Float where
  ofFloat := id
  add := (· + ·)
  sub := (· - ·)
  mul := (· * ·)
  div := (· / ·)
  floor := Binary64.floor
  less left right := left < right
  atMost left right := left <= right
  equal := (· == ·)
  isNaN := Float.isNaN
  isFinite := Float.isFinite

end StrategyGraph
