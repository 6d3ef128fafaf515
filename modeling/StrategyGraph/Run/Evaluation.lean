import StrategyGraph.Market.SeriesSet

/-!
# Evaluation of predicates

At a bar, an expression reads its series the given number of bars back. A value
before the first bar, after the last or equal to NaN is unavailable, and a
comparison with an unavailable value does not hold.
-/

namespace StrategyGraph

variable [Quantity Value]

namespace Relation

/-- Whether two quantities stand in the relation. -/
def holds (relation : Relation) (left right : Value) : Bool :=
  match relation with
  | .greater => Quantity.less right left
  | .less => Quantity.less left right
  | .equal => Quantity.equal left right
  | .atLeast => Quantity.atMost right left
  | .atMost => Quantity.atMost left right

end Relation

namespace SeriesSet

/-- The value of a key some bars before a bar. -/
def valueBack? (set : SeriesSet Value) (key : String) (bar offset : Nat) :
    Option Value :=
  if offset <= bar then set.value? key (bar - offset) else none

end SeriesSet

namespace Expression

/-- What an expression reads at a bar, missing numbers included. -/
def rawValue? (expression : Expression) (set : SeriesSet Value) (bar : Nat) :
    Option Value :=
  match expression with
  | .price column offset => set.valueBack? column.key bar offset
  | .indicator series offset => set.valueBack? series.key bar offset
  | .literal constant => some (Quantity.ofFloat constant)

/-- The value of an expression at a bar, if it is available. -/
def value? (expression : Expression) (set : SeriesSet Value) (bar : Nat) :
    Option Value :=
  (expression.rawValue? set bar).filter fun value => !Quantity.isNaN value

end Expression

namespace Predicate

/-- Whether a comparison holds at a bar. -/
def compareHolds
    (left : Expression)
    (relation : Relation)
    (right : Expression)
    (set : SeriesSet Value)
    (bar : Nat) : Bool :=
  match left.value? set bar, right.value? set bar with
  | some left, some right => relation.holds left right
  | _, _ => false

mutual

/-- Whether a predicate holds at a bar. -/
def holds (set : SeriesSet Value) (bar : Nat) : Predicate -> Bool
  | .always => true
  | .compare left relation right => compareHolds left relation right set bar
  | .all parts => allHold set bar parts
  | .any parts => anyHolds set bar parts
  | .negation inner => !inner.holds set bar

/-- Whether all of several predicates hold at a bar. -/
def allHold (set : SeriesSet Value) (bar : Nat) : List Predicate -> Bool
  | [] => true
  | part :: parts => part.holds set bar && allHold set bar parts

/-- Whether one of several predicates holds at a bar. -/
def anyHolds (set : SeriesSet Value) (bar : Nat) : List Predicate -> Bool
  | [] => false
  | part :: parts => part.holds set bar || anyHolds set bar parts

end

end Predicate
end StrategyGraph
