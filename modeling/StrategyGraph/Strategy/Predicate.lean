import StrategyGraph.Graph.Node
import StrategyGraph.Strategy.Expression

/-!
# Predicates

A predicate says at every bar whether a rule may fire. Conjunctions and
disjunctions are built by constructors that drop operands without effect and
never reorder the others: `conjunction` leaves out operands that always hold,
`disjunction` always holds if one of its operands does, and a group of one is
that one. A group of none imposes no constraint.
-/

namespace StrategyGraph

/-- A comparison of two numbers at one bar. -/
inductive Relation where
  | greater
  | less
  | equal
  | atLeast
  | atMost
  deriving DecidableEq, Repr

/-- A condition on the bars of a run. -/
inductive Predicate where
  /-- Imposes no constraint. -/
  | always
  | compare (left : Expression) (relation : Relation) (right : Expression)
  | all (parts : List Predicate)
  | any (parts : List Predicate)
  | negation (inner : Predicate)
  deriving Inhabited

namespace Relation

/-- Every relation. -/
def each : List Relation := [.greater, .less, .equal, .atLeast, .atMost]

/-- Sign of a relation, in files and in rendered conditions. -/
def symbol : Relation -> String
  | .greater => ">"
  | .less => "<"
  | .equal => "=="
  | .atLeast => ">="
  | .atMost => "<="

/-- The relation of a sign. -/
def ofSymbol? (symbol : String) : Option Relation :=
  each.find? fun relation => relation.symbol == symbol

/-- The relation a condition compares with, unless it looks for a crossing. -/
def ofComparison? : Comparison -> Option Relation
  | .greater => some .greater
  | .less => some .less
  | .equal => some .equal
  | .atLeast => some .atLeast
  | .atMost => some .atMost
  | .crossesAbove | .crossesBelow => none

end Relation

namespace Predicate

/-- Whether a predicate is the one without constraint. -/
def isAlways : Predicate -> Bool
  | .always => true
  | _ => false

/-- All of the parts hold. -/
def conjunction (parts : List Predicate) : Predicate :=
  match parts.filter (fun part => !part.isAlways) with
  | [] => .always
  | [only] => only
  | several => .all several

/-- Some part holds; without parts, or with one that always holds, there is no
constraint. -/
def disjunction (parts : List Predicate) : Predicate :=
  if parts.isEmpty || parts.any isAlways then .always
  else
    match parts with
    | [only] => only
    | several => .any several

mutual

/-- Expressions in the order of evaluation. -/
def expressions : Predicate -> List Expression
  | .always => []
  | .compare left _ right => [left, right]
  | .all parts => expressionsOf parts
  | .any parts => expressionsOf parts
  | .negation inner => inner.expressions

/-- Expressions of several predicates. -/
def expressionsOf : List Predicate -> List Expression
  | [] => []
  | part :: parts => part.expressions ++ expressionsOf parts

end

/-- Keys of the series a predicate reads, in the order of evaluation. -/
def seriesKeys (predicate : Predicate) : List String :=
  predicate.expressions.filterMap Expression.seriesKey?

/-- Largest number of bars back that is read, if a series is read at all. -/
def maxOffset? (predicate : Predicate) : Option Nat :=
  (predicate.expressions.filterMap Expression.offset?).max?

mutual

/-- Rendered form. Groups stand in parentheses, and so does a negated
comparison. -/
def text : Predicate -> String
  | .always => "true"
  | .compare left relation right =>
      left.text ++ " " ++ relation.symbol ++ " " ++ right.text
  | .all parts => "(" ++ String.intercalate " and " (texts parts) ++ ")"
  | .any parts => "(" ++ String.intercalate " or " (texts parts) ++ ")"
  | .negation (.compare left relation right) =>
      "not (" ++ left.text ++ " " ++ relation.symbol ++ " " ++ right.text ++ ")"
  | .negation inner => "not " ++ inner.text

/-- Rendered forms of several predicates. -/
def texts : List Predicate -> List String
  | [] => []
  | part :: parts => part.text :: texts parts

end

end Predicate
end StrategyGraph
