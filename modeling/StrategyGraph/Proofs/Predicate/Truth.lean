import StrategyGraph.Run.Evaluation

/-!
# Truth of built predicates

The constructors of conjunctions and disjunctions drop operands and collapse
groups. Whatever they leave out, the predicate they build holds exactly when
the conjunction or disjunction of all operands does; a group of none holds.
-/

namespace StrategyGraph
namespace Predicate

/-- A group reads what its operands read. -/
theorem expressionsOf_eq_flatMap (parts : List Predicate) :
    expressionsOf parts = parts.flatMap expressions := by
  induction parts with
  | nil => rfl
  | cons part parts hypothesis => rw [expressionsOf, hypothesis, List.flatMap_cons]

theorem mem_expressionsOf_iff {parts : List Predicate} {expression : Expression} :
    expression ∈ expressionsOf parts ↔ ∃ part ∈ parts, expression ∈ part.expressions := by
  rw [expressionsOf_eq_flatMap, List.mem_flatMap]

variable [Quantity Value]

@[simp] theorem allHold_eq_all
    (set : SeriesSet Value)
    (bar : Nat)
    (parts : List Predicate) :
    allHold set bar parts = parts.all (holds set bar) := by
  induction parts with
  | nil => rfl
  | cons part parts hypothesis => rw [allHold, hypothesis, List.all_cons]

@[simp] theorem anyHolds_eq_any
    (set : SeriesSet Value)
    (bar : Nat)
    (parts : List Predicate) :
    anyHolds set bar parts = parts.any (holds set bar) := by
  induction parts with
  | nil => rfl
  | cons part parts hypothesis => rw [anyHolds, hypothesis, List.any_cons]

/-- A predicate without constraint holds everywhere. -/
theorem holds_of_isAlways
    {set : SeriesSet Value}
    {bar : Nat}
    {part : Predicate}
    (always : part.isAlways = true) :
    part.holds set bar = true := by
  cases part with
  | always => rfl
  | compare left relation right => cases always
  | all parts => cases always
  | any parts => cases always
  | negation inner => cases always

/-- Operands without constraint do not matter to a conjunction. -/
theorem all_holds_filter
    (set : SeriesSet Value)
    (bar : Nat)
    (parts : List Predicate) :
    (parts.filter fun part => !part.isAlways).all (holds set bar) =
      parts.all (holds set bar) := by
  induction parts with
  | nil => rfl
  | cons part parts hypothesis =>
      cases always : part.isAlways with
      | false => simp [always, hypothesis]
      | true => simp [always, hypothesis, holds_of_isAlways always]

/-- A built conjunction holds when all operands do. -/
@[simp] theorem holds_conjunction
    (set : SeriesSet Value)
    (bar : Nat)
    (parts : List Predicate) :
    (conjunction parts).holds set bar = parts.all (holds set bar) := by
  rw [← all_holds_filter set bar parts]
  unfold conjunction
  split
  next none => rw [none]; rfl
  next only single => simp [single]
  next several => rw [holds, allHold_eq_all]

/-- A built disjunction holds when an operand does or when there is none. -/
@[simp] theorem holds_disjunction
    (set : SeriesSet Value)
    (bar : Nat)
    (parts : List Predicate) :
    (disjunction parts).holds set bar =
      (parts.isEmpty || parts.any (holds set bar)) := by
  unfold disjunction
  split
  next unconstrained =>
    rw [holds]
    rcases Bool.or_eq_true_iff.1 unconstrained with empty | always
    · rw [empty, Bool.true_or]
    · obtain ⟨part, member, partAlways⟩ := List.any_eq_true.1 always
      have some : parts.any (holds set bar) = true :=
        List.any_eq_true.2 ⟨part, member, holds_of_isAlways partAlways⟩
      rw [some, Bool.or_true]
  next constrained =>
    have nonempty : parts.isEmpty = false := by
      cases empty : parts.isEmpty with
      | false => rfl
      | true => simp [empty] at constrained
    rw [nonempty, Bool.false_or]
    split
    next only => simp
    next several => rw [holds, anyHolds_eq_any]

end Predicate
end StrategyGraph
