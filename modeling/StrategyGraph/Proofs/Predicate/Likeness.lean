import StrategyGraph.Proofs.Outcome
import StrategyGraph.Proofs.Predicate.Truth

/-!
# Predicates that say the same

Two predicates are alike if they read the same expressions, hold at the same bars of all
runs and agree on whether they impose a constraint at all. Groups of alike operands are
alike, in whatever order the operands stand and however often each one does.
-/

namespace StrategyGraph

/-- Every member of either list is related to a member of the other one. -/
structure Matched
    (related : First -> Second -> Prop)
    (firsts : List First)
    (seconds : List Second) : Prop where
  left : ∀ first ∈ firsts, ∃ second ∈ seconds, related first second
  right : ∀ second ∈ seconds, ∃ first ∈ firsts, related first second

namespace Matched

variable
  {related : First -> Second -> Prop}
  {firsts : List First}
  {seconds : List Second}

/-- A list matches itself in another order. -/
theorem of_perm {items others : List Item} (reordered : items.Perm others) :
    Matched (· = ·) items others :=
  ⟨fun item member => ⟨item, reordered.mem_iff.1 member, rfl⟩,
    fun item member => ⟨item, reordered.mem_iff.2 member, rfl⟩⟩

/-- Results of two passes over matching items match if those of each item do. -/
theorem of_forall₂
    {relatedItem : Item -> Other -> Prop}
    {left : Item -> First -> Prop}
    {right : Other -> Second -> Prop}
    {items : List Item}
    {others : List Other}
    (matched : Matched relatedItem items others)
    (lefts : List.Forall₂ left items firsts)
    (rights : List.Forall₂ right others seconds)
    (relates : ∀ item other first second, relatedItem item other -> left item first ->
      right other second -> related first second) :
    Matched related firsts seconds := by
  constructor
  · intro first member
    obtain ⟨item, listed, makesFirst⟩ := Outcome.exists_item_of_forall₂ lefts member
    obtain ⟨other, inOthers, relatesItem⟩ := matched.left item listed
    obtain ⟨second, inSeconds, makesSecond⟩ :=
      Outcome.exists_item_of_forall₂ rights.flip inOthers
    exact ⟨second, inSeconds, relates item other first second relatesItem makesFirst makesSecond⟩
  · intro second member
    obtain ⟨other, listed, makesSecond⟩ := Outcome.exists_item_of_forall₂ rights member
    obtain ⟨item, inItems, relatesItem⟩ := matched.right other listed
    obtain ⟨first, inFirsts, makesFirst⟩ :=
      Outcome.exists_item_of_forall₂ lefts.flip inItems
    exact ⟨first, inFirsts, relates item other first second relatesItem makesFirst makesSecond⟩

theorem cons
    {first : First}
    {second : Second}
    (relates : related first second)
    (matched : Matched related firsts seconds) :
    Matched related (first :: firsts) (second :: seconds) := by
  constructor
  · intro member listed
    rcases List.mem_cons.1 listed with rfl | later
    · exact ⟨second, List.mem_cons_self, relates⟩
    · obtain ⟨other, inSeconds, relatesOther⟩ := matched.left member later
      exact ⟨other, List.mem_cons_of_mem second inSeconds, relatesOther⟩
  · intro member listed
    rcases List.mem_cons.1 listed with rfl | later
    · exact ⟨first, List.mem_cons_self, relates⟩
    · obtain ⟨other, inFirsts, relatesOther⟩ := matched.right member later
      exact ⟨other, List.mem_cons_of_mem first inFirsts, relatesOther⟩

theorem map
    {relatedResult : FirstResult -> SecondResult -> Prop}
    {firstStep : First -> FirstResult}
    {secondStep : Second -> SecondResult}
    (matched : Matched related firsts seconds)
    (step : ∀ first second, related first second ->
      relatedResult (firstStep first) (secondStep second)) :
    Matched relatedResult (firsts.map firstStep) (seconds.map secondStep) := by
  refine matched.of_forall₂
    (List.forall₂_map_right_iff.2 (List.forall₂_same.2 fun _ _ => rfl))
    (List.forall₂_map_right_iff.2 (List.forall₂_same.2 fun _ _ => rfl))
    fun first second _ _ relates isFirst isSecond => ?_
  rw [← isFirst, ← isSecond]
  exact step first second relates

/-- Something is true of a member of one list if it is of one of the other. -/
theorem exists_iff
    {ofFirst : First -> Prop}
    {ofSecond : Second -> Prop}
    (matched : Matched related firsts seconds)
    (agree : ∀ first second, related first second -> (ofFirst first ↔ ofSecond second)) :
    (∃ first ∈ firsts, ofFirst first) ↔ ∃ second ∈ seconds, ofSecond second := by
  constructor
  · rintro ⟨first, listed, isTrue⟩
    obtain ⟨second, inSeconds, relates⟩ := matched.left first listed
    exact ⟨second, inSeconds, (agree first second relates).1 isTrue⟩
  · rintro ⟨second, listed, isTrue⟩
    obtain ⟨first, inFirsts, relates⟩ := matched.right second listed
    exact ⟨first, inFirsts, (agree first second relates).2 isTrue⟩

theorem any_eq
    {ofFirst : First -> Bool}
    {ofSecond : Second -> Bool}
    (matched : Matched related firsts seconds)
    (agree : ∀ first second, related first second -> ofFirst first = ofSecond second) :
    firsts.any ofFirst = seconds.any ofSecond := by
  rw [Bool.eq_iff_iff, List.any_eq_true, List.any_eq_true]
  exact matched.exists_iff fun first second relates => by rw [agree first second relates]

theorem all_eq
    {ofFirst : First -> Bool}
    {ofSecond : Second -> Bool}
    (matched : Matched related firsts seconds)
    (agree : ∀ first second, related first second -> ofFirst first = ofSecond second) :
    firsts.all ofFirst = seconds.all ofSecond := by
  rw [List.all_eq_not_any_not, List.all_eq_not_any_not]
  exact congrArg (!·) (matched.any_eq fun first second relates =>
    congrArg (!·) (agree first second relates))

theorem isEmpty_eq (matched : Matched related firsts seconds) :
    firsts.isEmpty = seconds.isEmpty := by
  have none := matched.all_eq fun first second _ => (rfl : false = false)
  cases firsts <;> cases seconds <;> simp_all

/-- Something is found below a member of one list if it is below one of the other. -/
theorem mem_flatMap_iff
    {below : First -> List Item}
    {belowOther : Second -> List Item}
    (matched : Matched related firsts seconds)
    (agree : ∀ first second, related first second ->
      ∀ item, item ∈ below first ↔ item ∈ belowOther second)
    (item : Item) :
    item ∈ firsts.flatMap below ↔ item ∈ seconds.flatMap belowOther := by
  rw [List.mem_flatMap, List.mem_flatMap]
  exact matched.exists_iff fun first second relates => agree first second relates item

end Matched

namespace Predicate

/-! ## Groups -/

theorem expressions_of_isAlways {part : Predicate} (always : part.isAlways = true) :
    part.expressions = [] := by
  cases part with
  | always => rfl
  | compare left relation right => cases always
  | all parts => cases always
  | any parts => cases always
  | negation inner => cases always

/-- A conjunction imposes no constraint if none of its operands does. -/
theorem isAlways_conjunction (parts : List Predicate) :
    (conjunction parts).isAlways = parts.all isAlways := by
  have none : parts.all isAlways = (parts.filter fun part => !part.isAlways).isEmpty := by
    rw [Bool.eq_iff_iff]
    simp
  have constrains : ∀ part ∈ parts.filter fun part => !part.isAlways, part.isAlways = false :=
    fun part member => by simpa using (List.mem_filter.1 member).2
  rw [none, conjunction]
  generalize (parts.filter fun part => !part.isAlways) = kept at constrains
  match kept with
  | [] => rfl
  | [only] => exact constrains only List.mem_cons_self
  | _ :: _ :: _ => rfl

/-- A conjunction reads what its operands read. -/
theorem expressions_conjunction (parts : List Predicate) :
    (conjunction parts).expressions = parts.flatMap expressions := by
  have dropped : (parts.filter fun part => !part.isAlways).flatMap expressions =
      parts.flatMap expressions := by
    induction parts with
    | nil => rfl
    | cons part parts hypothesis =>
        cases always : part.isAlways with
        | false => simp [always, hypothesis]
        | true => simp [always, hypothesis, expressions_of_isAlways always]
  rw [← dropped, conjunction]
  generalize (parts.filter fun part => !part.isAlways) = kept
  match kept with
  | [] => rfl
  | [only] => exact (List.append_nil only.expressions).symm
  | first :: second :: others => exact expressionsOf_eq_flatMap (first :: second :: others)

/-- A disjunction imposes no constraint if one of its operands does not or if there is
no operand. -/
theorem isAlways_disjunction (parts : List Predicate) :
    (disjunction parts).isAlways = (parts.isEmpty || parts.any isAlways) := by
  unfold disjunction
  split
  next unconstrained => exact unconstrained.symm
  next constrained =>
    rw [Bool.eq_false_iff.2 constrained]
    match parts, constrained with
    | [], constrained => exact absurd rfl constrained
    | [only], constrained => simpa using constrained
    | _ :: _ :: _, _ => rfl

/-- A disjunction that imposes a constraint reads what its operands read. -/
theorem expressions_disjunction (parts : List Predicate) :
    (disjunction parts).expressions =
      if parts.isEmpty || parts.any isAlways then [] else parts.flatMap expressions := by
  unfold disjunction
  split
  next => rfl
  next =>
    match parts with
    | [] => rfl
    | [only] => exact (List.append_nil only.expressions).symm
    | first :: second :: others => exact expressionsOf_eq_flatMap (first :: second :: others)

/-! ## Likeness -/

/-- Two predicates read the same expressions and hold at the same bars. -/
structure Alike (first second : Predicate) : Prop where
  always : first.isAlways = second.isAlways
  expressions : ∀ expression, expression ∈ first.expressions ↔ expression ∈ second.expressions
  holds : ∀ {Value : Type} [Quantity Value] (set : SeriesSet Value) (bar : Nat),
    first.holds set bar = second.holds set bar

namespace Alike

theorem refl (predicate : Predicate) : predicate.Alike predicate :=
  ⟨rfl, fun _ => Iff.rfl, fun _ _ => rfl⟩

theorem conjunction
    {parts others : List Predicate}
    (matched : Matched Alike parts others) :
    (conjunction parts).Alike (conjunction others) where
  always := by
    rw [isAlways_conjunction, isAlways_conjunction]
    exact matched.all_eq fun _ _ alike => alike.always
  expressions := by
    rw [expressions_conjunction, expressions_conjunction]
    exact matched.mem_flatMap_iff fun _ _ alike => alike.expressions
  holds set bar := by
    rw [holds_conjunction, holds_conjunction]
    exact matched.all_eq fun _ _ alike => alike.holds set bar

theorem disjunction
    {parts others : List Predicate}
    (matched : Matched Alike parts others) :
    (disjunction parts).Alike (disjunction others) where
  always := by
    rw [isAlways_disjunction, isAlways_disjunction, matched.isEmpty_eq,
      matched.any_eq fun _ _ alike => alike.always]
  expressions := by
    rw [expressions_disjunction, expressions_disjunction, matched.isEmpty_eq,
      matched.any_eq fun _ _ alike => alike.always]
    split
    next => exact fun _ => Iff.rfl
    next => exact matched.mem_flatMap_iff fun _ _ alike => alike.expressions
  holds set bar := by
    rw [holds_disjunction, holds_disjunction, matched.isEmpty_eq,
      matched.any_eq fun _ _ alike => alike.holds set bar]

theorem negation {inner other : Predicate} (alike : inner.Alike other) :
    (Predicate.negation inner).Alike (.negation other) where
  always := rfl
  expressions := alike.expressions
  holds set bar := congrArg (!·) (alike.holds set bar)

end Alike
end Predicate
end StrategyGraph
