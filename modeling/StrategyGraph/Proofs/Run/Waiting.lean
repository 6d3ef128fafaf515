import Mathlib.Order.Bounds.Basic
import StrategyGraph.Proofs.Run.Availability

/-!
# How long a run waits

A session holds until enough bars have closed. The number of bars to wait for is computed
from lists of expressions, with a maximum over rules that may read nothing at all; here it is
compared with what has to be waited for, said by the places at which an expression stands in
a predicate.

The main result: the number is the least one by which the latest bar is there for the risk
exits and every series that is mentioned reaches as far back as it is read. So rules are
evaluated at exactly the bars at which all that they refer to is defined.
-/

namespace StrategyGraph

/-! ## What a predicate mentions -/

/-- An expression stands in a predicate: on a side of a comparison, under any groups and
negations. -/
inductive Predicate.Mentions (expression : Expression) : Predicate -> Prop
  | left (relation : Relation) (other : Expression) :
      Mentions expression (.compare expression relation other)
  | right (other : Expression) (relation : Relation) :
      Mentions expression (.compare other relation expression)
  | all {parts : List Predicate} {part : Predicate}
      (listed : part ∈ parts)
      (inside : Mentions expression part) : Mentions expression (.all parts)
  | any {parts : List Predicate} {part : Predicate}
      (listed : part ∈ parts)
      (inside : Mentions expression part) : Mentions expression (.any parts)
  | negation {inner : Predicate}
      (inside : Mentions expression inner) : Mentions expression (.negation inner)

namespace Predicate

theorem Mentions.mem_expressions
    {expression : Expression}
    {predicate : Predicate}
    (mentions : predicate.Mentions expression) :
    expression ∈ predicate.expressions := by
  induction mentions with
  | left relation other => exact List.mem_cons_self
  | right other relation => exact List.mem_cons_of_mem other (List.mem_singleton_self _)
  | all listed _ hypothesis | any listed _ hypothesis =>
      exact mem_expressionsOf_iff.2 ⟨_, listed, hypothesis⟩
  | negation _ hypothesis => exact hypothesis

mutual

theorem mentions_of_mem_expressions
    {expression : Expression}
    (predicate : Predicate)
    (inside : expression ∈ predicate.expressions) :
    predicate.Mentions expression := by
  cases predicate with
  | always => exact absurd inside List.not_mem_nil
  | compare left relation right =>
      rcases List.mem_cons.1 inside with rfl | later
      · exact .left relation right
      · rw [List.mem_singleton.1 later]
        exact .right left relation
  | all parts =>
      obtain ⟨part, listed, mentions⟩ := exists_mentions_of_mem_expressionsOf parts inside
      exact .all listed mentions
  | any parts =>
      obtain ⟨part, listed, mentions⟩ := exists_mentions_of_mem_expressionsOf parts inside
      exact .any listed mentions
  | negation inner => exact .negation (mentions_of_mem_expressions inner inside)

theorem exists_mentions_of_mem_expressionsOf
    {expression : Expression}
    (parts : List Predicate)
    (inside : expression ∈ expressionsOf parts) :
    ∃ part ∈ parts, part.Mentions expression := by
  cases parts with
  | nil => exact absurd inside List.not_mem_nil
  | cons part parts =>
      rcases List.mem_append.1 inside with first | later
      · exact ⟨part, List.mem_cons_self, mentions_of_mem_expressions part first⟩
      · obtain ⟨other, listed, mentions⟩ := exists_mentions_of_mem_expressionsOf parts later
        exact ⟨other, List.mem_cons_of_mem part listed, mentions⟩

end

/-- The listed expressions are those that are mentioned. -/
theorem mem_expressions_iff {predicate : Predicate} {expression : Expression} :
    expression ∈ predicate.expressions ↔ predicate.Mentions expression :=
  ⟨mentions_of_mem_expressions predicate, Mentions.mem_expressions⟩

/-- A bound on the largest offset is one on every offset of what is mentioned. -/
theorem forall_maxOffset_lt_iff {predicate : Predicate} {count : Nat} :
    (∀ largest, predicate.maxOffset? = some largest -> largest < count) ↔
      ∀ expression, predicate.Mentions expression ->
        ∀ offset, expression.offset? = some offset -> offset < count := by
  constructor
  · intro bounded expression mentions offset back
    obtain ⟨largest, isLargest, below⟩ := le_maxOffset mentions.mem_expressions back
    exact Nat.lt_of_le_of_lt below (bounded largest isLargest)
  · intro bounded largest isLargest
    obtain ⟨expression, inside, back⟩ :=
      List.mem_filterMap.1 (List.max?_eq_some_iff.1 isLargest).1
    exact bounded expression (mem_expressions_iff.1 inside) largest back

end Predicate

/-! ## Enough closed bars -/

/-- By this number of closed bars all that a strategy refers to is defined: the latest bar,
if there are risk exits, and every price or indicator value that an action rule mentions. -/
structure Strategy.Suffices (strategy : Strategy) (count : Nat) : Prop where
  latest : strategy.exits ≠ [] -> 1 <= count
  references :
    ∀ rule ∈ strategy.actions, ∀ expression, rule.predicate.Mentions expression ->
      ∀ offset, expression.offset? = some offset -> offset < count

namespace Strategy

variable {strategy : Strategy} {count : Nat}

theorem suffices_iff :
    strategy.Suffices count ↔ ∀ offset ∈ strategy.requiredOffsets, offset < count := by
  have atLatest : (strategy.exits ≠ [] -> 1 <= count) ↔
      ∀ offset ∈ (if strategy.exits.isEmpty then [] else [0] : List Nat), offset < count := by
    cases strategy.exits with
    | nil =>
        exact iff_of_true (fun none => absurd rfl none)
          fun offset member => absurd member List.not_mem_nil
    | cons rule rules =>
        change _ ↔ ∀ offset ∈ [0], offset < count
        rw [List.forall_mem_singleton]
        exact ⟨fun enough => enough (List.cons_ne_nil rule rules), fun positive _ => positive⟩
  have inActions : (∀ rule ∈ strategy.actions, ∀ expression,
        rule.predicate.Mentions expression ->
          ∀ offset, expression.offset? = some offset -> offset < count) ↔
      ∀ offset ∈ strategy.actions.filterMap (fun rule => rule.predicate.maxOffset?),
        offset < count := by
    rw [List.forall_mem_filterMap]
    exact forall₂_congr fun rule _ => Predicate.forall_maxOffset_lt_iff.symm
  rw [requiredOffsets, List.forall_mem_append, ← atLatest, ← inActions]
  exact ⟨fun enough => ⟨enough.latest, enough.references⟩, fun both => ⟨both.1, both.2⟩⟩

/-- The number of bars that is waited for bounds exactly the numbers that suffice. -/
theorem Sound.historyRequired_le_iff (sound : strategy.Sound) :
    strategy.historyRequired <= count ↔ strategy.Suffices count := by
  rw [suffices_iff, sound.historyRequired_eq]
  cases isLargest : strategy.requiredOffsets.max? with
  | none =>
      rw [List.max?_eq_none_iff.1 isLargest]
      simp
  | some largest =>
      obtain ⟨member, largestOf⟩ := List.max?_eq_some_iff.1 isLargest
      constructor
      · intro reached offset required
        exact Nat.lt_of_le_of_lt (largestOf offset required) reached
      · intro bounded
        exact bounded largest member

/-- No bar has to close exactly if there is no risk exit and nothing mentioned is a series. -/
theorem suffices_zero_iff :
    strategy.Suffices 0 ↔
      strategy.exits = [] ∧
        ∀ rule ∈ strategy.actions, ∀ expression, rule.predicate.Mentions expression ->
          expression.seriesKey? = none := by
  have constant (expression : Expression) :
      (∀ offset, expression.offset? = some offset -> offset < 0) ↔
        expression.seriesKey? = none := by
    cases expression <;> simp [Expression.offset?, Expression.seriesKey?]
  simp only [← constant]
  constructor
  · intro enough
    refine ⟨?_, enough.references⟩
    by_contra exits
    exact Nat.not_succ_le_zero 0 (enough.latest exits)
  · rintro ⟨noExits, references⟩
    exact ⟨fun exits => absurd noExits exits, references⟩

end Strategy

/-! ## Bars at which all is defined -/

section

variable [Quantity Value]
variable {strategy : Strategy} {set : SeriesSet Value} {bar : Nat}

/-- In a checked set, what a rule mentions is defined at a bar as soon as as many bars stand
before it as are read back. -/
theorem Expression.isSome_rawValue_iff
    (checked : set.checkRequirements strategy = .ok ())
    (within : bar < set.barCount)
    {rule : ActionRule}
    (isRule : rule ∈ strategy.actions)
    {expression : Expression}
    (mentions : rule.predicate.Mentions expression) :
    (expression.rawValue? set bar).isSome ↔
      ∀ offset, expression.offset? = some offset -> offset < bar + 1 := by
  cases reads : expression.seriesKey? with
  | none =>
      cases expression with
      | price column offset => cases reads
      | indicator series offset => cases reads
      | literal constant => exact iff_of_true rfl fun _ back => nomatch back
  | some key =>
      obtain ⟨offset, back, raw⟩ := rawValue_of_seriesKey reads set bar
      have needed := Strategy.mem_neededKeys_of_action isRule mentions.mem_expressions reads
      obtain ⟨value, stored⟩ := set.exists_value_of_checkRequirements checked needed
        (Nat.lt_of_le_of_lt (Nat.sub_le bar offset) within)
      rw [raw, back, SeriesSet.valueBack?]
      constructor
      · intro defined other same
        cases same
        by_contra behind
        rw [if_neg fun reached => behind (Nat.lt_succ_of_le reached)] at defined
        cases defined
      · intro reached
        rw [if_pos (Nat.le_of_lt_succ (reached offset rfl)), stored, Option.isSome_some]

/-- In a checked set, enough bars have closed by a bar if all that is mentioned is defined. -/
theorem Strategy.suffices_iff_defined
    (checked : set.checkRequirements strategy = .ok ())
    (within : bar < set.barCount) :
    strategy.Suffices (bar + 1) ↔
      ∀ rule ∈ strategy.actions, ∀ expression, rule.predicate.Mentions expression ->
        (expression.rawValue? set bar).isSome := by
  constructor
  · intro enough rule isRule expression mentions
    exact (Expression.isSome_rawValue_iff checked within isRule mentions).2
      (enough.references rule isRule expression mentions)
  · intro defined
    refine ⟨fun _ => Nat.le_add_left 1 bar, fun rule isRule expression mentions => ?_⟩
    exact (Expression.isSome_rawValue_iff checked within isRule mentions).1
      (defined rule isRule expression mentions)

end

/-! ## Waiting for compiled strategies -/

namespace Graph

/-- The number of bars that a compiled strategy waits for is exact. It is the least number of
closed bars by which all that the strategy refers to is defined, zero exactly if there are no
risk exits and no series is mentioned, and never more than the largest offset and one. At
every bar that a machine word counts, the rules are evaluated if the bars closed by then
suffice, and the session holds and changes nothing if they do not; in a checked set they
suffice at exactly the bars at which everything mentioned is a stored value or a constant. -/
theorem waiting_exact
    [Quantity Value]
    {graph : Graph}
    {configuration : Configuration}
    {compilation : Compilation}
    (accepted : graph.compile configuration = .ok compilation) :
    IsLeast {count | compilation.strategy.Suffices count}
      compilation.strategy.historyRequired ∧
    (compilation.strategy.historyRequired = 0 ↔
      compilation.strategy.exits = [] ∧
        ∀ rule ∈ compilation.strategy.actions, ∀ expression,
          rule.predicate.Mentions expression -> expression.seriesKey? = none) ∧
    compilation.strategy.historyRequired <= 20001 ∧
    ∀ (set : SeriesSet Value) (state : ExitState Value) (bar : Nat),
      bar < Binary64.largestCount ->
        (compilation.strategy.Suffices (bar + 1) ->
          Session.onBar compilation.strategy set state bar =
            if state.isOpen then Session.decideOpen compilation.strategy set state bar
            else Session.decideFlat compilation.strategy set state bar) ∧
        (¬ compilation.strategy.Suffices (bar + 1) ->
          Session.onBar compilation.strategy set state bar = (.hold, state)) ∧
        (set.checkRequirements compilation.strategy = .ok () -> bar < set.barCount ->
          (compilation.strategy.Suffices (bar + 1) ↔
            ∀ rule ∈ compilation.strategy.actions, ∀ expression,
              rule.predicate.Mentions expression ->
                (expression.rawValue? set bar).isSome)) := by
  have sound := sound_of_compile accepted
  refine ⟨⟨sound.historyRequired_le_iff.1 le_rfl, ?_⟩, ?_, sound.historyRequired_le, ?_⟩
  · intro count enough
    exact sound.historyRequired_le_iff.2 enough
  · rw [← Nat.le_zero, sound.historyRequired_le_iff]
    exact Strategy.suffices_zero_iff
  · intro set state bar counted
    have guard : Session.closedBars bar < compilation.strategy.historyRequired ↔
        ¬ compilation.strategy.Suffices (bar + 1) := by
      rw [Session.closedBars_of_lt counted, ← sound.historyRequired_le_iff, Nat.not_le]
    refine ⟨fun enough => ?_, fun early => ?_, Strategy.suffices_iff_defined⟩
    · rw [Session.onBar, if_neg fun early => guard.1 early enough]
    · rw [Session.onBar, if_pos (guard.2 early)]

/-- The crossing before the latest bar, within two bars, needs four of them. -/
theorem waiting_exact_delayed :
    ∃ compilation,
      delayedCrossing.compile .default = .ok compilation ∧
        IsLeast {count | compilation.strategy.Suffices count} 4 ∧
        Session.onBar compilation.strategy delayedBars
          (Session.start compilation.strategy) 2 =
            (.hold, Session.start compilation.strategy) ∧
        Session.onBar compilation.strategy delayedBars
          (Session.start compilation.strategy) 3 =
            Session.decideFlat compilation.strategy delayedBars
              (Session.start compilation.strategy) 3 := by
  have computed : (delayedCrossing.compile .default).toOption.map (fun compilation =>
      compilation.strategy.historyRequired) = some 4 := by
    decide +kernel
  obtain ⟨compilation, found, required⟩ := Option.map_eq_some_iff.1 computed
  have compiled := Outcome.toOption_eq_some_iff.1 found
  obtain ⟨least, _, _, bars⟩ := @waiting_exact Float _ _ _ _ compiled
  rw [required] at least
  have early : ¬ compilation.strategy.Suffices (2 + 1) := fun enough =>
    absurd (least.2 enough) (by decide)
  obtain ⟨_, waits, _⟩ :=
    bars delayedBars (Session.start compilation.strategy) 2 (by decide)
  obtain ⟨decides, _, _⟩ :=
    bars delayedBars (Session.start compilation.strategy) 3 (by decide)
  exact ⟨compilation, compiled, least, waits early, decides least.1⟩

end Graph
end StrategyGraph
