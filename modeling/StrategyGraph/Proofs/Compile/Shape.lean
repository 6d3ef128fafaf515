import StrategyGraph.Proofs.Run.Availability

/-!
# The shape of compiled predicates

The constructors of conjunctions and disjunctions leave out operands without constraint and
collapse groups of one. So whatever gates and conditions a graph nests, a compiled group has
at least two operands, each of which imposes a constraint, and the predicate without
constraint stands alone or below a negation. Both sides of a comparison are sampled at the
same bar, and none lies further back than offsets and windows reach, so that counts of bars
and rendered positions are exact.
-/

namespace StrategyGraph

/-- Two expressions read the same bar if both of them read a series. -/
def Expression.Aligned (left right : Expression) : Prop :=
  ∀ back ∈ left.offset?, ∀ other ∈ right.offset?, back = other

namespace Predicate

/-- A predicate that imposes a constraint, as do all operands of its groups. Groups have at
least two operands, and comparisons are sampled at one bar. The predicate without constraint
occurs below a negation only. -/
inductive Constrains : Predicate -> Prop
  | compare (aligned : left.Aligned right) : Constrains (.compare left relation right)
  | all
      (several : 2 <= parts.length)
      (each : ∀ part ∈ parts, Constrains part) :
      Constrains (.all parts)
  | any
      (several : 2 <= parts.length)
      (each : ∀ part ∈ parts, Constrains part) :
      Constrains (.any parts)
  | negation (inner : Constrains part) : Constrains (.negation part)
  | negatedAlways : Constrains (.negation .always)

/-- A predicate that imposes no constraint as a whole or is built of those that do. -/
def Normal (predicate : Predicate) : Prop :=
  predicate = .always ∨ predicate.Constrains

/-! ## Constructors -/

/-- A list that is neither empty nor a single item has at least two items. -/
theorem two_le_length
    {items : List Item}
    (nonempty : items ≠ [])
    (notSingle : ∀ only, items ≠ [only]) :
    2 <= items.length := by
  match items with
  | [] => exact absurd rfl nonempty
  | [only] => exact absurd rfl (notSingle only)
  | _ :: _ :: _ => exact Nat.le_add_left 2 _

/-- A normal predicate that is not the one without constraint imposes one. -/
theorem Normal.constrains
    {predicate : Predicate}
    (normal : predicate.Normal)
    (different : predicate.isAlways = false) :
    predicate.Constrains := by
  rcases normal with rfl | constrains
  · cases different
  · exact constrains

theorem normal_negation {inner : Predicate} (normal : inner.Normal) :
    (negation inner).Normal := by
  rcases normal with rfl | constrains
  · exact Or.inr .negatedAlways
  · exact Or.inr (.negation constrains)

/-- Conjunctions of normal predicates are normal. -/
theorem normal_conjunction
    {parts : List Predicate}
    (each : ∀ part ∈ parts, part.Normal) :
    (conjunction parts).Normal := by
  have remaining : ∀ part ∈ parts.filter fun part => !part.isAlways, part.Constrains := by
    intro part member
    obtain ⟨listed, kept⟩ := List.mem_filter.1 member
    exact (each part listed).constrains (by simpa using kept)
  rw [conjunction]
  split
  next => exact Or.inl rfl
  next only single =>
    apply Or.inr
    apply remaining
    rw [single]
    exact List.mem_singleton_self only
  next nonempty notSingle =>
    exact Or.inr (.all (two_le_length nonempty notSingle) remaining)

/-- Disjunctions of normal predicates are normal. -/
theorem normal_disjunction
    {parts : List Predicate}
    (each : ∀ part ∈ parts, part.Normal) :
    (disjunction parts).Normal := by
  unfold disjunction
  split
  next => exact Or.inl rfl
  next constrained =>
    rw [Bool.not_eq_true, Bool.or_eq_false_iff, List.any_eq_false] at constrained
    obtain ⟨nonempty, different⟩ := constrained
    split
    next only => exact each only (List.mem_singleton_self only)
    next notSingle =>
      refine Or.inr (.any (two_le_length ?_ notSingle) fun part member => ?_)
      · exact List.isEmpty_eq_false_iff.1 nonempty
      · exact (each part member).constrains (Bool.not_eq_true _ ▸ different part member)

end Predicate

/-! ## Tests -/

/-- A subject reads its series as many bars back as it is asked to. -/
theorem Subject.offset_of_expression
    {configuration : Configuration}
    {subject : Subject}
    {offset : Nat} :
    ∀ back ∈ (subject.expression configuration offset).offset?, back = offset := by
  intro back reads
  cases subject with
  | price column => exact (Option.some.inj reads).symm
  | indicator line parameters => exact (Option.some.inj reads).symm
  | value constant => cases reads

theorem Operand.offset_of_expression
    {configuration : Configuration}
    {operand : Operand}
    {offset : Nat} :
    ∀ back ∈ (operand.expression configuration offset).offset?, back = offset := by
  intro back reads
  cases operand with
  | source node subject => exact Subject.offset_of_expression back reads
  | literal constant => cases reads
  | missing => cases reads

namespace Test

variable (configuration : Configuration) (test : Test)

theorem constrains_relationAt (relation : Relation) (offset : Nat) :
    (test.relationAt configuration relation offset).Constrains := by
  apply Predicate.Constrains.compare
  intro back reads other readsOther
  rw [Subject.offset_of_expression back reads, Operand.offset_of_expression other readsOther]

theorem normal_comparisonAt (shift : Nat) :
    (test.comparisonAt configuration shift).Normal := by
  rw [comparisonAt]
  split
  next => exact Or.inr (test.constrains_relationAt configuration _ _)
  next =>
    apply Predicate.normal_conjunction
    intro part member
    rcases List.mem_pair.1 member with rfl | rfl
    · exact Or.inr (test.constrains_relationAt configuration _ _)
    · exact Or.inr (test.constrains_relationAt configuration _ _)

theorem normal_predicate : (test.predicate configuration).Normal := by
  rw [predicate]
  split
  next => exact test.normal_comparisonAt configuration 0
  next =>
    apply Predicate.normal_disjunction
    intro part member
    obtain ⟨shift, _, rfl⟩ := List.mem_map.1 member
    exact test.normal_comparisonAt configuration shift

end Test

/-! ## Signals -/

namespace Signal

variable (configuration : Configuration)

mutual

/-- Signals have normal predicates, however they are nested. -/
theorem normal_predicate (signal : Signal) : (signal.predicate configuration).Normal := by
  cases signal with
  | gated test parents =>
      apply Predicate.normal_conjunction
      intro part member
      rcases List.mem_cons.1 member with rfl | inParents
      · exact test.normal_predicate configuration
      · exact normal_predicates parents part inParents
  | all inputs => exact Predicate.normal_conjunction (normal_predicates inputs)
  | any inputs => exact Predicate.normal_disjunction (normal_predicates inputs)
  | negation input => exact Predicate.normal_negation (normal_predicate input)

theorem normal_predicates (signals : List Signal) :
    ∀ part ∈ predicates configuration signals, part.Normal := by
  cases signals with
  | nil => exact fun part member => absurd member List.not_mem_nil
  | cons signal signals =>
      intro part member
      rcases List.mem_cons.1 member with rfl | later
      · exact normal_predicate signal
      · exact normal_predicates signals part later

end

end Signal

/-! ## Strategies -/

namespace Graph

variable {graph : Graph} {configuration : Configuration} {compilation : Compilation}

/-- The action rules of an accepted graph have normal predicates. -/
theorem normal_of_compile (accepted : graph.compile configuration = .ok compilation) :
    ∀ rule ∈ compilation.strategy.actions, rule.predicate.Normal := by
  intro rule isRule
  obtain ⟨valid, _, planned, compiles⟩ := compilesTo_of_compile accepted
  obtain ⟨action, _, ruled⟩ := Outcome.exists_item_of_forall₂ compiles.rules isRule
  obtain ⟨_, sizing, _, rfl⟩ := PlannedAction.rule_eq_ok_iff.1 ruled
  exact Predicate.normal_conjunction (Signal.normal_predicates configuration action.inputs)

/-- Compiled predicates have a shape that runs and renderings rely on. Every predicate is
normal. No expression in it reads more than 20000 bars back, so its rendered position is one
more than its offset. Likewise no crossing in a window of a condition looks further back, and
the number of bars to wait for, at most 20001, is one more than the largest offset that has to
be available. -/
theorem compiled_predicates_normal
    (accepted : graph.compile configuration = .ok compilation) :
    (∀ rule ∈ compilation.strategy.actions,
      rule.predicate.Normal ∧
      ∀ expression ∈ rule.predicate.expressions, ∀ offset, expression.offset? = some offset ->
        offset <= 20000 ∧ Expression.backPosition offset = offset + 1) ∧
    (∀ id subject condition, ⟨id, .condition subject condition⟩ ∈ graph.nodes ->
      ∀ shift < max condition.lookback 1, condition.offset + shift + 1 <= 20000) ∧
    compilation.strategy.historyRequired =
      (compilation.strategy.requiredOffsets.max?.map (· + 1)).getD 0 ∧
    compilation.strategy.historyRequired <= 20001 := by
  have sound := sound_of_compile accepted
  have bound : largestBack = 20000 := rfl
  refine ⟨fun rule isRule => ⟨normal_of_compile accepted rule isRule, ?_⟩, ?_,
    sound.historyRequired_eq, sound.historyRequired_le⟩
  · intro expression inside offset back
    have near := sound.offset_le isRule inside back
    have fits : largestBack + 1 <= Binary64.largestCount := by decide
    exact ⟨near, Nat.min_eq_left ((Nat.succ_le_succ near).trans fits)⟩
  · intro id subject condition isNode shift inWindow
    obtain ⟨reachable, checked, _⟩ := check_of_compile accepted
    have inRange := ((wellFormed_of_check checked).parameters _ isNode).1
    have offset := inRange.offset
    have lookback := inRange.lookback
    have limits : Condition.largestOffset = 10000 ∧ Condition.largestLookback = 10000 :=
      ⟨rfl, rfl⟩
    omega

/-- A crossing at the largest offset, within a window, that holds unless a gate without inputs
does. -/
def distantCrossing : Graph where
  nodes := [
    ⟨"cross", .condition (.price .close) ⟨.crossesAbove, none, 10000, 2⟩⟩,
    ⟨"open", .condition (.price .opening) ⟨.greater, none, 0, 0⟩⟩,
    ⟨"free", .gate .and⟩,
    ⟨"never", .gate .not⟩,
    ⟨"either", .gate .or⟩,
    ⟨"enter", .action .buy .allAvailable none⟩]
  edges := [
    ⟨"1", "open", "cross", .compareInput⟩,
    ⟨"2", "free", "never", .flow⟩,
    ⟨"3", "never", "either", .flow⟩,
    ⟨"4", "cross", "either", .flow⟩,
    ⟨"5", "free", "enter", .flow⟩,
    ⟨"6", "either", "enter", .flow⟩]

theorem compiled_predicates_normal_distant :
    ∃ compilation,
      distantCrossing.compile .default = .ok compilation ∧
        compilation.strategy.actions.map
          (fun rule => rule.predicate.expressions.filterMap Expression.offset?) =
            [[10001, 10001, 10000, 10000, 10002, 10002, 10001, 10001]] ∧
        (∀ rule ∈ compilation.strategy.actions, rule.predicate.Normal) ∧
        compilation.strategy.historyRequired = 10003 ∧
        compilation.strategy.historyRequired <= 20001 := by
  have computed : (distantCrossing.compile .default).toOption.map (fun compilation =>
      (compilation.strategy.actions.map
        fun rule => rule.predicate.expressions.filterMap Expression.offset?,
        compilation.strategy.historyRequired)) = some
      ([[10001, 10001, 10000, 10000, 10002, 10002, 10001, 10001]], 10003) := by
    decide +kernel
  obtain ⟨compilation, found, outcome⟩ := Option.map_eq_some_iff.1 computed
  obtain ⟨offsets, required⟩ := Prod.mk.inj outcome
  have compiled := Outcome.toOption_eq_some_iff.1 found
  obtain ⟨predicates, _, _, bounded⟩ := compiled_predicates_normal compiled
  exact ⟨compilation, compiled, offsets, fun rule isRule => (predicates rule isRule).1,
    required, bounded⟩

end Graph
end StrategyGraph
