import StrategyGraph.Proofs.Data.Json.Finite
import StrategyGraph.Proofs.Data.Json.Value
import StrategyGraph.Proofs.Strategy.Finite
import StrategyGraph.Proofs.Strategy.Restoring

/-!
# Canonical texts of strategies

The canonical text of a strategy identifies it: no other strategy, compiled or read, has the
same. Read again, it gives the strategy back if no predicate has more levels than a reader
of whole strategies goes down to. Texts hold no deeper predicates, but graphs compile to
them: a chain of conditions adds two levels with each of its nodes.

Main results: `Strategy.canonical_text_identifies` and `Strategy.deep_text_not_restored`.
-/

namespace StrategyGraph

/-- The deepest nesting of a predicate that is read inside a strategy: the strategy, the
list of its rules and the rule are three levels. -/
def Predicate.deepest : Nat := Json.deepest - 3

namespace Strategy

/-- No predicate has more levels than are read. -/
def FitsLevels (strategy : Strategy) : Prop :=
  ∀ rule ∈ strategy.actions, rule.predicate.toDatum.nesting <= Predicate.deepest

instance : DecidablePred FitsLevels := fun strategy =>
  inferInstanceAs (Decidable (∀ rule ∈ strategy.actions,
    rule.predicate.toDatum.nesting <= Predicate.deepest))

/-- Strategies that are compiled from a graph or read off a text. -/
inductive Obtained : Strategy -> Prop where
  | compiled
      (fits : graph.FitsWords)
      (period : configuration.defaultAtrPeriod <= Binary64.largestCount)
      (compiles : Graph.compile graph configuration = .ok compilation) :
      Obtained compilation.strategy
  | read (reads : ofJson? rounding text = some strategy) : Obtained strategy

end Strategy

/-! ## Levels -/

theorem IndicatorSeries.nesting_le (series : IndicatorSeries) : series.toDatum.nesting <= 2 := by
  have parameters : (Datum.ofDictionary .number series.parameters).nesting <= 1 := by
    rw [Datum.ofDictionary, Datum.nesting_record_le_iff, List.forall_mem_map]
    exact fun _ _ => Nat.zero_le _
  rw [toDatum, Datum.nesting_record_le_iff]
  simp only [List.forall_mem_cons]
  exact ⟨Nat.zero_le _, parameters, List.forall_mem_nil _⟩

theorem Sizing.nesting_le (sizing : Sizing) : sizing.toDatum.nesting <= 1 := by
  cases sizing <;> simp [toDatum, Datum.nesting, Datum.nestingOfMembers]

theorem ExitRule.nesting_le (rule : ExitRule) : rule.toDatum.nesting <= 3 := by
  have range : (Datum.ofOption IndicatorSeries.toDatum rule.atr).nesting <= 2 := by
    cases rule.atr with
    | none => exact Nat.zero_le _
    | some series => exact series.nesting_le
  rw [toDatum, Datum.nesting_record_le_iff]
  simp only [List.forall_mem_cons]
  exact ⟨Nat.zero_le _, Nat.zero_le _, Nat.zero_le _, Nat.zero_le _, range,
    List.forall_mem_nil _⟩

theorem StateSlot.nesting_le (slot : StateSlot) : slot.toDatum.nesting <= 1 := by
  cases slot <;> simp [toDatum, Datum.nesting, Datum.nestingOfMembers]

theorem ActionRule.nesting_le_iff {rule : ActionRule} {levels : Nat} (enough : 1 <= levels) :
    rule.toDatum.nesting <= levels + 1 ↔ rule.predicate.toDatum.nesting <= levels := by
  have sizing := rule.sizing.nesting_le.trans enough
  rw [toDatum, Datum.nesting_record_le_iff]
  simp only [List.forall_mem_cons]
  exact ⟨fun within => within.2.2.2.1, fun within =>
    ⟨Nat.zero_le _, Nat.zero_le _, Nat.zero_le _, within, sizing, List.forall_mem_nil _⟩⟩

namespace Strategy

variable {strategy : Strategy}

/-- Only predicates take a strategy beyond a few levels. -/
theorem nesting_le_iff {levels : Nat} (enough : 2 <= levels) :
    strategy.toDatum.nesting <= levels + 3 ↔
      ∀ rule ∈ strategy.actions, rule.predicate.toDatum.nesting <= levels := by
  have series : ∀ one ∈ strategy.indicators, one.toDatum.nesting <= levels + 1 :=
    fun one _ => one.nesting_le.trans (by omega)
  have exits : ∀ rule ∈ strategy.exits, rule.toDatum.nesting <= levels + 1 :=
    fun rule _ => rule.nesting_le.trans (by omega)
  have slots : ∀ slot ∈ strategy.stateSlots, slot.toDatum.nesting <= levels + 1 :=
    fun slot _ => slot.nesting_le.trans (by omega)
  have rules : (∀ rule ∈ strategy.actions, rule.toDatum.nesting <= levels + 1) ↔
      ∀ rule ∈ strategy.actions, rule.predicate.toDatum.nesting <= levels :=
    forall₂_congr fun rule _ => ActionRule.nesting_le_iff (by omega)
  rw [← rules]
  simp only [toDatum, Datum.nesting_record_le_iff, List.forall_mem_cons, Datum.nesting_list_le_iff,
    List.forall_mem_map]
  exact ⟨fun within => within.2.1, fun within =>
    ⟨series, within, exits, slots, List.forall_mem_nil _⟩⟩

theorem fitsLevels_iff :
    strategy.FitsLevels ↔ strategy.toDatum.nesting <= Json.deepest :=
  (nesting_le_iff (by decide)).symm

end Strategy

/-! ## Reading what is left of a deep strategy -/

/-- A rule is only read if its predicate is left whole. -/
theorem ActionRule.nesting_le_of_ofDatum?_truncate
    {rule restored : ActionRule}
    (lossless : rule.predicate.toDatum.Lossless)
    {levels : Nat}
    (reads : ofDatum? (Datum.truncate (levels + 1) rule.toDatum) = some restored) :
    rule.predicate.toDatum.nesting <= levels := by
  rw [toDatum, Datum.truncate_record, ofDatum?, Datum.structure?] at reads
  obtain ⟨fields, isFields, reads⟩ := Option.bind_eq_some_iff.1 reads
  cases isFields
  replace reads := Fields.slots_of_fields? reads
  obtain ⟨node, _, reads⟩ := Option.bind_eq_some_iff.1 reads
  obtain ⟨side, _, reads⟩ := Option.bind_eq_some_iff.1 reads
  obtain ⟨direction, _, reads⟩ := Option.bind_eq_some_iff.1 reads
  obtain ⟨predicate, readsPredicate, _⟩ := Option.bind_eq_some_iff.1 reads
  change Predicate.ofDatum? (Datum.truncate levels rule.predicate.toDatum) =
    some predicate at readsPredicate
  rw [Predicate.ofDatum?, Datum.whole?, lossless.isReadable_truncate] at readsPredicate
  split at readsPredicate
  next whole => exact of_decide_eq_true whole
  next => cases readsPredicate

namespace Strategy

variable {strategy : Strategy}

/-- A strategy is only read if its predicates are left whole. -/
theorem fitsLevels_of_ofDatum?_truncate
    (lossless : strategy.toDatum.Lossless)
    {restored : Strategy}
    (reads : ofDatum? (Datum.truncate Json.deepest strategy.toDatum) = some restored) :
    strategy.FitsLevels := by
  have deepest : Json.deepest = Predicate.deepest + 1 + 1 + 1 := rfl
  intro rule member
  simp only [toDatum, Datum.lossless_record_iff, List.forall_mem_cons, Datum.lossless_list_iff,
    List.forall_mem_map] at lossless
  have written := lossless.2.1 rule member
  simp only [ActionRule.toDatum, Datum.lossless_record_iff, List.forall_mem_cons] at written
  rw [toDatum, deepest, Datum.truncate_record, ofDatum?, Datum.structure?] at reads
  obtain ⟨fields, isFields, reads⟩ := Option.bind_eq_some_iff.1 reads
  cases isFields
  replace reads := Fields.slots_of_fields? reads
  obtain ⟨indicators, _, reads⟩ := Option.bind_eq_some_iff.1 reads
  obtain ⟨actions, readsActions, _⟩ := Option.bind_eq_some_iff.1 reads
  change Datum.listOf? ActionRule.ofDatum? (Datum.truncate (Predicate.deepest + 1 + 1)
    (.list (strategy.actions.map ActionRule.toDatum))) = some actions at readsActions
  rw [Datum.truncate_list, List.map_map, Datum.listOf?, Outcome.mapM_eq_some_iff,
    List.forall₂_map_left_iff] at readsActions
  obtain ⟨found, _, readsRule⟩ := Outcome.exists_item_of_forall₂ readsActions.flip member
  exact ActionRule.nesting_le_of_ofDatum?_truncate written.2.2.2.1 readsRule

/-- The canonical text stands for what is left of the strategy on the levels that are read. -/
theorem ofJson?_toJson (lossless : strategy.toDatum.Lossless) :
    ofJson? .nearest strategy.toJson = if strategy.FitsLevels then some strategy else none := by
  rw [ofJson?, toJson, Json.parse_compact lossless, Option.bind_some]
  split
  next fits =>
    have written := Datum.Writable.of_nesting_le lossless (fitsLevels_iff.1 fits)
    rw [written.truncate_eq]
    exact faithful.restores lossless
  next deep =>
    refine Option.eq_none_iff_forall_ne_some.2 fun restored reads => deep ?_
    exact fitsLevels_of_ofDatum?_truncate lossless reads

/-! ## Strategies that are obtained -/

/-- Strategies that are read have been within the levels that are read. -/
theorem writable_of_ofJson?
    {rounding : Rounding}
    {text : String}
    (reads : ofJson? rounding text = some strategy) :
    Datum.Writable Json.deepest strategy.toDatum := by
  obtain ⟨datum, parsed, found⟩ := Option.bind_eq_some_iff.1 reads
  exact faithful.retains (Json.finite_parse parsed) found

theorem Obtained.lossless (obtained : strategy.Obtained) : strategy.toDatum.Lossless := by
  cases obtained with
  | compiled fits period compiles => exact Graph.lossless_of_compile fits period compiles
  | read reads => exact (writable_of_ofJson? reads).lossless

/-- Lossless strategies of one text are the same. -/
theorem eq_of_toJson_eq
    {other : Strategy}
    (lossless : strategy.toDatum.Lossless)
    (losslessOther : other.toDatum.Lossless)
    (same : strategy.toJson = other.toJson) :
    strategy = other := by
  have written := lossless.of_nesting_le
    (Nat.le_max_left strategy.toDatum.nesting other.toDatum.nesting)
  have writtenOther := losslessOther.of_nesting_le
    (Nat.le_max_right strategy.toDatum.nesting other.toDatum.nesting)
  have equal := Json.compact_injective written writtenOther same
  have restores := faithful.restores lossless
  rw [equal, faithful.restores losslessOther] at restores
  exact (Option.some.inj restores).symm

/-- The canonical text identifies a strategy that is compiled or read: read again, it gives
this strategy and nothing else, whose text is the same, as long as no predicate has too many
levels, which none of a strategy that is read has. Strategies of one text are the same,
however many levels they have. -/
theorem canonical_text_identifies (obtained : strategy.Obtained) :
    (ofJson? .nearest strategy.toJson =
        if strategy.FitsLevels then some strategy else none) ∧
      (∀ restored, ofJson? .nearest strategy.toJson = some restored ->
        restored.toJson = strategy.toJson ∧ restored.fingerprint = strategy.fingerprint) ∧
      (∀ rounding text, ofJson? rounding text = some strategy -> strategy.FitsLevels) ∧
      ∀ other : Strategy, other.Obtained -> strategy.toJson = other.toJson ->
        strategy = other := by
  have lossless := obtained.lossless
  have outcome := ofJson?_toJson lossless
  refine ⟨outcome, fun restored reads => ?_, fun rounding text reads => ?_,
    fun other obtainedOther same => eq_of_toJson_eq lossless obtainedOther.lossless same⟩
  · rw [outcome] at reads
    split at reads
    next =>
      cases reads
      exact ⟨rfl, rfl⟩
    next => cases reads
  · exact fitsLevels_iff.2 (writable_of_ofJson? reads).nesting_le

end Strategy

namespace Graph

/-- The condition that a close is above one hundred, at a position of a chain. -/
def linkNode (position : Nat) : Node :=
  ⟨position.repr, .condition (.price .close) ⟨.greater, some 100, 0, 0⟩⟩

/-- A purchase gated by a chain of conditions, each of which gates the next one. -/
def conditionChain (length : Nat) : Graph where
  nodes := (List.range length).map linkNode ++ [⟨"enter", .action .buy .allAvailable none⟩]
  edges := (List.range length).map fun position =>
    ⟨position.repr, position.repr,
      if position + 1 = length then "enter" else (position + 1).repr, .flow⟩

theorem conditionChain_fitsWords (length : Nat) : (conditionChain length).FitsWords := by
  intro node member
  rcases List.mem_append.1 member with inChain | last
  · obtain ⟨position, _, rfl⟩ := List.mem_map.1 inChain
    exact ⟨Nat.zero_le _, Nat.zero_le _⟩
  · rw [List.mem_singleton.1 last]
    trivial

end Graph

namespace Strategy

theorem canonical_text_identifies_chain :
    ∃ compilation,
      (Graph.conditionChain 2).compile .default = .ok compilation ∧
        compilation.strategy.Obtained ∧
        compilation.strategy.FitsLevels ∧
        ofJson? .nearest compilation.strategy.toJson = some compilation.strategy ∧
        ∀ other : Strategy, ofJson? .nearest compilation.strategy.toJson = some other ->
          other = compilation.strategy := by
  have computed : ((Graph.conditionChain 2).compile .default).toOption.map (fun compilation =>
      decide compilation.strategy.FitsLevels) = some true := by
    decide +kernel
  obtain ⟨compilation, found, levels⟩ := Option.map_eq_some_iff.1 computed
  have compiles := Outcome.toOption_eq_some_iff.1 found
  have fits := of_decide_eq_true levels
  have obtained : compilation.strategy.Obtained :=
    .compiled (Graph.conditionChain_fitsWords 2) (by decide) compiles
  obtain ⟨outcome, rewritten, _, unique⟩ := canonical_text_identifies obtained
  rw [if_pos fits] at outcome
  refine ⟨compilation, compiles, obtained, fits, outcome, fun other reads => ?_⟩
  exact (unique other (.read reads) (rewritten other reads).1.symm).symm

/-- A chain of sixty-three conditions compiles to a strategy that is not read back. -/
theorem deep_text_not_restored :
    ∃ compilation,
      (Graph.conditionChain 63).compile .default = .ok compilation ∧
        compilation.strategy.Obtained ∧
        ofJson? .nearest compilation.strategy.toJson = none := by
  have computed : ((Graph.conditionChain 63).compile .default).toOption.map (fun compilation =>
      decide compilation.strategy.FitsLevels) = some false := by
    decide +kernel
  obtain ⟨compilation, found, levels⟩ := Option.map_eq_some_iff.1 computed
  have compiles := Outcome.toOption_eq_some_iff.1 found
  have obtained : compilation.strategy.Obtained :=
    .compiled (Graph.conditionChain_fitsWords 63) (by decide) compiles
  refine ⟨compilation, compiles, obtained, ?_⟩
  rw [ofJson?_toJson obtained.lossless, if_neg (of_decide_eq_false levels)]

end Strategy
end StrategyGraph
