import StrategyGraph.Proofs.Indicator.Key
import StrategyGraph.Proofs.Run.Availability
import StrategyGraph.Proofs.Run.Lifecycle
import StrategyGraph.Strategy.Datum

/-!
# What a passed check of requirements covers

The check of requirements asks for the closes, for what the actions read and for what the
strategy lists. The ranges that risk exits read are asked for as far as they are among these,
which the compiler sees to. A strategy that was not compiled may read a range that it does not
list: then sets without it pass the check, and the risk exit never closes a position.

Main result: `Strategy.requirements_cover`.
-/

namespace StrategyGraph

/-! ## First use -/

section

variable [BEq Item] [LawfulBEq Item]

/-- Among all items those that are kept occur in the order that they have without the others. -/
theorem idxOf_lt_of_filter
    {keeps : Item -> Bool}
    {items : List Item}
    {first second : Item}
    (keepsFirst : keeps first = true)
    (keepsSecond : keeps second = true)
    (before : (items.filter keeps).idxOf first < (items.filter keeps).idxOf second) :
    items.idxOf first < items.idxOf second := by
  induction items with
  | nil => exact before
  | cons item items hypothesis =>
      cases kept : keeps item with
      | true =>
          rw [List.filter_cons_of_pos kept, List.idxOf_cons, List.idxOf_cons] at before
          rw [List.idxOf_cons, List.idxOf_cons]
          cases isFirst : item == first <;> cases isSecond : item == second <;>
            simp only [isFirst, isSecond] at before ⊢
          case false.false => exact Nat.succ_lt_succ (hypothesis (Nat.lt_of_succ_lt_succ before))
          case false.true => exact absurd before (Nat.not_lt_zero _)
          case true.false => exact Nat.succ_pos _
          case true.true => exact absurd before (Nat.not_lt_zero _)
      | false =>
          rw [List.filter_cons_of_neg (Bool.eq_false_iff.1 kept)] at before
          have differs {other : Item} (keepsOther : keeps other = true) : item ≠ other := by
            rintro rfl
            rw [kept] at keepsOther
            cases keepsOther
          rw [List.idxOf_cons_ne _ (differs keepsFirst), List.idxOf_cons_ne _ (differs keepsSecond)]
          exact Nat.succ_lt_succ (hypothesis before)

/-- Items without repetitions stand in the order of their first occurrences. -/
theorem pairwise_eraseDups (items : List Item) :
    items.eraseDups.Pairwise fun first second => items.idxOf first < items.idxOf second := by
  cases items with
  | nil => exact List.Pairwise.nil
  | cons item items =>
      have differs : ∀ other ∈ (items.filter fun other => !other == item).eraseDups,
          other ≠ item := by
        intro other member
        have kept := (List.mem_filter.1 (List.mem_eraseDups.1 member)).2
        simpa using kept
      rw [List.eraseDups_cons]
      refine List.pairwise_cons.2 ⟨fun other member => ?_, ?_⟩
      · rw [List.idxOf_cons_self, List.idxOf_cons_ne _ (differs other member).symm]
        exact Nat.succ_pos _
      · refine (pairwise_eraseDups (items.filter fun other => !other == item)).imp_of_mem ?_
        intro first second inFirst inSecond before
        have firstDiffers := differs first inFirst
        have secondDiffers := differs second inSecond
        rw [List.idxOf_cons_ne _ firstDiffers.symm, List.idxOf_cons_ne _ secondDiffers.symm]
        exact Nat.succ_lt_succ
          (idxOf_lt_of_filter (by simpa using firstDiffers) (by simpa using secondDiffers) before)
termination_by items.length
decreasing_by exact Nat.lt_succ_of_le (List.length_filter_le _ _)

end

/-! ## Checked sets -/

namespace SeriesSet

/-- The series of a key is there and as long as the closes. -/
def Covers (set : SeriesSet Value) (key : String) : Prop :=
  set.contains key = true ∧ set.length key = set.barCount

/-- A set of empty series. -/
def blank (keys : List String) : SeriesSet Value :=
  ⟨keys.map fun key => (key, #[])⟩

section

variable (keys : List String) (key : String)

theorem series_blank :
    (blank keys : SeriesSet Value).series? key = if key ∈ keys then some #[] else none := by
  rw [series?, blank]
  induction keys with
  | nil => rfl
  | cons first keys hypothesis =>
      rw [List.map_cons, List.lookup_cons, hypothesis]
      by_cases same : key = first
      · simp [same]
      · simp [same, beq_false_of_ne same]

theorem contains_blank_iff : (blank keys : SeriesSet Value).contains key = true ↔ key ∈ keys := by
  rw [contains, series_blank]
  by_cases listed : key ∈ keys <;> simp [listed]

theorem length_blank : (blank keys : SeriesSet Value).length key = 0 := by
  rw [length, series_blank]
  by_cases listed : key ∈ keys
  · rw [if_pos listed]
    rfl
  · rw [if_neg listed]

end

end SeriesSet

namespace Strategy

section

variable (strategy : Strategy)

/-- Keys in the order in which the check of requirements comes upon them. -/
def collectedKeys : List String :=
  Column.close.key ::
    (strategy.actions.flatMap (fun rule => rule.predicate.seriesKeys) ++
      strategy.indicators.map IndicatorSeries.key)

/-- The ranges of the risk exits are listed or read by an action. -/
def DeclaresRanges : Prop :=
  ∀ rule ∈ strategy.exits, ∀ series, rule.atr = some series ->
    (∃ action ∈ strategy.actions, series.key ∈ action.predicate.seriesKeys) ∨
      ∃ listed ∈ strategy.indicators, listed.key = series.key

theorem neededKeys_eq : strategy.neededKeys = strategy.collectedKeys.eraseDups :=
  rfl

variable {strategy}

theorem mem_collectedKeys_iff {key : String} :
    key ∈ strategy.collectedKeys ↔
      key = Column.close.key ∨ (∃ rule ∈ strategy.actions, key ∈ rule.predicate.seriesKeys) ∨
        ∃ series ∈ strategy.indicators, series.key = key := by
  rw [collectedKeys, List.mem_cons, List.mem_append, List.mem_flatMap, List.mem_map]

/-- All sets that pass cover a series if and only if the check asks for it: empty series pass
where no other ones are asked for. -/
theorem forall_covers_iff {key : String} :
    (∀ set : SeriesSet Value, set.checkRequirements strategy = .ok () -> set.Covers key) ↔
      key ∈ strategy.collectedKeys := by
  rw [← List.mem_eraseDups, ← neededKeys_eq]
  constructor
  · intro covers
    have passes : (SeriesSet.blank strategy.neededKeys : SeriesSet Value).checkRequirements
        strategy = .ok () := by
      refine SeriesSet.checkRequirements_eq_ok_iff.2 fun other needed => ⟨?_, ?_⟩
      · exact (SeriesSet.contains_blank_iff _ other).2 needed
      · rw [SeriesSet.barCount, SeriesSet.length_blank, SeriesSet.length_blank]
    exact (SeriesSet.contains_blank_iff _ key).1 (covers _ passes).1
  · exact fun needed set checked => SeriesSet.checkRequirements_eq_ok_iff.1 checked key needed

/-- Whatever a run looks at is covered exactly if the ranges are declared. -/
theorem forall_observed_iff :
    (∀ set : SeriesSet Value, set.checkRequirements strategy = .ok () ->
      ∀ key ∈ strategy.observedKeys, set.Covers key) ↔ strategy.DeclaresRanges := by
  constructor
  · intro covers rule isRule series reads
    have asked : series.key ∈ strategy.collectedKeys :=
      forall_covers_iff.1 fun set checked =>
        covers set checked series.key (mem_observedKeys_of_exit isRule reads)
    exact (mem_collectedKeys_iff.1 asked).resolve_left (series.key_ne_columnKey .close)
  · intro declares set checked key observed
    refine forall_covers_iff.2 (mem_collectedKeys_iff.2 ?_) set checked
    rcases List.mem_cons.1 observed with isClose | observed
    · exact Or.inl isClose
    · rcases List.mem_append.1 observed with ofActions | ofExits
      · exact Or.inr (Or.inl (List.mem_flatMap.1 ofActions))
      · obtain ⟨rule, isRule, ranges⟩ := List.mem_filterMap.1 ofExits
        obtain ⟨series, reads, rfl⟩ := Option.map_eq_some_iff.1 ranges
        exact Or.inr (declares rule isRule series reads)

/-- Compiled strategies declare the ranges of their risk exits. -/
theorem Sound.declaresRanges (sound : strategy.Sound) : strategy.DeclaresRanges := by
  intro rule isRule series reads
  obtain ⟨_, declared⟩ := (sound.exits rule isRule).isDeclared series reads
  exact Or.inr (List.mem_map.1 declared)

/-! ## Missing series -/

section

variable {set : SeriesSet Value} {keys : List String}

theorem mem_absent_iff (set : SeriesSet Value) (key : String) :
    key ∈ strategy.neededKeys.filter (fun key => !set.contains key) ↔
      key ∈ strategy.collectedKeys ∧ set.contains key = false := by
  rw [List.mem_filter, neededKeys_eq, List.mem_eraseDups, Bool.not_eq_true']

theorem exists_missing_iff :
    (∃ keys, set.checkRequirements strategy = .error (.missing keys)) ↔
      ∃ key ∈ strategy.collectedKeys, set.contains key = false := by
  constructor
  · rintro ⟨keys, refused⟩
    obtain ⟨some, rfl⟩ := SeriesSet.checkRequirements_eq_missing_iff.1 refused
    obtain ⟨key, member⟩ := List.exists_mem_of_ne_nil _ some
    exact ⟨key, (mem_absent_iff set key).1 member⟩
  · rintro ⟨key, absent⟩
    exact ⟨_, SeriesSet.checkRequirements_eq_missing_iff.2
      ⟨List.ne_nil_of_mem ((mem_absent_iff set key).2 absent), rfl⟩⟩

/-- Named are the keys that are asked for and absent, in the order of their first uses. -/
theorem missing_keys (refused : set.checkRequirements strategy = .error (.missing keys)) :
    (∀ key, key ∈ keys ↔ key ∈ strategy.collectedKeys ∧ set.contains key = false) ∧
      keys.Pairwise fun first second =>
        strategy.collectedKeys.idxOf first < strategy.collectedKeys.idxOf second := by
  obtain ⟨_, rfl⟩ := SeriesSet.checkRequirements_eq_missing_iff.1 refused
  exact ⟨mem_absent_iff set,
    (pairwise_eraseDups strategy.collectedKeys).sublist List.filter_sublist⟩

end

end

end Strategy

/-! ## Risk exits -/

section

variable [Quantity Value]

/-- The signal of a bar comes from a rule that has its range there. -/
theorem ExitState.range_of_tryRules
    {entry close : Value}
    {rangeOf : IndicatorSeries -> Option Value}
    {rules : List ExitRule}
    {levels : List (Option Value)} :
    ∀ signal ∈ (tryRules entry close rangeOf rules levels).1,
      ∃ rule ∈ rules, rule.node = signal.rule ∧
        ∀ series, rule.atr = some series -> (rangeOf series).isSome = true := by
  induction rules generalizing levels with
  | nil =>
      rw [tryRules.eq_def]
      exact fun signal none => absurd none (Option.not_mem_none signal)
  | cons rule rules hypothesis =>
      cases levels with
      | nil =>
          rw [tryRules.eq_def]
          exact fun signal none => absurd none (Option.not_mem_none signal)
      | cons stored levels =>
          rw [tryRules]
          dsimp only
          split
          next level triggers =>
            intro signal isSignal
            cases isSignal
            refine ⟨rule, List.mem_cons_self, rfl, fun series reads => ?_⟩
            -- Without a range the rule has no level, so nothing can trigger it.
            by_contra absent
            rw [Bool.not_eq_true, Option.isSome_eq_false_iff, Option.isNone_iff_eq_none] at absent
            have holds : levelAt rule entry close (rule.atr.bind rangeOf) stored =
                (none, stored) := by
              rw [levelAt, reads, Option.bind_some, absent]
              rfl
            rw [holds] at triggers
            cases triggers
          next =>
            intro signal isSignal
            obtain ⟨other, member, rest⟩ := hypothesis signal isSignal
            exact ⟨other, List.mem_cons_of_mem rule member, rest⟩

namespace Session

variable
  {strategy : Strategy}
  {set : SeriesSet Value}
  {state : ExitState Value}
  {bar : Nat}
  {node : NodeId}

theorem range_of_tryExits
    (strategy : Strategy)
    (set : SeriesSet Value)
    (state : ExitState Value)
    (bar : Nat) :
    ∀ signal ∈ (tryExits strategy set state bar).1,
      ∃ rule ∈ strategy.exits, rule.node = signal.rule ∧
        ∀ series, rule.atr = some series -> set.contains series.key = true := by
  intro signal isSignal
  obtain ⟨rule, isRule, named, ranges⟩ : ∃ rule ∈ strategy.exits, rule.node = signal.rule ∧
      ∀ series, rule.atr = some series -> (rangeAt? set bar series).isSome = true := by
    rw [tryExits] at isSignal
    split at isSignal
    next => cases isSignal
    next close _ =>
      rw [ExitState.onBar] at isSignal
      split at isSignal
      next => cases isSignal
      next =>
        split at isSignal
        next => cases isSignal
        next => exact ExitState.range_of_tryRules signal isSignal
  refine ⟨rule, isRule, named, fun series reads => ?_⟩
  obtain ⟨value, found⟩ := Option.isSome_iff_exists.1 (ranges series reads)
  obtain ⟨stored, _⟩ := Option.filter_eq_some_iff.1 found
  obtain ⟨values, isThere, _⟩ := Option.bind_eq_some_iff.1 stored
  rw [SeriesSet.contains, isThere]
  rfl

/-- A risk exit closes a position only with its range in the set. -/
theorem range_of_onBar (closes : (onBar strategy set state bar).1 = .riskExit node) :
    ∃ rule ∈ strategy.exits, rule.node = node ∧
      ∀ series, rule.atr = some series -> set.contains series.key = true := by
  rw [onBar] at closes
  split at closes
  next => cases closes
  next =>
    split at closes
    next =>
      have signals := range_of_tryExits strategy set state bar
      rw [decideOpen] at closes
      split at closes
      next signal next tried =>
        rw [tried] at signals
        cases closes
        exact signals signal rfl
      next => split at closes <;> cases closes
    next =>
      rw [decideFlat] at closes
      split at closes
      next => cases closes
      next => split at closes <;> cases closes

theorem range_of_decisions
    {bars : List Nat}
    (closes : .riskExit node ∈ decisions strategy set state bars) :
    ∃ rule ∈ strategy.exits, rule.node = node ∧
      ∀ series, rule.atr = some series -> set.contains series.key = true := by
  induction bars generalizing state with
  | nil => cases closes
  | cons bar bars hypothesis =>
      rcases List.mem_cons.1 closes with first | later
      · exact range_of_onBar first.symm
      · exact hypothesis later

end Session

end

/-! ## Main result -/

namespace Strategy

/-- What a passed check of requirements covers. A series is in all sets that pass, as long as
the closes, exactly if it is the closes, is read by an action or is listed. So everything that
a run looks at is covered exactly if the ranges of the risk exits are among these, as they are
in compiled strategies; and no risk exit closes a position without its range. A check that
fails for want of series names each one that is asked for and absent once, in the order of
first use: the closes, then what the actions read, then what is listed. -/
theorem requirements_cover (Value : Type) [Quantity Value] (strategy : Strategy) :
    (∀ key,
      (∀ set : SeriesSet Value, set.checkRequirements strategy = .ok () -> set.Covers key) ↔
        key = Column.close.key ∨ (∃ rule ∈ strategy.actions, key ∈ rule.predicate.seriesKeys) ∨
          ∃ series ∈ strategy.indicators, series.key = key) ∧
    ((∀ set : SeriesSet Value, set.checkRequirements strategy = .ok () ->
      ∀ key ∈ strategy.observedKeys, set.Covers key) ↔ strategy.DeclaresRanges) ∧
    (∀ (graph : Graph) configuration compilation,
      graph.compile configuration = .ok compilation -> compilation.strategy = strategy ->
        strategy.DeclaresRanges) ∧
    (∀ (set : SeriesSet Value) decisions, strategy.replay set = .ok decisions ->
      ∀ node, .riskExit node ∈ decisions -> ∃ rule ∈ strategy.exits, rule.node = node ∧
        ∀ series, rule.atr = some series -> set.contains series.key = true) ∧
    (∀ set : SeriesSet Value,
      (∃ keys, set.checkRequirements strategy = .error (.missing keys)) ↔
        ∃ key ∈ strategy.collectedKeys, set.contains key = false) ∧
    ∀ (set : SeriesSet Value) keys, set.checkRequirements strategy = .error (.missing keys) ->
      (∀ key, key ∈ keys ↔ key ∈ strategy.collectedKeys ∧ set.contains key = false) ∧
      keys.Pairwise fun first second =>
        strategy.collectedKeys.idxOf first < strategy.collectedKeys.idxOf second := by
  refine ⟨fun key => forall_covers_iff.trans mem_collectedKeys_iff, forall_observed_iff, ?_, ?_,
    fun set => exists_missing_iff, fun set keys => missing_keys⟩
  · rintro graph configuration compilation accepted rfl
    exact (Graph.sound_of_compile accepted).declaresRanges
  · intro set decisions replayed node closes
    rw [eq_decisions_of_replay replayed] at closes
    exact Session.range_of_decisions closes

/-- A strategy that buys on any volume and has a stop in multiples of the listed range. -/
def measured : Strategy where
  indicators := [.averageTrueRange 3]
  actions := [
    ⟨"enter", .buy, .entry, .compare (.price .volume 0) .greater (.literal 0), .allAvailable⟩]
  exits := [⟨"stop", .stopLoss, .atrMultiple, 2, some (.averageTrueRange 3)⟩]
  stateSlots := [.entryPrice]

theorem requirements_cover_measured :
    (∀ set : SeriesSet Float, set.checkRequirements measured = .ok () ->
      ∀ key ∈ ["close", "volume", "atr_3"], set.Covers key) ∧
    (⟨[("volume", #[7])]⟩ : SeriesSet Float).checkRequirements measured =
      .error (.missing ["close", "atr_3"]) ∧
    ["close", "atr_3"].Pairwise fun first second =>
      measured.collectedKeys.idxOf first < measured.collectedKeys.idxOf second := by
  have declares : measured.DeclaresRanges := by
    intro rule isRule series reads
    cases List.mem_singleton.1 isRule
    cases reads
    exact Or.inr ⟨_, List.mem_cons_self, rfl⟩
  have observed : measured.observedKeys = ["close", "volume", "atr_3"] := by
    decide +kernel
  have refused : (⟨[("volume", #[7])]⟩ : SeriesSet Float).checkRequirements measured =
      .error (.missing ["close", "atr_3"]) := by
    decide +kernel
  obtain ⟨_, covers, _, _, _, missing⟩ := requirements_cover Float measured
  exact ⟨fun set checked => observed ▸ covers.2 declares set checked, refused,
    (missing _ _ refused).2⟩

/-- A strategy that buys at any close and has a stop in multiples of a range that it does not
list. -/
def unmeasured : Strategy where
  indicators := []
  actions := [⟨"enter", .buy, .entry, .always, .allAvailable⟩]
  exits := [⟨"stop", .stopLoss, .atrMultiple, 2, some (.averageTrueRange 3)⟩]
  stateSlots := [.entryPrice]

/-- The strategy is read from data like any other, and closes alone pass the check for it,
although its stop looks at the range. The stop stays silent at half the entry price. -/
theorem range_not_checked :
    ofDatum? unmeasured.toDatum = some unmeasured ∧
      "atr_3" ∈ unmeasured.observedKeys ∧
      (⟨[("close", #[100, 50])]⟩ : SeriesSet Float).checkRequirements unmeasured = .ok () ∧
      (⟨[("close", #[100, 50])]⟩ : SeriesSet Float).contains "atr_3" = false ∧
      unmeasured.replay (⟨[("close", #[100, 50])]⟩ : SeriesSet Float) =
        .ok [.enter "enter", .hold] :=
  ⟨rfl, by decide +kernel⟩

end Strategy
end StrategyGraph
