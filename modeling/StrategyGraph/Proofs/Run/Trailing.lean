import StrategyGraph.Proofs.Compile.Sound
import StrategyGraph.Proofs.Number.Sign
import StrategyGraph.Proofs.Run.Lifecycle

/-!
# Trailing stops

While a position is open, the level of a trailing stop is the highest of the levels that
the rule has proposed at the closes seen so far. A proposal lies below its close, so a stop
that triggers does so at a level that an earlier, higher close has set.

Bars show positive closes, and the ranges that are there are positive as well; arithmetic
is exact. The step lemma says what one bar makes of the levels of all rules at once, and
the run lemma follows by induction on the bars up to the first signal.
-/

namespace StrategyGraph

/-- What a bar shows to the risk exits: its close and the latest ranges that are there. -/
structure ExitBar where
  close : ℚ
  range? : IndicatorSeries -> Option ℚ
  positive : 0 < close
  positiveRange : ∀ series, ∀ range ∈ range? series, 0 < range

/-- The range that a rule reads at a bar. -/
def ExitBar.rangeFor (bar : ExitBar) (rule : ExitRule) : Option Exact :=
  rule.atr.bind fun series => (bar.range? series).map Exact.number

/-! ## Proposals -/

namespace ExitRule

/-- At the close of a bar the rule proposes a level. -/
def Proposes (rule : ExitRule) (bar : ExitBar) (level : ℚ) : Prop :=
  rule.level? (.number bar.close) (bar.rangeFor rule) = some (.number level)

/-- The levels that the rule proposes at some bars. -/
def proposals (rule : ExitRule) (bars : List ExitBar) : Set ℚ :=
  {level | ∃ bar ∈ bars, rule.Proposes bar level}

/-- A level is the highest one that the rule proposes at some bars; it is unset if there is
no proposal. -/
def IsHighest (rule : ExitRule) (bars : List ExitBar) : Option Exact -> Prop
  | none => ∀ bar ∈ bars, rule.level? (.number bar.close) (bar.rangeFor rule) = none
  | some stored => ∃ level, stored = .number level ∧ IsGreatest (rule.proposals bars) level

/-- A rule triggers with a level at a bar, behind other bars of the position: a trailing
stop with the highest proposal if it has a proposal there and the close is not above the
highest one, any other rule with its level for the entry price if the close has reached it. -/
def TriggersAt
    (rule : ExitRule)
    (entry : Exact)
    (bars : List ExitBar)
    (bar : ExitBar)
    (level : Exact) : Prop :=
  if rule.isTrailing then
    (rule.level? (.number bar.close) (bar.rangeFor rule)).isSome = true ∧
      ∃ highest, IsGreatest (rule.proposals (bars ++ [bar])) highest ∧
        bar.close <= highest ∧ level = .number highest
  else
    rule.level? entry (bar.rangeFor rule) = some level ∧
      rule.isBreached (.number bar.close) level = true

/-- What is known of a compiled rule: a finite and positive magnitude, and a range exactly
for a rule in multiples of it. -/
structure InRange (rule : ExitRule) : Prop where
  finite : rule.magnitude.isFinite = true
  positive : 0 < rule.magnitude
  range : rule.atr.isSome = true ↔ rule.basis = .atrMultiple

variable {rule : ExitRule} {bars : List ExitBar} {bar : ExitBar}

theorem isStop_of_isTrailing (trails : rule.isTrailing = true) : rule.kind.isStop = true := by
  rw [isTrailing, decide_eq_true_iff] at trails
  rw [trails]
  rfl

theorem mem_proposals_snoc_iff {level : ℚ} :
    level ∈ rule.proposals (bars ++ [bar]) ↔
      level ∈ rule.proposals bars ∨ rule.Proposes bar level := by
  simp only [proposals, Set.mem_ofPred_eq, List.mem_append, List.mem_singleton]
  constructor
  · rintro ⟨other, before | rfl, proposes⟩
    · exact Or.inl ⟨other, before, proposes⟩
    · exact Or.inr proposes
  · rintro (⟨other, before, proposes⟩ | proposes)
    · exact ⟨other, Or.inl before, proposes⟩
    · exact ⟨bar, Or.inr rfl, proposes⟩

/-- Without a range at the bar a rule in multiples of it has no level. -/
theorem level_of_waits
    (inRange : rule.InRange)
    (waits : (rule.atr.isSome && (bar.rangeFor rule).isNone) = true)
    (reference : Exact) :
    rule.level? reference (bar.rangeFor rule) = none := by
  rw [Bool.and_eq_true, Option.isNone_iff_eq_none] at waits
  rw [level?, distance?, inRange.range.1 waits.1, waits.2]
  rfl

/-- A distance from a price is a positive number. -/
theorem exists_distance
    (inRange : rule.InRange)
    (proceeds : (rule.atr.isSome && (bar.rangeFor rule).isNone) = false) :
    ∃ distance : ℚ, 0 < distance ∧
      rule.distance? (.number bar.close) (bar.rangeFor rule) = some (.number distance) := by
  have magnitude : (Quantity.ofFloat rule.magnitude : Exact) =
      .number (Binary64.exact rule.magnitude) := Exact.ofFloat_of_isFinite inRange.finite
  have positive := (Binary64.zero_lt_exact_iff inRange.finite).2 inRange.positive
  have close := bar.positive
  rw [distance?, magnitude, Exact.ofFloat_hundred]
  cases basis : rule.basis with
  | percent =>
      refine ⟨bar.close * Binary64.exact rule.magnitude / 100, by positivity, rfl⟩
  | fixedAmount => exact ⟨_, positive, rfl⟩
  | atrMultiple =>
      rw [inRange.range.2 basis, Bool.true_and] at proceeds
      obtain ⟨series, reads⟩ := Option.isSome_iff_exists.1 (inRange.range.2 basis)
      rw [ExitBar.rangeFor, reads, Option.bind_some] at proceeds ⊢
      cases found : bar.range? series with
      | none => rw [found] at proceeds; cases proceeds
      | some range =>
          have wide := bar.positiveRange series range found
          exact ⟨_, mul_pos positive wide, rfl⟩

/-- A stop that does not wait for its range proposes a level below the close. -/
theorem exists_proposal
    (inRange : rule.InRange)
    (stops : rule.kind.isStop = true)
    (proceeds : (rule.atr.isSome && (bar.rangeFor rule).isNone) = false) :
    ∃ level < bar.close, rule.Proposes bar level := by
  obtain ⟨distance, positive, isDistance⟩ := exists_distance inRange proceeds
  refine ⟨bar.close - distance, sub_lt_self _ positive, ?_⟩
  rw [Proposes, level?, isDistance, stops]
  rfl

theorem proposes_unique {first second : ℚ}
    (isFirst : rule.Proposes bar first)
    (isSecond : rule.Proposes bar second) :
    first = second :=
  Exact.number.inj (Option.some.inj (isFirst.symm.trans isSecond))

/-- A stop proposes levels below the close. -/
theorem lt_of_proposes
    (inRange : rule.InRange)
    (stops : rule.kind.isStop = true)
    {level : ℚ}
    (proposes : rule.Proposes bar level) :
    level < bar.close := by
  cases waits : rule.atr.isSome && (bar.rangeFor rule).isNone with
  | true => cases (level_of_waits inRange waits _).symm.trans proposes
  | false =>
      obtain ⟨other, below, isOther⟩ := exists_proposal inRange stops waits
      exact proposes_unique isOther proposes ▸ below

/-- A level that a close has reached was set on an earlier bar with a higher close. -/
theorem exists_peak
    (inRange : rule.InRange)
    (stops : rule.kind.isStop = true)
    {highest : ℚ}
    (isGreatest : IsGreatest (rule.proposals (bars ++ [bar])) highest)
    (reached : bar.close <= highest) :
    ∃ peak ∈ bars, rule.Proposes peak highest ∧ bar.close < peak.close := by
  rcases mem_proposals_snoc_iff.1 isGreatest.1 with ⟨peak, before, proposes⟩ | proposes
  · exact ⟨peak, before, proposes, reached.trans_lt (lt_of_proposes inRange stops proposes)⟩
  · exact absurd reached (not_le.2 (lt_of_proposes inRange stops proposes))

/-- Rules of different nodes stand at one place each. -/
theorem place_unique
    {earlier later earlierToo laterToo : List ExitRule}
    {rule ruleToo : ExitRule}
    (distinct : ((earlier ++ rule :: later).map node).Nodup)
    (split : earlier ++ rule :: later = earlierToo ++ ruleToo :: laterToo)
    (same : ruleToo.node = rule.node) :
    earlierToo = earlier ∧ ruleToo = rule := by
  induction earlier generalizing earlierToo with
  | nil =>
      cases earlierToo with
      | nil =>
          cases split
          exact ⟨rfl, rfl⟩
      | cons head tail =>
          obtain ⟨rfl, rfl⟩ := List.cons.inj split
          rw [List.nil_append, List.map_cons, List.nodup_cons] at distinct
          refine absurd ?_ distinct.1
          rw [← same]
          exact List.mem_map_of_mem (List.mem_append_right tail List.mem_cons_self)
  | cons first earlier hypothesis =>
      rw [List.cons_append, List.map_cons, List.nodup_cons] at distinct
      cases earlierToo with
      | nil =>
          obtain ⟨rfl, rfl⟩ := List.cons.inj split
          refine absurd ?_ distinct.1
          rw [same]
          exact List.mem_map_of_mem (List.mem_append_right earlier List.mem_cons_self)
      | cons head tail =>
          obtain ⟨rfl, rest⟩ := List.cons.inj split
          obtain ⟨rfl, rfl⟩ := hypothesis distinct.2 rest
          exact ⟨rfl, rfl⟩

/-- The highest proposal does not sink when a bar is added. -/
theorem IsHighest.exists_le
    {level : ℚ}
    {after : Option Exact}
    (highest : rule.IsHighest bars (some (.number level)))
    (highestAfter : rule.IsHighest (bars ++ [bar]) after) :
    ∃ higher, level <= higher ∧ after = some (.number higher) := by
  obtain ⟨_, same, isProposal, _⟩ := highest
  cases same
  have still : level ∈ rule.proposals (bars ++ [bar]) :=
    mem_proposals_snoc_iff.2 (Or.inl isProposal)
  cases after with
  | none =>
      obtain ⟨other, member, proposes⟩ := still
      cases (highestAfter other member).symm.trans proposes
  | some stored =>
      obtain ⟨higher, rfl, isGreatest⟩ := highestAfter
      exact ⟨higher, isGreatest.2 still, rfl⟩

end ExitRule

namespace ExitState

open ExitRule

variable {rule : ExitRule} {bars : List ExitBar} {bar : ExitBar}

/-- What a rule that follows the close makes of its level at a bar. -/
theorem levelAt_of_isTrailing
    (inRange : rule.InRange)
    (trails : rule.isTrailing = true)
    (entry : Exact)
    (stored : Option Exact) :
    (rule.level? (.number bar.close) (bar.rangeFor rule) = none ∧
      levelAt rule entry (.number bar.close) (bar.rangeFor rule) stored = (none, stored)) ∨
    ∃ level < bar.close, rule.Proposes bar level ∧
      levelAt rule entry (.number bar.close) (bar.rangeFor rule) stored =
        (ratchet stored (some (.number level)), ratchet stored (some (.number level))) := by
  cases waits : rule.atr.isSome && (bar.rangeFor rule).isNone with
  | true =>
      refine Or.inl ⟨level_of_waits inRange waits _, ?_⟩
      rw [levelAt, waits, if_pos rfl]
  | false =>
      obtain ⟨level, below, proposes⟩ :=
        exists_proposal inRange (isStop_of_isTrailing trails) waits
      refine Or.inr ⟨level, below, proposes, ?_⟩
      rw [levelAt, waits, if_neg Bool.false_ne_true, if_pos trails, proposes]

/-- What any other rule makes of its level. -/
theorem levelAt_of_not_isTrailing
    (inRange : rule.InRange)
    (fixed : rule.isTrailing = false)
    (entry : Exact)
    (stored : Option Exact) :
    levelAt rule entry (.number bar.close) (bar.rangeFor rule) stored =
      (rule.level? entry (bar.rangeFor rule), stored) := by
  cases waits : rule.atr.isSome && (bar.rangeFor rule).isNone with
  | true => rw [levelAt, waits, if_pos rfl, level_of_waits inRange waits]
  | false => rw [levelAt, waits, if_neg Bool.false_ne_true, fixed, if_neg Bool.false_ne_true]

/-- A ratchet keeps the highest proposal. -/
theorem isHighest_ratchet
    {stored : Option Exact}
    {level : ℚ}
    (highest : rule.IsHighest bars stored)
    (proposes : rule.Proposes bar level) :
    ∃ top, ratchet stored (some (.number level)) = some (.number top) ∧
      IsGreatest (rule.proposals (bars ++ [bar])) top := by
  cases stored with
  | none =>
      refine ⟨level, rfl, mem_proposals_snoc_iff.2 (Or.inr proposes), fun other isProposal => ?_⟩
      rcases mem_proposals_snoc_iff.1 isProposal with ⟨earlier, before, isEarlier⟩ | same
      · cases (highest earlier before).symm.trans isEarlier
      · exact (proposes_unique same proposes).le
  | some quantity =>
      obtain ⟨top, rfl, isProposal, bound⟩ := highest
      rw [ratchet, Exact.less_number]
      by_cases higher : top < level
      · refine ⟨level, by rw [decide_eq_true higher, if_pos rfl],
          mem_proposals_snoc_iff.2 (Or.inr proposes), fun other isOther => ?_⟩
        rcases mem_proposals_snoc_iff.1 isOther with before | same
        · exact (bound before).trans higher.le
        · exact (proposes_unique same proposes).le
      · refine ⟨top, by rw [decide_eq_false higher, if_neg Bool.false_ne_true],
          mem_proposals_snoc_iff.2 (Or.inl isProposal), fun other isOther => ?_⟩
        rcases mem_proposals_snoc_iff.1 isOther with before | same
        · exact bound before
        · exact (proposes_unique same proposes).le.trans (not_lt.1 higher)

/-- A bar keeps a trailing level at the highest proposal. -/
theorem isHighest_levelAt
    (inRange : rule.InRange)
    (trails : rule.isTrailing = true)
    (entry : Exact)
    {stored : Option Exact}
    (highest : rule.IsHighest bars stored) :
    rule.IsHighest (bars ++ [bar])
      (levelAt rule entry (.number bar.close) (bar.rangeFor rule) stored).2 := by
  rcases levelAt_of_isTrailing inRange trails entry stored with
    ⟨nothing, kept⟩ | ⟨level, _, proposes, moved⟩
  · -- A rule that waits for its range proposes nothing, so the highest proposal stays.
    rw [kept]
    cases stored with
    | none =>
        intro other member
        rcases List.mem_append.1 member with before | last
        · exact highest other before
        · exact List.mem_singleton.1 last ▸ nothing
    | some quantity =>
        obtain ⟨top, rfl, isGreatest⟩ := highest
        have same : rule.proposals (bars ++ [bar]) = rule.proposals bars := by
          ext other
          rw [mem_proposals_snoc_iff, or_iff_left]
          intro proposes
          cases nothing.symm.trans proposes
        exact ⟨top, rfl, same ▸ isGreatest⟩
  · obtain ⟨top, isTop, isGreatest⟩ := isHighest_ratchet highest proposes
    rw [moved, isTop]
    exact ⟨top, rfl, isGreatest⟩

/-! ## Bars -/

/-- What is known of the level of a rule while a position is open. -/
structure Tracks (bars : List ExitBar) (rule : ExitRule) (stored : Option Exact) : Prop where
  inRange : rule.InRange
  highest : rule.isTrailing = true -> rule.IsHighest bars stored

/-- A rule whose level is tracked triggers where its proposals say so. -/
theorem Tracks.filter_levelAt_iff
    {stored : Option Exact}
    (tracks : Tracks bars rule stored)
    (entry level : Exact) :
    ((levelAt rule entry (.number bar.close) (bar.rangeFor rule) stored).1.filter
        (rule.isBreached (.number bar.close))) = some level ↔
      rule.TriggersAt entry bars bar level := by
  rw [Option.filter_eq_some_iff, TriggersAt]
  cases trails : rule.isTrailing with
  | false =>
      rw [if_neg Bool.false_ne_true, levelAt_of_not_isTrailing tracks.inRange trails]
  | true =>
      have stops := isStop_of_isTrailing trails
      rw [if_pos rfl]
      rcases levelAt_of_isTrailing tracks.inRange trails entry stored with
        ⟨nothing, kept⟩ | ⟨candidate, _, proposes, moved⟩
      · rw [kept, nothing]
        exact iff_of_false (fun found => by cases found.1) fun found => by cases found.1
      · obtain ⟨top, isTop, isGreatest⟩ := isHighest_ratchet (tracks.highest trails) proposes
        have some : (rule.level? (.number bar.close) (bar.rangeFor rule)).isSome = true := by
          rw [proposes]
          rfl
        rw [moved, isTop, ExitRule.isBreached, stops, if_pos rfl]
        constructor
        · rintro ⟨same, breached⟩
          cases same
          rw [Exact.atMost_number, decide_eq_true_iff] at breached
          exact ⟨some, top, isGreatest, breached, rfl⟩
        · rintro ⟨_, highest, isHighest, reached, rfl⟩
          obtain rfl := isHighest.unique isGreatest
          exact ⟨rfl, decide_eq_true reached⟩

section

variable [Quantity Value]
variable
  {before after : ExitRule -> Option Value -> Prop}
  {triggers : ExitRule -> Value -> Prop}
  {entry close : Value}
  {rangeOf : IndicatorSeries -> Option Value}
  {rules : List ExitRule}
  {levels : List (Option Value)}

/-- The signal of a bar is that of the first rule that triggers. -/
theorem tryRules_eq_some_iff
    (each : ∀ rule stored, before rule stored -> ∀ level,
      ((levelAt rule entry close (rule.atr.bind rangeOf) stored).1.filter
        (rule.isBreached close)) = some level ↔ triggers rule level)
    (beside : List.Forall₂ before rules levels)
    (signal : ExitSignal Value) :
    (tryRules entry close rangeOf rules levels).1 = some signal ↔
      ∃ earlier rule later, rules = earlier ++ rule :: later ∧
        (∀ other ∈ earlier, ∀ level, ¬ triggers other level) ∧
        triggers rule signal.level ∧ signal = ⟨rule.node, rule.kind, signal.level⟩ := by
  induction beside with
  | nil =>
      rw [tryRules.eq_def]
      refine iff_of_false (fun found => by cases found) ?_
      rintro ⟨earlier, rule, later, split, _⟩
      exact absurd split.symm (List.append_ne_nil_of_right_ne_nil earlier (List.cons_ne_nil _ _))
  | @cons rule stored rules levels first _ hypothesis =>
      have fires := each rule stored first
      rw [tryRules]
      dsimp only
      cases found : (levelAt rule entry close (rule.atr.bind rangeOf) stored).1.filter
          (rule.isBreached close) with
      | some level =>
          have isTrigger := (fires level).1 found
          constructor
          · intro isSignal
            cases isSignal
            exact ⟨[], rule, rules, rfl, fun _ none => absurd none List.not_mem_nil,
              isTrigger, rfl⟩
          · rintro ⟨earlier, other, later, split, quiet, isOther, shape⟩
            cases earlier with
            | nil =>
                cases split
                have same := (fires signal.level).2 isOther
                rw [found, Option.some.injEq] at same
                rw [shape, same]
            | cons head tail =>
                cases split
                exact absurd isTrigger (quiet rule List.mem_cons_self level)
      | none =>
          have quietRule : ∀ level, ¬ triggers rule level := fun level isTrigger => by
            cases found.symm.trans ((fires level).2 isTrigger)
          refine hypothesis.trans ⟨?_, ?_⟩
          · rintro ⟨earlier, other, later, rfl, quiet, isOther, shape⟩
            refine ⟨rule :: earlier, other, later, rfl, fun any member => ?_, isOther, shape⟩
            rcases List.mem_cons.1 member with rfl | inEarlier
            · exact quietRule
            · exact quiet any inEarlier
          · rintro ⟨earlier, other, later, split, quiet, isOther, shape⟩
            cases earlier with
            | nil =>
                cases split
                exact absurd isOther (quietRule signal.level)
            | cons head tail =>
                cases split
                exact ⟨tail, other, later, rfl,
                  fun any member => quiet any (List.mem_cons_of_mem _ member), isOther, shape⟩

/-- Without a signal every rule moves its own level. -/
theorem forall₂_tryRules
    (step : ∀ rule stored, before rule stored ->
      after rule (levelAt rule entry close (rule.atr.bind rangeOf) stored).2)
    (beside : List.Forall₂ before rules levels)
    (quiet : (tryRules entry close rangeOf rules levels).1 = none) :
    List.Forall₂ after rules (tryRules entry close rangeOf rules levels).2 := by
  induction beside with
  | nil =>
      rw [tryRules.eq_def]
      exact .nil
  | @cons rule stored rules levels first _ hypothesis =>
      have moved := step rule stored first
      rw [tryRules] at quiet ⊢
      dsimp only at quiet ⊢
      split at quiet
      next => cases quiet
      next => exact .cons moved (hypothesis quiet)

end

/-- A bar of exact numbers. -/
def see (rules : List ExitRule) (state : ExitState Exact) (bar : ExitBar) :
    Option (ExitSignal Exact) × ExitState Exact :=
  state.onBar rules (.number bar.close) fun series => (bar.range? series).map .number

/-- What is known of the state while a position is open. -/
structure Follows
    (rules : List ExitRule)
    (entry : Exact)
    (bars : List ExitBar)
    (state : ExitState Exact) : Prop where
  isOpen : state.entryPrice = some entry
  levels : List.Forall₂ (Tracks bars) rules state.levels

variable {rules : List ExitRule} {entry : Exact} {state : ExitState Exact}

theorem Follows.see_eq (follows : Follows rules entry bars state) (bar : ExitBar) :
    state.see rules bar =
      ((tryRules entry (.number bar.close) (fun series => (bar.range? series).map .number)
        rules state.levels).1,
      { state with
        levels := (tryRules entry (.number bar.close)
          (fun series => (bar.range? series).map .number) rules state.levels).2 }) := by
  rw [see, onBar, follows.isOpen]
  rfl

/-- A bar without a signal is followed. -/
theorem Follows.see
    (follows : Follows rules entry bars state)
    (quiet : (state.see rules bar).1 = none) :
    Follows rules entry (bars ++ [bar]) (state.see rules bar).2 := by
  rw [follows.see_eq] at quiet ⊢
  refine ⟨follows.isOpen, forall₂_tryRules ?_ follows.levels quiet⟩
  intro rule stored tracks
  exact ⟨tracks.inRange, fun trails => isHighest_levelAt tracks.inRange trails entry
    (tracks.highest trails)⟩

/-- A bar signals for the first rule that triggers. -/
theorem Follows.signal_iff
    (follows : Follows rules entry bars state)
    (bar : ExitBar)
    (signal : ExitSignal Exact) :
    (state.see rules bar).1 = some signal ↔
      ∃ earlier rule later, rules = earlier ++ rule :: later ∧
        (∀ other ∈ earlier, ∀ level, ¬ other.TriggersAt entry bars bar level) ∧
        rule.TriggersAt entry bars bar signal.level ∧
        signal = ⟨rule.node, rule.kind, signal.level⟩ := by
  rw [follows.see_eq]
  exact tryRules_eq_some_iff (fun _ _ tracks level => tracks.filter_levelAt_iff entry level)
    follows.levels signal

/-- A bar signals for a rule if the rule triggers and none before it does. -/
theorem Follows.signal_rule_iff
    (follows : Follows rules entry bars state)
    (distinct : (rules.map ExitRule.node).Nodup)
    {earlier later : List ExitRule}
    (isRule : rules = earlier ++ rule :: later)
    (bar : ExitBar)
    (signal : ExitSignal Exact) :
    ((state.see rules bar).1 = some signal ∧ signal.rule = rule.node) ↔
      (rule.TriggersAt entry bars bar signal.level ∧
        ∀ other ∈ earlier, ∀ level, ¬ other.TriggersAt entry bars bar level) ∧
      signal = ⟨rule.node, rule.kind, signal.level⟩ := by
  rw [follows.signal_iff bar signal]
  constructor
  · rintro ⟨⟨before, other, behind, split, quiet, triggers, shape⟩, named⟩
    have sameNode : other.node = rule.node := (congrArg ExitSignal.rule shape).symm.trans named
    obtain ⟨rfl, rfl⟩ := place_unique (isRule ▸ distinct) (isRule.symm.trans split) sameNode
    exact ⟨⟨triggers, quiet⟩, shape⟩
  · rintro ⟨⟨triggers, quiet⟩, shape⟩
    exact ⟨⟨earlier, rule, later, isRule, quiet, triggers, shape⟩, congrArg ExitSignal.rule shape⟩

/-- The level of a rule is found under its node. -/
theorem Follows.tracks_trailingLevel
    (follows : Follows rules entry bars state)
    (distinct : (rules.map ExitRule.node).Nodup)
    (member : rule ∈ rules) :
    Tracks bars rule (trailingLevel? rules state rule.node) := by
  obtain ⟨index, bound, rfl⟩ := List.mem_iff_getElem.1 member
  have place : rules.findIdx? (fun other => other.node == rules[index].node) = some index := by
    have different := List.pairwise_iff_getElem.1 (List.pairwise_map.1 distinct)
    refine List.findIdx?_eq_some_iff_getElem.2
      ⟨bound, beq_self_eq_true _, fun earlier before => ?_⟩
    rw [beq_iff_eq]
    exact different earlier index (Nat.lt_trans before bound) bound before
  obtain ⟨sameLength, each⟩ := List.forall₂_iff_get.1 follows.levels
  have tracks := each index bound (sameLength ▸ bound)
  rw [trailingLevel?, place, Option.bind_some, List.getElem?_eq_getElem (sameLength ▸ bound)]
  exact tracks

/-! ## Runs -/

/-- State behind several bars. -/
def seeAll (rules : List ExitRule) (state : ExitState Exact) (bars : List ExitBar) :
    ExitState Exact :=
  bars.foldl (fun state bar => (state.see rules bar).2) state

/-- None of several bars has a signal. -/
def Quiet (rules : List ExitRule) (state : ExitState Exact) : List ExitBar -> Prop
  | [] => True
  | bar :: bars =>
      (state.see rules bar).1 = none ∧ Quiet rules (state.see rules bar).2 bars

/-- Bars without a signal are followed. -/
theorem Follows.seeAll
    (follows : Follows rules entry bars state)
    {more : List ExitBar}
    (quiet : Quiet rules state more) :
    Follows rules entry (bars ++ more) (state.seeAll rules more) := by
  induction more generalizing bars state with
  | nil => rwa [List.append_nil]
  | cons bar more hypothesis =>
      rw [List.append_cons]
      exact hypothesis (follows.see quiet.1) quiet.2

/-- A position is followed from its start. -/
theorem follows_enter
    (inRange : ∀ rule ∈ rules, rule.InRange)
    (consistent : state.Consistent rules)
    (price : Exact) :
    Follows rules price [] (state.enter price) := by
  rw [consistent.enter_eq]
  refine ⟨rfl, List.forall₂_map_right_iff.2 (List.forall₂_same.2 fun rule member => ?_)⟩
  exact ⟨inRange rule member, fun _ bar none => absurd none List.not_mem_nil⟩

end ExitState

/-! ## Compiled strategies -/

namespace Graph

open ExitState

variable {graph : Graph} {configuration : Configuration} {compilation : Compilation}

/-- Risk exits have the identities of exit nodes, in node order. -/
theorem node_plannedExits (graph : Graph) :
    graph.plannedExits.map PlannedExit.node = graph.exits.map Node.id := by
  rw [plannedExits, exits, List.map_filterMap, ← List.filterMap_eq_map, List.filterMap_filter]
  refine List.filterMap_congr fun node _ => ?_
  rw [Node.isExit]
  cases node.kind <;> rfl

/-- Compiled risk exits belong to different nodes. -/
theorem distinct_exits_of_compile (accepted : graph.compile configuration = .ok compilation) :
    (compilation.strategy.exits.map ExitRule.node).Nodup := by
  obtain ⟨valid, rfl, planned, compiles⟩ := compilesTo_of_compile accepted
  have identities : (compilation.strategy.exits.map ExitRule.node) =
      valid.graph.exits.map Node.id := by
    rw [compiles.exits, List.map_map, ← node_plannedExits]
    rfl
  rw [identities]
  exact (distinct_of_check valid.checked).sublist (List.filter_sublist.map Node.id)

/-- Compiled risk exits have positive magnitudes. -/
theorem exits_inRange_of_compile (accepted : graph.compile configuration = .ok compilation) :
    ∀ rule ∈ compilation.strategy.exits, rule.InRange := by
  intro rule member
  have sound := (sound_of_compile accepted).exits rule member
  obtain ⟨valid, rfl, planned, compiles⟩ := compilesTo_of_compile accepted
  rw [compiles.exits] at member
  obtain ⟨exit, isPlanned, rfl⟩ := List.mem_map.1 member
  obtain ⟨node, isNode, isExit⟩ := List.mem_filterMap.1 isPlanned
  have inRange := (wellFormed_of_check valid.checked).parameters node isNode
  split at isExit
  next kind basis magnitude atrPeriod isKind =>
    cases isExit
    rw [Node.InRange, isKind] at inRange
    exact ⟨sound.finite, inRange.positive, sound.range⟩
  next => cases isExit

/-- Trailing stops follow the highest close. A position is open and several bars have been
seen without a signal. Then the level of every trailing stop is the highest of its proposals
at these bars, and is unset if it had none; another bar without a signal does not lower it.
A trailing stop is the one that signals at the next bar exactly when it has a proposal there,
the close is not above the highest of all proposals, that at the next bar included, and no
rule before it triggers. The signal has this highest level, and it was proposed at an earlier
bar with a higher close. -/
theorem trailing_stops_ratchet
    (accepted : graph.compile configuration = .ok compilation)
    {exits earlier later : List ExitRule}
    {rule : ExitRule}
    (areExits : compilation.strategy.exits = exits)
    (isRule : exits = earlier ++ rule :: later)
    (trails : rule.isTrailing = true)
    {state : ExitState Exact}
    (consistent : state.Consistent exits)
    (price : Exact)
    {bars : List ExitBar}
    (quiet : Quiet exits (state.enter price) bars)
    {now : ExitState Exact}
    (isNow : now = (state.enter price).seeAll exits bars) :
    rule.IsHighest bars (now.trailingLevel? exits rule.node) ∧
    ∀ bar : ExitBar,
      ((now.see exits bar).1 = none -> ∀ level,
        now.trailingLevel? exits rule.node = some (.number level) ->
          ∃ higher, level <= higher ∧
            (now.see exits bar).2.trailingLevel? exits rule.node = some (.number higher)) ∧
      ((∃ signal ∈ (now.see exits bar).1, signal.rule = rule.node) ↔
        (rule.level? (.number bar.close) (bar.rangeFor rule)).isSome = true ∧
        (∃ highest, IsGreatest (rule.proposals (bars ++ [bar])) highest ∧
          bar.close <= highest) ∧
        ∀ other ∈ earlier, ∀ level, ¬ other.TriggersAt price bars bar level) ∧
      ∀ signal ∈ (now.see exits bar).1, signal.rule = rule.node ->
        ∃ highest, signal.level = .number highest ∧
          IsGreatest (rule.proposals (bars ++ [bar])) highest ∧
          ∃ peak ∈ bars, rule.Proposes peak highest ∧ bar.close < peak.close := by
  subst areExits isNow
  have distinct := distinct_exits_of_compile accepted
  have member : rule ∈ compilation.strategy.exits :=
    isRule ▸ List.mem_append_right earlier List.mem_cons_self
  have inRange := exits_inRange_of_compile accepted
  have follows := (follows_enter inRange consistent price).seeAll quiet
  rw [List.nil_append] at follows
  have highest := (follows.tracks_trailingLevel distinct member).highest trails
  refine ⟨highest, fun bar => ⟨fun silent level isLevel => ?_, ?_, ?_⟩⟩
  · have after := ((follows.see silent).tracks_trailingLevel distinct member).highest trails
    rw [isLevel] at highest
    exact highest.exists_le after
  · constructor
    · rintro ⟨signal, isSignal, named⟩
      obtain ⟨⟨triggers, first⟩, _⟩ :=
        (follows.signal_rule_iff distinct isRule bar signal).1 ⟨isSignal, named⟩
      rw [ExitRule.TriggersAt, if_pos trails] at triggers
      obtain ⟨proposes, top, isGreatest, reached, _⟩ := triggers
      exact ⟨proposes, ⟨top, isGreatest, reached⟩, first⟩
    · rintro ⟨proposes, ⟨top, isGreatest, reached⟩, first⟩
      have triggers : rule.TriggersAt price bars bar (.number top) := by
        rw [ExitRule.TriggersAt, if_pos trails]
        exact ⟨proposes, top, isGreatest, reached, rfl⟩
      exact ⟨_, (follows.signal_rule_iff distinct isRule bar ⟨rule.node, rule.kind, _⟩).2
        ⟨⟨triggers, first⟩, rfl⟩⟩
  · intro signal isSignal named
    obtain ⟨⟨triggers, _⟩, _⟩ :=
      (follows.signal_rule_iff distinct isRule bar signal).1 ⟨isSignal, named⟩
    rw [ExitRule.TriggersAt, if_pos trails] at triggers
    obtain ⟨_, top, isGreatest, reached, same⟩ := triggers
    exact ⟨top, same, isGreatest, ExitRule.exists_peak (inRange rule member)
      (ExitRule.isStop_of_isTrailing trails) isGreatest reached⟩

/-- A stop in percent before a trailing stop that waits for its range. -/
def trailed : Graph where
  nodes := [
    ⟨"high", .condition (.price .close) ⟨.greater, some 100, 0, 0⟩⟩,
    ⟨"enter", .action .buy .allAvailable none⟩,
    ⟨"stop", .exit .stopLoss .percent 20 none⟩,
    ⟨"trail", .exit .trailingStop .atrMultiple 2 (some 3)⟩]
  edges := [⟨"1", "high", "enter", .flow⟩]

/-- The range that the trailing stop of `trailed` reads. -/
def trailedRange : IndicatorSeries :=
  .averageTrueRange 3

/-- The risk exits of `trailed`. -/
def trailedExits : List ExitRule :=
  [⟨"stop", .stopLoss, .percent, 20, none⟩,
    ⟨"trail", .trailingStop, .atrMultiple, 2, some trailedRange⟩]

/-- Bars that rise without a range, rise with one and fall back with a wider one. -/
def risingBars : List ExitBar :=
  [⟨110, fun _ => none, by norm_num, by simp⟩,
    ⟨130, fun _ => some 5, by norm_num, by simp⟩,
    ⟨128, fun _ => some 10, by norm_num, by simp⟩]

/-- A bar on which the close falls behind the trailing stop. -/
def fallingBar : ExitBar :=
  ⟨115, fun _ => some 4, by norm_num, by simp⟩

theorem trailing_stops_ratchet_rising :
    ∃ compilation, trailed.compile .default = .ok compilation ∧
      compilation.strategy.exits = trailedExits ∧
      ∃ now, now = ((flat trailedExits).enter (.number 100)).seeAll trailedExits risingBars ∧
        now.trailingLevel? trailedExits "trail" = some (.number 120) ∧
        ∃ signal ∈ (now.see trailedExits fallingBar).1,
          signal.rule = "trail" ∧ signal.level = .number 120 ∧
          ∃ peak ∈ risingBars, fallingBar.close < peak.close := by
  have computed : (trailed.compile .default).toOption.map (fun compilation =>
      compilation.strategy.exits) = some trailedExits := by
    decide +kernel
  obtain ⟨compilation, found, areExits⟩ := Option.map_eq_some_iff.1 computed
  have accepted := Outcome.toOption_eq_some_iff.1 found
  refine ⟨compilation, accepted, areExits, _, rfl, by decide +kernel, ?_⟩
  have quiet : Quiet trailedExits ((flat trailedExits).enter (.number 100)) risingBars :=
    ⟨by decide +kernel, by decide +kernel, by decide +kernel, trivial⟩
  obtain ⟨_, next⟩ := trailing_stops_ratchet accepted areExits
    (show trailedExits = [trailedExits[0]] ++ trailedExits[1] :: [] from rfl) rfl
    (consistent_flat trailedExits) (.number 100) quiet rfl
  obtain ⟨_, _, peaks⟩ := next fallingBar
  have signals : ((((flat trailedExits).enter (.number 100)).seeAll trailedExits risingBars).see
      trailedExits fallingBar).1.map (fun signal => (signal.rule, signal.level)) =
      some ("trail", .number 120) := by
    decide +kernel
  obtain ⟨signal, isSignal, shape⟩ := Option.map_eq_some_iff.1 signals
  obtain ⟨named, isLevel⟩ := Prod.mk.inj shape
  obtain ⟨_, _, _, peak, before, _, higher⟩ := peaks signal isSignal named
  exact ⟨signal, isSignal, named, isLevel, peak, before, higher⟩

end Graph
end StrategyGraph
