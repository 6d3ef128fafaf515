import StrategyGraph.Proofs.Run.Trailing

/-!
# Risk exits without a range

A risk exit in multiples of a range has no distance while the range is missing or is not an
ordinary number. Such a rule never moves its level, and with one exception it takes no part
in the bar. The exception is a trailing stop that keeps a level and is given a range which is
not an ordinary number: it does not wait, and a close at its level triggers it.
-/

namespace StrategyGraph

namespace ExitRule

variable [Quantity Value] {rule : ExitRule} {reference : Value} {range : Option Value}

/-- The rule measures its distance in multiples of a range, and there is no finite one. -/
def Unmeasured (rule : ExitRule) (range : Option Value) : Prop :=
  rule.basis = .atrMultiple ∧ range.filter Quantity.isFinite = none

theorem distance_eq_none_iff : rule.distance? reference range = none ↔ rule.Unmeasured range := by
  unfold distance? Unmeasured
  cases rule.basis <;> simp

theorem Unmeasured.level_eq_none (unmeasured : rule.Unmeasured range) (reference : Value) :
    rule.level? reference range = none := by
  rw [level?, distance_eq_none_iff.2 unmeasured, Option.map_none]

/-- A level is set for trailing stops alone, and for one in multiples of a range only if it
reads that range. -/
def SetsLevel (rule : ExitRule) : Prop :=
  rule.isTrailing = true ∧ (rule.basis = .atrMultiple -> rule.atr.isSome = true)

/-- A trailing stop is given a range with which it cannot measure its distance, and the close
is at the level that it keeps. -/
structure Overruns
    (rule : ExitRule)
    (close : Value)
    (range stored : Option Value)
    (level : Value) : Prop where
  isGiven : range.isSome = true
  keeps : stored = some level
  isNumber : Quantity.isNaN close = false
  reached : Quantity.atMost close level = true

end ExitRule

namespace ExitState

open ExitRule

/-! ## Calls to the risk exits -/

/-- A call to the risk exits: a position is opened or closed, or a bar is shown. -/
inductive Call (Value : Type) where
  | enter (price : Value)
  | leave
  | bar (close : Value) (rangeOf : IndicatorSeries -> Option Value)

/-- The state without the level of one rule. -/
def without (state : ExitState Value) (position : Nat) : ExitState Value :=
  { state with levels := state.levels.eraseIdx position }

/-- What holds of the state after any calls. -/
structure Recorded (rules : List ExitRule) (state : ExitState Value) : Prop where
  consistent : state.Consistent rules
  setsLevel : List.Forall₂ (fun rule level => level.isSome = true -> rule.SetsLevel) rules
    state.levels

theorem setsLevel_unset (rules : List ExitRule) :
    List.Forall₂ (fun rule (level : Option Value) => level.isSome = true -> rule.SetsLevel) rules
      (rules.map fun _ => none) := by
  refine List.forall₂_map_right_iff.2 (List.forall₂_same.2 fun rule _ set => ?_)
  cases set

theorem recorded_flat (rules : List ExitRule) : (flat rules : ExitState Value).Recorded rules :=
  ⟨consistent_flat rules, setsLevel_unset rules⟩

/-- Without a position no level is stored. -/
theorem Recorded.stored_eq_none
    {rules : List ExitRule}
    {state : ExitState Value}
    (recorded : state.Recorded rules)
    (closed : state.entryPrice = none)
    {position : Nat}
    {stored : Option Value}
    (found : state.levels[position]? = some stored) :
    stored = none := by
  have isFlat : state.isOpen = false := congrArg Option.isSome closed
  rw [recorded.consistent.unset isFlat] at found
  obtain ⟨_, _, unset⟩ := List.mem_map.1 (List.mem_of_getElem? found)
  exact unset.symm

/-- A level stands beside every rule of a list. -/
theorem exists_level_of_forall₂
    {holds : ExitRule -> Option Value -> Prop}
    {rule : ExitRule}
    {earlier later : List ExitRule}
    {levels : List (Option Value)}
    (beside : List.Forall₂ holds (earlier ++ rule :: later) levels) :
    ∃ before stored after, levels = before ++ stored :: after ∧
      before.length = earlier.length ∧ holds rule stored := by
  induction earlier generalizing levels with
  | nil =>
      obtain ⟨stored, after, first, _, rfl⟩ := List.forall₂_cons_left_iff.1 beside
      exact ⟨[], stored, after, rfl, rfl, first⟩
  | cons other earlier hypothesis =>
      obtain ⟨level, levels, _, rest, rfl⟩ := List.forall₂_cons_left_iff.1 beside
      obtain ⟨before, stored, after, rfl, same, found⟩ := hypothesis rest
      exact ⟨level :: before, stored, after, rfl, congrArg Nat.succ same, found⟩

variable [Quantity Value]
variable
  {rules earlier later : List ExitRule}
  {rule : ExitRule}
  {state : ExitState Value}
  {entry close : Value}
  {rangeOf : IndicatorSeries -> Option Value}
  {range stored : Option Value}
  {levels before after : List (Option Value)}

/-- State after a call. -/
def answer (rules : List ExitRule) (state : ExitState Value) : Call Value -> ExitState Value
  | .enter price => state.enter price
  | .leave => state.leave
  | .bar close rangeOf => (state.onBar rules close rangeOf).2

/-- State after a sequence of calls. -/
def afterCalls (rules : List ExitRule) (calls : List (Call Value)) : ExitState Value :=
  calls.foldl (answer rules) (flat rules)

/-- A bar sets a level only for a rule that may have one. -/
theorem setsLevel_of_levelAt
    (kept : stored.isSome = true -> rule.SetsLevel)
    (moved : (levelAt rule entry close (rule.atr.bind rangeOf) stored).2.isSome = true) :
    rule.SetsLevel := by
  rw [levelAt] at moved
  split at moved
  next => exact kept moved
  next =>
    split at moved
    next trails =>
      refine ⟨trails, fun basis => ?_⟩
      cases reads : rule.atr with
      | some series => rfl
      | none =>
          -- Without a series there is no candidate, so the level was set before.
          have unmeasured : rule.Unmeasured (none : Option Value) := ⟨basis, rfl⟩
          rw [reads, Option.bind_none, unmeasured.level_eq_none close] at moved
          have already : stored.isSome = true := by
            cases stored <;> exact moved
          exact reads ▸ (kept already).2 basis
    next => exact kept moved

/-- What every rule keeps of its own level, trying the rules keeps of all levels. -/
theorem forall₂_tryRules_of_kept
    {holds : ExitRule -> Option Value -> Prop}
    (kept : ∀ rule stored, holds rule stored ->
      holds rule (levelAt rule entry close (rule.atr.bind rangeOf) stored).2)
    (beside : List.Forall₂ holds rules levels) :
    List.Forall₂ holds rules (tryRules entry close rangeOf rules levels).2 := by
  induction beside with
  | nil =>
      rw [tryRules.eq_def]
      exact .nil
  | @cons rule stored rules levels first rest hypothesis =>
      rw [tryRules]
      dsimp only
      split
      next => exact .cons (kept rule stored first) rest
      next => exact .cons (kept rule stored first) hypothesis

theorem Recorded.answer (recorded : state.Recorded rules) (call : Call Value) :
    (answer rules state call).Recorded rules := by
  cases call with
  | enter price =>
      rw [ExitState.answer, recorded.consistent.enter_eq price]
      refine ⟨⟨onlyTrailing_unset rules, fun closed => ?_⟩, setsLevel_unset rules⟩
      cases closed
  | leave =>
      rw [ExitState.answer, recorded.consistent.leave_eq]
      exact recorded_flat rules
  | bar close rangeOf =>
      refine ⟨(recorded.consistent.onBar close rangeOf).1, ?_⟩
      rw [ExitState.answer, onBar]
      split
      next => exact recorded.setsLevel
      next =>
        split
        next => exact recorded.setsLevel
        next =>
          exact forall₂_tryRules_of_kept (fun _ _ => setsLevel_of_levelAt) recorded.setsLevel

/-- The state that any calls lead to is on record. -/
theorem recorded_afterCalls (rules : List ExitRule) (calls : List (Call Value)) :
    (afterCalls rules calls).Recorded rules := by
  have run : ∀ state : ExitState Value, state.Recorded rules ->
      (calls.foldl (answer rules) state).Recorded rules := by
    induction calls with
    | nil => exact fun _ recorded => recorded
    | cons call calls hypothesis => exact fun state recorded => hypothesis _ (recorded.answer call)
  exact run (flat rules) (recorded_flat rules)

/-! ## One bar -/

/-- A rule without a distance keeps its level, and has none to trigger at unless it is given a
range. -/
theorem levelAt_of_unmeasured
    (kept : stored.isSome = true -> rule.SetsLevel)
    (unmeasured : rule.Unmeasured range) :
    levelAt rule entry close range stored = (if range.isSome then stored else none, stored) := by
  have unset : rule.SetsLevel ∨ stored = none := by
    cases stored with
    | none => exact Or.inr rfl
    | some level => exact Or.inl (kept rfl)
  have ratcheted : ratchet stored (none : Option Value) = stored := by
    cases stored <;> rfl
  rw [levelAt, unmeasured.level_eq_none close, unmeasured.level_eq_none entry, ratcheted]
  rcases unset with ⟨trails, reads⟩ | rfl
  · rw [trails, reads unmeasured.1]
    cases range <;> rfl
  · cases range <;> simp

/-- Rules are tried after those in front of them, unless one of these triggers. -/
theorem tryRules_append (beside : before.length = earlier.length) :
    tryRules entry close rangeOf (earlier ++ later) (before ++ after) =
      match tryRules entry close rangeOf earlier before with
      | (some signal, levels) => (some signal, levels ++ after)
      | (none, levels) =>
          ((tryRules entry close rangeOf later after).1,
            levels ++ (tryRules entry close rangeOf later after).2) := by
  induction earlier generalizing before with
  | nil =>
      cases List.length_eq_zero_iff.1 beside
      rw [tryRules.eq_def entry close rangeOf []]
      rfl
  | cons rule earlier hypothesis =>
      cases before with
      | nil => cases beside
      | cons stored before =>
          rw [List.cons_append, List.cons_append, tryRules, tryRules]
          dsimp only
          rw [hypothesis (Nat.succ.inj beside)]
          split
          next => rfl
          next =>
            rcases tryRules entry close rangeOf earlier before with ⟨_ | signal, levels⟩
            · rfl
            · rfl

theorem length_tryRules
    (entry close : Value)
    (rangeOf : IndicatorSeries -> Option Value)
    (rules : List ExitRule)
    (levels : List (Option Value)) :
    (tryRules entry close rangeOf rules levels).2.length = levels.length := by
  induction rules generalizing levels with
  | nil => rw [tryRules.eq_def]
  | cons rule rules hypothesis =>
      cases levels with
      | nil => rw [tryRules.eq_def]
      | cons stored levels =>
          rw [tryRules]
          dsimp only
          split
          next => rfl
          next => rw [List.length_cons, hypothesis, List.length_cons]

section

variable
  (isNumber : Quantity.isNaN close = false)
  (kept : stored.isSome = true -> rule.SetsLevel)
  (unmeasured : rule.Unmeasured (rule.atr.bind rangeOf))
  (beside : before.length = earlier.length)

include isNumber kept unmeasured

/-- At a close that is a number, a rule without a distance triggers exactly if the close
overruns it. -/
theorem filter_levelAt_iff (entry level : Value) :
    (levelAt rule entry close (rule.atr.bind rangeOf) stored).1.filter (rule.isBreached close) =
        some level ↔
      rule.Overruns close (rule.atr.bind rangeOf) stored level := by
  have breached : stored = some level ->
      rule.isBreached close level = Quantity.atMost close level := by
    intro isStored
    have trails := (kept (isStored ▸ rfl)).1
    rw [isBreached, isStop_of_isTrailing trails, if_pos rfl]
  rw [levelAt_of_unmeasured kept unmeasured, Option.filter_eq_some_iff]
  constructor
  · rintro ⟨found, triggers⟩
    split at found
    next given => exact ⟨given, found, isNumber, breached found ▸ triggers⟩
    next => cases found
  · rintro ⟨given, isStored, _, reached⟩
    rw [if_pos given, breached isStored]
    exact ⟨isStored, reached⟩

/-- A rule without a distance ends the bar at the level it keeps if the close overruns it. -/
theorem tryRules_cons_of_overruns
    {level : Value}
    (overruns : rule.Overruns close (rule.atr.bind rangeOf) stored level) :
    tryRules entry close rangeOf (rule :: later) (stored :: after) =
      (some ⟨rule.node, rule.kind, level⟩, stored :: after) := by
  have triggers := (filter_levelAt_iff isNumber kept unmeasured entry level).2 overruns
  rw [tryRules]
  dsimp only
  rw [triggers, levelAt_of_unmeasured kept unmeasured]

/-- Otherwise it makes no difference to the rules behind it. -/
theorem tryRules_cons_of_quiet
    (quiet : ∀ level, ¬ rule.Overruns close (rule.atr.bind rangeOf) stored level) :
    tryRules entry close rangeOf (rule :: later) (stored :: after) =
      ((tryRules entry close rangeOf later after).1,
        stored :: (tryRules entry close rangeOf later after).2) := by
  have silent : (levelAt rule entry close (rule.atr.bind rangeOf) stored).1.filter
      (rule.isBreached close) = none := by
    apply Option.eq_none_iff_forall_ne_some.2
    intro level triggers
    exact quiet level ((filter_levelAt_iff isNumber kept unmeasured entry level).1 triggers)
  rw [tryRules]
  dsimp only
  rw [silent, levelAt_of_unmeasured kept unmeasured]

include beside

/-- The bar ends with the rule that the close overruns, unless one in front of it triggers. -/
theorem tryRules_of_overruns
    {level : Value}
    (overruns : rule.Overruns close (rule.atr.bind rangeOf) stored level) :
    tryRules entry close rangeOf (earlier ++ rule :: later) (before ++ stored :: after) =
      ((tryRules entry close rangeOf earlier (before ++ stored :: after)).1.or
          (some ⟨rule.node, rule.kind, level⟩),
        (tryRules entry close rangeOf earlier (before ++ stored :: after)).2) := by
  have alone : tryRules entry close rangeOf (earlier ++ []) (before ++ stored :: after) = _ :=
    tryRules_append beside
  rw [List.append_nil] at alone
  rw [tryRules_append beside, alone,
    tryRules_cons_of_overruns isNumber kept unmeasured overruns]
  rcases tryRules entry close rangeOf earlier before with ⟨_ | signal, levels⟩
  · rw [tryRules.eq_def]
    rfl
  · rfl

/-- A rule without a distance that the close does not overrun makes no difference. -/
theorem tryRules_of_quiet
    (quiet : ∀ level, ¬ rule.Overruns close (rule.atr.bind rangeOf) stored level) :
    tryRules entry close rangeOf (earlier ++ later) (before ++ after) =
      ((tryRules entry close rangeOf (earlier ++ rule :: later) (before ++ stored :: after)).1,
        (tryRules entry close rangeOf (earlier ++ rule :: later)
          (before ++ stored :: after)).2.eraseIdx earlier.length) := by
  have same : (tryRules entry close rangeOf earlier before).2.length = earlier.length :=
    (length_tryRules entry close rangeOf earlier before).trans beside
  rw [tryRules_append beside, tryRules_append beside,
    tryRules_cons_of_quiet isNumber kept unmeasured quiet]
  generalize tryRules entry close rangeOf earlier before = first at same
  obtain ⟨_ | signal, levels⟩ := first <;>
    simp [← same, List.eraseIdx_append_of_length_le]

/-- In any case it keeps its level. -/
theorem getElem_tryRules_of_unmeasured :
    (tryRules entry close rangeOf (earlier ++ rule :: later)
      (before ++ stored :: after)).2[earlier.length]? = some stored := by
  have same : (tryRules entry close rangeOf earlier before).2.length = earlier.length :=
    (length_tryRules entry close rangeOf earlier before).trans beside
  have first : ∃ outcome others,
      tryRules entry close rangeOf (rule :: later) (stored :: after) =
        (outcome, stored :: others) := by
    by_cases quiet : ∀ level, ¬ rule.Overruns close (rule.atr.bind rangeOf) stored level
    · exact ⟨_, _, tryRules_cons_of_quiet isNumber kept unmeasured quiet⟩
    · push Not at quiet
      obtain ⟨level, overruns⟩ := quiet
      exact ⟨_, _, tryRules_cons_of_overruns isNumber kept unmeasured overruns⟩
  obtain ⟨outcome, others, first⟩ := first
  rw [tryRules_append beside, first]
  generalize tryRules entry close rangeOf earlier before = front at same
  obtain ⟨_ | signal, levels⟩ := front <;>
    simp [← same]

end

/-! ## Any state -/

/-- At a close that is a number, the bar of an open position tries the rules. -/
theorem onBar_of_open
    (isOpen : state.entryPrice = some entry)
    (isNumber : Quantity.isNaN close = false) :
    state.onBar rules close rangeOf =
      ((tryRules entry close rangeOf rules state.levels).1,
        ⟨some entry, (tryRules entry close rangeOf rules state.levels).2⟩) := by
  rw [onBar, isOpen]
  simp [isNumber]

/-- Otherwise nothing happens. -/
theorem onBar_of_idle (idle : state.entryPrice = none ∨ Quantity.isNaN close = true) :
    state.onBar rules close rangeOf = (none, state) := by
  rw [onBar]
  split
  next => rfl
  next entry isOpen =>
    rcases idle with closed | notNumber
    · cases isOpen.symm.trans closed
    · rw [if_pos notNumber]

/-- A rule without a distance holds. After any calls its level is kept at any bar, and the bar
is one of a list without the rule. The exception is a trailing stop that the close overruns: it
ends the bar at the level it keeps, unless a rule in front of it triggers. -/
theorem unmeasured_rule_holds
    (listed : rules = earlier ++ rule :: later)
    {calls : List (Call Value)}
    (reached : state = afterCalls rules calls)
    (rangeOf : IndicatorSeries -> Option Value)
    {reference : Value}
    (unmeasured : rule.distance? reference (rule.atr.bind rangeOf) = none)
    (close : Value) :
    ∃ stored, state.levels[earlier.length]? = some stored ∧
      (state.onBar rules close rangeOf).2.levels[earlier.length]? = some stored ∧
      ((∀ level, ¬ rule.Overruns close (rule.atr.bind rangeOf) stored level) ->
        (state.without earlier.length).onBar (earlier ++ later) close rangeOf =
          ((state.onBar rules close rangeOf).1,
            (state.onBar rules close rangeOf).2.without earlier.length)) ∧
      ∀ level, rule.Overruns close (rule.atr.bind rangeOf) stored level ->
        rule.isTrailing = true ∧
        state.onBar rules close rangeOf =
          ((state.onBar earlier close rangeOf).1.or (some ⟨rule.node, rule.kind, level⟩),
            (state.onBar earlier close rangeOf).2) := by
  have lacks := distance_eq_none_iff.1 unmeasured
  have recorded : state.Recorded rules := reached ▸ recorded_afterCalls rules calls
  obtain ⟨before, stored, after, levels, beside, kept⟩ :=
    exists_level_of_forall₂ (listed ▸ recorded.setsLevel)
  have position : state.levels[earlier.length]? = some stored := by
    rw [levels, ← beside]
    simp
  refine ⟨stored, position, ?_⟩
  by_cases idle : state.entryPrice = none ∨ Quantity.isNaN close = true
  · rw [onBar_of_idle idle]
    refine ⟨position, fun _ => onBar_of_idle idle, fun level overruns => ?_⟩
    rcases idle with closed | notNumber
    · have unset := recorded.stored_eq_none closed position
      cases unset.symm.trans overruns.keeps
    · cases overruns.isNumber.symm.trans notNumber
  · push Not at idle
    obtain ⟨entry, isOpen⟩ := Option.ne_none_iff_exists'.1 idle.1
    have isNumber : Quantity.isNaN close = false := Bool.eq_false_iff.2 idle.2
    have shorter : (state.without earlier.length).entryPrice = some entry := isOpen
    rw [onBar_of_open isOpen isNumber, onBar_of_open isOpen isNumber,
      onBar_of_open shorter isNumber, listed, without, levels]
    refine ⟨getElem_tryRules_of_unmeasured isNumber kept lacks beside, fun quiet => ?_,
      fun level overruns => ⟨(kept (overruns.keeps ▸ rfl)).1, ?_⟩⟩
    · have erased : (before ++ stored :: after).eraseIdx earlier.length = before ++ after := by
        simp [← beside, List.eraseIdx_append_of_length_le]
      rw [erased, tryRules_of_quiet isNumber kept lacks beside quiet]
      rfl
    · rw [tryRules_of_overruns isNumber kept lacks beside overruns]

/-- A position with a stop at 80 and a trailing stop at 98. -/
def guarded : ExitState Float :=
  afterCalls Graph.trailedExits [.enter 100, .bar 100 fun _ => some 1]

theorem unmeasured_rule_holds_guarded :
    guarded.levels[1]? = some (some 98) ∧
      (guarded.onBar Graph.trailedExits 90 fun _ => none).2.levels[1]? = some (some 98) ∧
      (guarded.onBar Graph.trailedExits 90 fun _ => none).1 = none := by
  have unmeasured : Graph.trailedExits[1].distance? (90 : Float) none = none := by
    decide +kernel
  have level : guarded.levels[1]? = some (some 98) := by
    decide +kernel
  obtain ⟨stored, before, after, others, _⟩ :=
    unmeasured_rule_holds
      (show Graph.trailedExits = [Graph.trailedExits[0]] ++ Graph.trailedExits[1] :: [] from rfl)
      (show guarded = afterCalls Graph.trailedExits _ from rfl) (fun _ => none) unmeasured 90
  rw [List.length_singleton] at before after others
  rw [List.append_nil] at others
  obtain rfl : stored = some 98 := Option.some.inj (before.symm.trans level)
  refine ⟨level, after, ?_⟩
  have quiet : ∀ level : Float, ¬ Graph.trailedExits[1].Overruns 90 none (some 98) level :=
    fun level overruns => Bool.false_ne_true overruns.isGiven
  have silent :
      ((guarded.without 1).onBar [Graph.trailedExits[0]] 90 fun _ => none).1.isNone = true := by
    decide +kernel
  rw [others quiet] at silent
  dsimp only at silent
  exact Option.isNone_iff_eq_none.1 silent

/-- A range that is no ordinary number is no range to measure a distance with, and yet the
trailing stop does not wait as it does without one. -/
theorem infinite_range_does_not_wait :
    Graph.trailedExits[1].distance? (90 : Float) (some (1 / 0)) = none ∧
      (guarded.onBar Graph.trailedExits 90 fun _ => none).1.isNone = true ∧
      (guarded.onBar Graph.trailedExits 90 fun _ => some (1 / 0)).1.map
        (fun signal => (signal.rule, signal.level)) = some ("trail", 98) := by
  decide +kernel

end ExitState
end StrategyGraph
