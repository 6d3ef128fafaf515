import StrategyGraph.Proofs.Number.Special
import StrategyGraph.Proofs.Run.MissingRange

/-!
# Infinite closes

Closes that are NaN are passed over by the risk exits, infinite ones are not. From an infinite
close a trailing stop may propose NaN for its level: the difference of an infinity and itself.
A level that is a number never gives way to it, but one that is not set yet takes anything,
and a level of NaN neither moves nor triggers before the position is closed.
-/

namespace StrategyGraph

/-! ## Candidates -/

namespace ExitRule

/-- An infinite close at which the distance of the rule is the same infinity. A distance in
percent always is, a fixed one never, and one in multiples of a range if the multiple is too
large for a double. -/
def SpoiledBy (rule : ExitRule) (close : Float) (range : Option Float) : Prop :=
  close.isInf = true ∧
    match rule.basis with
    | .percent => True
    | .fixedAmount => False
    | .atrMultiple =>
        ∃ value, range = some value ∧ value.isFinite = true ∧
          (close == rule.magnitude * value) = true

variable {rule : ExitRule} {close : Float} {range : Option Float}

/-- What the distance of a compiled rule is at a close that is a number. -/
theorem distance_of_number
    (inRange : rule.InRange)
    (number : close.isNaN = false)
    {distance : Float}
    (isDistance : rule.distance? close range = some distance) :
    distance.isNaN = false ∧
      (rule.SpoiledBy close range ↔ close.isInf = true ∧ (close == distance) = true) := by
  have finite := inRange.finite
  have positive := inRange.positive
  unfold distance? at isDistance
  unfold SpoiledBy
  cases basis : rule.basis with
  | percent =>
      rw [basis] at isDistance
      obtain rfl : close * rule.magnitude / 100 = distance := Option.some.inj isDistance
      refine ⟨Binary64.isNaN_div (Binary64.isNaN_mul number finite positive) (by decide)
        (by decide), and_congr_right fun infinite => iff_of_true trivial ?_⟩
      exact Binary64.beq_mul_div_of_isInf infinite finite positive (by decide) (by decide)
  | fixedAmount =>
      rw [basis] at isDistance
      obtain rfl : rule.magnitude = distance := Option.some.inj isDistance
      refine ⟨Binary64.isNaN_of_isFinite finite, and_congr_right fun infinite => ?_⟩
      exact iff_of_false id (Bool.eq_false_iff.1 (Binary64.not_beq_of_isFinite infinite finite))
  | atrMultiple =>
      rw [basis] at isDistance
      obtain ⟨value, isRange, rfl⟩ := Option.map_eq_some_iff.1 isDistance
      obtain ⟨rfl, isFinite⟩ := Option.filter_eq_some_iff.1 isRange
      refine ⟨Binary64.isNaN_pos_mul (Binary64.isNaN_of_isFinite isFinite) finite positive, ?_⟩
      refine and_congr_right fun infinite => ?_
      constructor
      · rintro ⟨_, same, _, reached⟩
        cases same
        exact reached
      · intro reached
        exact ⟨value, rfl, isFinite, reached⟩

/-- The candidate of a trailing stop is NaN exactly if the close has spoiled it. -/
theorem isNaN_level_iff
    (inRange : rule.InRange)
    (trails : rule.isTrailing = true)
    (number : close.isNaN = false)
    {level : Float}
    (proposed : rule.level? close range = some level) :
    level.isNaN = true ↔ rule.SpoiledBy close range := by
  obtain ⟨distance, isDistance, isLevel⟩ := Option.map_eq_some_iff.1 proposed
  rw [if_pos (isStop_of_isTrailing trails)] at isLevel
  obtain rfl : close - distance = level := isLevel
  obtain ⟨distanceNumber, spoiled⟩ := distance_of_number inRange number isDistance
  rw [Binary64.isNaN_sub_iff number distanceNumber, spoiled]

end ExitRule

namespace ExitState

open ExitRule

/-! ## One bar -/

variable
  {rules : List ExitRule}
  {rule : ExitRule}
  {position : Nat}
  {close : Float}
  {rangeOf : IndicatorSeries -> Option Float}
  {range stored kept : Option Float}
  {level : Float}

/-- What a bar may make of the level of a rule: it stays, or a trailing stop moves it up to its
candidate at a close that is a number. -/
inductive Moves
    (rule : ExitRule)
    (close : Float)
    (range stored : Option Float) : Option Float -> Prop
  | stays : Moves rule close range stored stored
  | ratchets
      (trails : rule.isTrailing = true)
      (number : close.isNaN = false) :
      Moves rule close range stored (ratchet stored (rule.level? close range))

/-- A level that is a number stays one and is not lowered. -/
theorem Moves.exists_higher
    (moves : Moves rule close range (some level) kept)
    (number : level.isNaN = false) :
    ∃ higher, kept = some higher ∧ higher.isNaN = false ∧ level <= higher := by
  have same : level <= level := Binary64.le_refl_of_number number
  cases moves with
  | stays => exact ⟨level, rfl, number, same⟩
  | ratchets trails closeNumber =>
      cases rule.level? close range with
      | none => exact ⟨level, rfl, number, same⟩
      | some candidate =>
          by_cases above : level < candidate
          · have candidateNumber : candidate.isNaN = false := by
              by_contra missing
              exact Binary64.not_lt_of_isNaN (Or.inr (Bool.not_eq_false _ ▸ missing)) above
            refine ⟨candidate, ?_, candidateNumber, Binary64.le_of_lt above⟩
            exact if_pos (decide_eq_true above)
          · refine ⟨level, ?_, number, same⟩
            exact if_neg fun below => above (of_decide_eq_true below)

/-- A level of NaN stays what it is, as it is not below any candidate. -/
theorem ratchet_of_isNaN (missing : level.isNaN = true) (candidate : Option Float) :
    ratchet (some level) candidate = some level := by
  cases candidate with
  | none => rfl
  | some candidate =>
      exact if_neg fun below =>
        Binary64.not_lt_of_isNaN (Or.inl missing) (of_decide_eq_true below)

theorem Moves.eq_of_isNaN
    (moves : Moves rule close range (some level) kept)
    (missing : level.isNaN = true) :
    kept = some level := by
  cases moves with
  | stays => rfl
  | ratchets => exact ratchet_of_isNaN missing _

/-- A level that is not set takes any candidate, and this is NaN if the close has spoiled it. -/
theorem Moves.isNaN_iff
    (inRange : rule.InRange)
    (moves : Moves rule close range none (some level)) :
    level.isNaN = true ↔ rule.SpoiledBy close range := by
  generalize unset : (none : Option Float) = stored at moves
  generalize set : some level = kept at moves
  cases moves with
  | stays => cases unset.trans set.symm
  | ratchets trails closeNumber =>
      subst unset
      have proposed : rule.level? close range = some level := by
        rw [set]
        cases rule.level? close range <;> rfl
      exact isNaN_level_iff inRange trails closeNumber proposed

theorem moves_levelAt
    (entry : Float)
    (number : close.isNaN = false) :
    Moves rule close range stored (levelAt rule entry close range stored).2 := by
  rw [levelAt]
  split
  next => exact .stays
  next =>
    split
    next trails => exact .ratchets trails number
    next => exact .stays

/-- Trying the rules moves the level of each or leaves it. -/
theorem exists_moves_tryRules
    {entry : Float}
    (number : close.isNaN = false)
    {levels : List (Option Float)}
    (isRule : rules[position]? = some rule)
    (isStored : levels[position]? = some stored) :
    ∃ kept, (tryRules entry close rangeOf rules levels).2[position]? = some kept ∧
      Moves rule close (rule.atr.bind rangeOf) stored kept := by
  induction rules generalizing levels position with
  | nil => cases isRule
  | cons first rules hypothesis =>
      cases levels with
      | nil => cases isStored
      | cons level levels =>
          rw [tryRules]
          dsimp only
          cases position with
          | zero =>
              cases isRule
              cases isStored
              have moves := @moves_levelAt rule close (rule.atr.bind rangeOf) stored entry number
              split
              next => exact ⟨_, rfl, moves⟩
              next => exact ⟨_, rfl, moves⟩
          | succ position =>
              split
              next => exact ⟨stored, isStored, .stays⟩
              next => exact hypothesis isRule isStored

/-- A bar moves the level of each rule or leaves it. -/
theorem exists_moves_onBar
    {state : ExitState Float}
    (isRule : rules[position]? = some rule)
    (isStored : state.levels[position]? = some stored) :
    ∃ kept, (state.onBar rules close rangeOf).2.levels[position]? = some kept ∧
      Moves rule close (rule.atr.bind rangeOf) stored kept := by
  by_cases idle : state.entryPrice = none ∨ Quantity.isNaN close = true
  · rw [onBar_of_idle idle]
    exact ⟨stored, isStored, .stays⟩
  · push Not at idle
    obtain ⟨entry, isOpen⟩ := Option.ne_none_iff_exists'.1 idle.1
    have number : close.isNaN = false := Bool.eq_false_iff.2 idle.2
    rw [onBar_of_open isOpen number]
    exact exists_moves_tryRules number isRule isStored

/-- A signal is one of a rule at its level. -/
theorem exists_rule_of_signal
    {entry : Float}
    {levels : List (Option Float)}
    {signal : ExitSignal Float}
    (signals : (tryRules entry close rangeOf rules levels).1 = some signal) :
    ∃ (position : Nat) (rule : ExitRule) (stored : Option Float),
      rules[position]? = some rule ∧ levels[position]? = some stored ∧
      signal.rule = rule.node ∧
      (levelAt rule entry close (rule.atr.bind rangeOf) stored).1.filter
        (rule.isBreached close) = some signal.level := by
  induction rules generalizing levels with
  | nil =>
      rw [tryRules.eq_def] at signals
      cases signals
  | cons first rules hypothesis =>
      cases levels with
      | nil =>
          rw [tryRules.eq_def] at signals
          cases signals
      | cons level levels =>
          rw [tryRules] at signals
          dsimp only at signals
          split at signals
          next triggered found =>
            cases signals
            exact ⟨0, first, level, rfl, rfl, rfl, found⟩
          next =>
            obtain ⟨position, rule, stored, isRule, isStored, others⟩ := hypothesis signals
            exact ⟨position + 1, rule, stored, isRule, isStored, others⟩

/-- No close reaches a level of NaN. -/
theorem filter_levelAt_of_isNaN
    (trails : rule.isTrailing = true)
    (missing : level.isNaN = true)
    (entry : Float) :
    (levelAt rule entry close range (some level)).1.filter (rule.isBreached close) = none := by
  have silent : rule.isBreached close level = false := by
    rw [isBreached, isStop_of_isTrailing trails, if_pos rfl]
    exact decide_eq_false (Binary64.not_le_of_isNaN (Or.inr missing))
  rw [levelAt]
  split
  next => rfl
  next =>
    dsimp only
    rw [ratchet_of_isNaN missing, Option.filter_some, silent]
    rfl

/-! ## Sequences of calls -/

/-- The call shows a bar. -/
def Call.IsBar (call : Call Float) : Prop :=
  ∃ close rangeOf, call = .bar close rangeOf

theorem afterCalls_snoc (calls : List (Call Float)) (call : Call Float) :
    afterCalls rules (calls ++ [call]) = answer rules (afterCalls rules calls) call := by
  rw [afterCalls, List.foldl_append]
  rfl

/-- After any calls there is a level, set or not, for every rule. -/
theorem exists_stored
    (isRule : rules[position]? = some rule)
    (calls : List (Call Float)) :
    ∃ stored, (afterCalls rules calls).levels[position]? = some stored := by
  obtain ⟨inside, _⟩ := List.getElem?_eq_some_iff.1 isRule
  have beside := (recorded_afterCalls rules calls).setsLevel.length_eq
  exact ⟨_, List.getElem?_eq_getElem (beside ▸ inside)⟩

/-- A bar after any calls moves the level of each rule or leaves it. -/
theorem exists_moves
    (isRule : rules[position]? = some rule)
    {calls : List (Call Float)}
    (isStored : (afterCalls rules calls).levels[position]? = some stored)
    (close : Float)
    (rangeOf : IndicatorSeries -> Option Float) :
    ∃ kept,
      (afterCalls rules (calls ++ [.bar close rangeOf])).levels[position]? = some kept ∧
        Moves rule close (rule.atr.bind rangeOf) stored kept := by
  rw [afterCalls_snoc]
  exact exists_moves_onBar isRule isStored

/-- Opening and closing a position leave no level. -/
theorem eq_none_of_not_isBar
    {calls : List (Call Float)}
    {call : Call Float}
    (other : ¬ call.IsBar)
    (isStored : (afterCalls rules (calls ++ [call])).levels[position]? = some stored) :
    stored = none := by
  rw [afterCalls_snoc] at isStored
  cases call with
  | enter price | leave =>
      obtain ⟨_, _, unset⟩ := List.mem_map.1 (List.mem_of_getElem? isStored)
      exact unset.symm
  | bar close rangeOf => exact absurd ⟨close, rangeOf, rfl⟩ other

/-- The level of a rule has been set at a bar that spoiled it, and only bars have followed. -/
def Spoiled
    (rules : List ExitRule)
    (position : Nat)
    (rule : ExitRule)
    (calls : List (Call Float)) : Prop :=
  ∃ earlier close rangeOf later,
    calls = earlier ++ .bar close rangeOf :: later ∧ (∀ call ∈ later, call.IsBar) ∧
      (afterCalls rules earlier).levels[position]? = some none ∧
      (afterCalls rules (earlier ++ [.bar close rangeOf])).levels[position]? ≠ some none ∧
      rule.SpoiledBy close (rule.atr.bind rangeOf)

theorem Spoiled.snoc
    {calls : List (Call Float)}
    {call : Call Float}
    (spoiled : Spoiled rules position rule calls)
    (isBar : call.IsBar) :
    Spoiled rules position rule (calls ++ [call]) := by
  obtain ⟨earlier, close, rangeOf, later, rfl, areBars, others⟩ := spoiled
  refine ⟨earlier, close, rangeOf, later ++ [call], by simp, ?_, others⟩
  rw [List.forall_mem_append]
  exact ⟨areBars, List.forall_mem_singleton.2 isBar⟩

/-- Bars do not move a level of NaN. -/
theorem stored_of_isNaN
    (isRule : rules[position]? = some rule)
    (missing : level.isNaN = true)
    {calls bars : List (Call Float)}
    (areBars : ∀ call ∈ bars, call.IsBar)
    (isStored : (afterCalls rules calls).levels[position]? = some (some level)) :
    (afterCalls rules (calls ++ bars)).levels[position]? = some (some level) := by
  induction bars generalizing calls with
  | nil => rwa [List.append_nil]
  | cons call bars hypothesis =>
      obtain ⟨⟨close, rangeOf, rfl⟩, others⟩ := List.forall_mem_cons.1 areBars
      obtain ⟨kept, isKept, moves⟩ := exists_moves isRule isStored close rangeOf
      rw [moves.eq_of_isNaN missing] at isKept
      rw [List.append_cons]
      exact hypothesis others isKept

/-- After any calls a level is NaN exactly if a bar has spoiled it. -/
theorem exists_isNaN_iff
    (inRange : rule.InRange)
    (isRule : rules[position]? = some rule)
    (calls : List (Call Float)) :
    (∃ level, (afterCalls rules calls).levels[position]? = some (some level) ∧
        level.isNaN = true) ↔
      Spoiled rules position rule calls := by
  constructor
  · rintro ⟨level, isStored, missing⟩
    induction calls using List.reverseRecOn with
    | nil =>
        obtain ⟨_, _, unset⟩ := List.mem_map.1 (List.mem_of_getElem? isStored)
        cases unset
    | append_singleton calls call hypothesis =>
        by_cases isBar : call.IsBar
        · obtain ⟨close, rangeOf, rfl⟩ := isBar
          obtain ⟨before, isBefore⟩ := exists_stored isRule calls
          obtain ⟨kept, isKept, moves⟩ := exists_moves isRule isBefore close rangeOf
          cases isKept.symm.trans isStored
          cases before with
          | none =>
              have spoils := (moves.isNaN_iff inRange).1 missing
              refine ⟨calls, close, rangeOf, [], rfl, by simp, isBefore, ?_, spoils⟩
              rw [isStored]
              simp
          | some before =>
              cases number : before.isNaN with
              | true =>
                  cases moves.eq_of_isNaN number
                  exact (hypothesis isBefore).snoc ⟨close, rangeOf, rfl⟩
              | false =>
                  obtain ⟨higher, same, higherNumber, _⟩ := moves.exists_higher number
                  cases same
                  cases missing.symm.trans higherNumber
        · cases eq_none_of_not_isBar isBar isStored
  · rintro ⟨earlier, close, rangeOf, later, rfl, areBars, unset, isSet, spoils⟩
    obtain ⟨kept, isKept, moves⟩ := exists_moves isRule unset close rangeOf
    cases kept with
    | none => exact absurd isKept isSet
    | some level =>
        have missing := (moves.isNaN_iff inRange).2 spoils
        refine ⟨level, ?_, missing⟩
        rw [List.append_cons]
        exact stored_of_isNaN isRule missing areBars isKept

/-- A level is set for trailing stops alone. -/
theorem isTrailing_of_stored
    (isRule : rules[position]? = some rule)
    {calls : List (Call Float)}
    (isStored : (afterCalls rules calls).levels[position]? = some (some level)) :
    rule.isTrailing = true := by
  obtain ⟨inside, rfl⟩ := List.getElem?_eq_some_iff.1 isRule
  obtain ⟨insideLevels, isLevel⟩ := List.getElem?_eq_some_iff.1 isStored
  obtain ⟨_, each⟩ := List.forall₂_iff_get.1 (recorded_afterCalls rules calls).setsLevel
  exact (each position inside insideLevels (congrArg Option.isSome isLevel)).1

/-- A rule with a level of NaN signals at no bar. -/
theorem signal_ne_of_isNaN
    (distinct : (rules.map ExitRule.node).Nodup)
    (isRule : rules[position]? = some rule)
    {calls : List (Call Float)}
    (isStored : (afterCalls rules calls).levels[position]? = some (some level))
    (missing : level.isNaN = true)
    {signal : ExitSignal Float}
    (signals : ((afterCalls rules calls).onBar rules close rangeOf).1 = some signal) :
    signal.rule ≠ rule.node := by
  intro named
  have trails := isTrailing_of_stored isRule isStored
  by_cases idle : (afterCalls rules calls).entryPrice = none ∨ Quantity.isNaN close = true
  · rw [onBar_of_idle idle] at signals
    cases signals
  · push Not at idle
    obtain ⟨entry, isOpen⟩ := Option.ne_none_iff_exists'.1 idle.1
    rw [onBar_of_open isOpen (Bool.eq_false_iff.2 idle.2)] at signals
    obtain ⟨place, other, stored, isOther, isBeside, sameNode, triggers⟩ :=
      exists_rule_of_signal signals
    obtain rfl : place = position := by
      obtain ⟨inside, _⟩ := List.getElem?_eq_some_iff.1 isOther
      refine (List.getElem?_inj (by rwa [List.length_map]) distinct).1 ?_
      rw [List.getElem?_map, List.getElem?_map, isOther, isRule, Option.map_some,
        Option.map_some, ← sameNode, named]
    cases isOther.symm.trans isRule
    cases isBeside.symm.trans isStored
    rw [filter_levelAt_of_isNaN trails missing] at triggers
    cases triggers

end ExitState

/-! ## Compiled strategies -/

namespace Graph

open ExitState

variable {graph : Graph} {configuration : Configuration} {compilation : Compilation}

/-- Infinite closes alone spoil trailing stops. After any calls, the level of a compiled exit
is NaN exactly if the bar that set it spoiled it and only bars have followed; so it is a number
if no close was infinite. A level that is a number compares with every candidate of a bar that
does not spoil it, and no bar lowers it or makes it NaN. A level of NaN stays at every bar, and
its rule does not signal. -/
theorem trailing_levels_spoiled_iff
    (accepted : graph.compile configuration = .ok compilation)
    {exits : List ExitRule}
    (areExits : compilation.strategy.exits = exits)
    {position : Nat}
    {rule : ExitRule}
    (isRule : exits[position]? = some rule)
    (calls : List (Call Float)) :
    ((∃ level, (afterCalls exits calls).levels[position]? = some (some level) ∧
        level.isNaN = true) ↔
      Spoiled exits position rule calls) ∧
    ((∀ close rangeOf, .bar close rangeOf ∈ calls -> close.isInf = false) ->
      ∀ level, (afterCalls exits calls).levels[position]? = some (some level) ->
        level.isNaN = false) ∧
    ∀ level, (afterCalls exits calls).levels[position]? = some (some level) ->
      ∀ close rangeOf,
        (level.isNaN = false ->
          (∀ candidate, close.isNaN = false ->
            rule.level? close (rule.atr.bind rangeOf) = some candidate ->
              ¬ rule.SpoiledBy close (rule.atr.bind rangeOf) ->
                candidate <= level ∨ level < candidate) ∧
          ∃ higher,
            (afterCalls exits (calls ++ [.bar close rangeOf])).levels[position]? =
                some (some higher) ∧
              higher.isNaN = false ∧ level <= higher) ∧
        (level.isNaN = true ->
          (afterCalls exits (calls ++ [.bar close rangeOf])).levels[position]? =
              some (some level) ∧
            ∀ signal, ((afterCalls exits calls).onBar exits close rangeOf).1 = some signal ->
              signal.rule ≠ rule.node) := by
  subst areExits
  have inRange := exits_inRange_of_compile accepted rule (List.mem_of_getElem? isRule)
  have distinct := distinct_exits_of_compile accepted
  have spoiled := exists_isNaN_iff inRange isRule calls
  refine ⟨spoiled, fun ordinary level isStored => ?_,
    fun level isStored close rangeOf => ⟨fun number => ⟨?_, ?_⟩, fun missing => ⟨?_, ?_⟩⟩⟩
  · by_contra missing
    obtain ⟨_, close, rangeOf, _, rfl, _, _, _, infinite, _⟩ :=
      spoiled.1 ⟨level, isStored, Bool.not_eq_false _ ▸ missing⟩
    cases (ordinary close rangeOf (by simp)).symm.trans infinite
  · intro candidate closeNumber proposed unspoiled
    have trails := isTrailing_of_stored isRule isStored
    have candidateNumber : candidate.isNaN = false := by
      rw [← Bool.not_eq_true, ExitRule.isNaN_level_iff inRange trails closeNumber proposed]
      exact unspoiled
    rw [← Binary64.not_le_iff_lt candidateNumber number]
    exact em _
  · obtain ⟨kept, isKept, moves⟩ := exists_moves isRule isStored close rangeOf
    obtain ⟨higher, rfl, higherNumber, above⟩ := moves.exists_higher number
    exact ⟨higher, isKept, higherNumber, above⟩
  · exact stored_of_isNaN isRule missing (List.forall_mem_singleton.2 ⟨close, rangeOf, rfl⟩)
      isStored
  · intro signal signals
    exact signal_ne_of_isNaN distinct isRule isStored missing signals

/-- A purchase with a trailing stop ten percent below the close. -/
def trailedByPercent : Graph where
  nodes := [
    ⟨"enter", .action .buy .allAvailable none⟩,
    ⟨"trail", .exit .trailingStop .percent 10 none⟩]
  edges := []

/-- The risk exit of `trailedByPercent`. -/
def percentExit : ExitRule :=
  ⟨"trail", .trailingStop, .percent, 10, none⟩

/-- A position of a hundred is opened and one close is shown, without ranges. -/
def openedAt (close : Float) : List (Call Float) :=
  [.enter 100, .bar close fun _ => none]

/-- A level of ninety stands an infinite close. -/
theorem trailing_levels_spoiled_iff_standing :
    ∃ compilation, trailedByPercent.compile .default = .ok compilation ∧
      compilation.strategy.exits = [percentExit] ∧
      (afterCalls [percentExit] (openedAt 100)).levels[0]? = some (some 90) ∧
      ∃ higher,
        (afterCalls [percentExit]
          (openedAt 100 ++ [.bar (1 / 0) fun _ => none])).levels[0]? = some (some higher) ∧
          higher.isNaN = false ∧ 90 <= higher := by
  have computed : (trailedByPercent.compile .default).toOption.map (fun compilation =>
      compilation.strategy.exits) = some [percentExit] := by
    decide +kernel
  obtain ⟨compilation, found, areExits⟩ := Option.map_eq_some_iff.1 computed
  have accepted := Outcome.toOption_eq_some_iff.1 found
  have ninety : (afterCalls [percentExit] (openedAt 100)).levels[0]? = some (some 90) := by
    decide +kernel
  obtain ⟨_, _, levels⟩ := trailing_levels_spoiled_iff accepted areExits
    (show [percentExit][0]? = some percentExit from rfl) (openedAt 100)
  obtain ⟨ordinary, _⟩ := levels 90 ninety (1 / 0) fun _ => none
  exact ⟨compilation, accepted, areExits, ninety, (ordinary (by decide)).2⟩

/-- An infinite close that comes first leaves the trailing stop with NaN for its level. At a
close of a hundred its candidate is ninety and compares with no such level, and at a close of
one it does not signal. -/
theorem infinite_close_spoils_level :
    ∃ compilation, trailedByPercent.compile .default = .ok compilation ∧
      compilation.strategy.exits = [percentExit] ∧
      ∃ level : Float, level.isNaN = true ∧
        (afterCalls [percentExit] (openedAt (1 / 0))).levels[0]? = some (some level) ∧
        percentExit.level? (100 : Float) none = some 90 ∧ ¬ 90 <= level ∧ ¬ level < 90 ∧
        (afterCalls [percentExit]
          (openedAt (1 / 0) ++ [.bar 100 fun _ => none])).levels[0]? = some (some level) ∧
        ((afterCalls [percentExit] (openedAt (1 / 0) ++ [.bar 100 fun _ => none])).onBar
          [percentExit] 1 fun _ => none).1.isNone = true := by
  have computed : (trailedByPercent.compile .default).toOption.map (fun compilation =>
      compilation.strategy.exits) = some [percentExit] := by
    decide +kernel
  obtain ⟨compilation, found, areExits⟩ := Option.map_eq_some_iff.1 computed
  refine ⟨compilation, Outcome.toOption_eq_some_iff.1 found, areExits, 0 / 0, ?_⟩
  decide +kernel

end Graph
end StrategyGraph
