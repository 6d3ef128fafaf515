import Mathlib
import StrategyGraph.Proofs.Market.Prefix
import StrategyGraph.Run.Session

/-!
# Decisions depend on the past alone

What a session decides at a bar depends on its state and on the values that the
keys a strategy observes have had until then. So a run over a longer history
starts with the decisions of the shorter one, and a session that is shown a
growing history decides as a replay of the whole one.
-/

namespace StrategyGraph

variable {set other : SeriesSet Value} {bar : Nat}

/-- A value some bars back is the same in sets that agree. -/
theorem SeriesSet.valueBack_eq_of_agrees
    {keys : List String}
    (agrees : set.AgreesUpTo other keys bar)
    {key : String}
    (member : key ∈ keys)
    (offset : Nat) :
    set.valueBack? key bar offset = other.valueBack? key bar offset := by
  unfold valueBack?
  split
  next reached => exact agrees key member (bar - offset) (Nat.sub_le bar offset)
  next => rfl

variable [Quantity Value]

/-- The value of an expression is the same in sets that agree on its series. -/
theorem Expression.value_eq_of_agrees
    {expression : Expression}
    (agrees : set.AgreesUpTo other expression.seriesKey?.toList bar) :
    expression.value? set bar = expression.value? other bar := by
  unfold Expression.value?
  cases expression with
  | price column offset =>
      rw [rawValue?, rawValue?,
        SeriesSet.valueBack_eq_of_agrees agrees (List.mem_singleton.2 rfl)]
  | indicator series offset =>
      rw [rawValue?, rawValue?,
        SeriesSet.valueBack_eq_of_agrees agrees (List.mem_singleton.2 rfl)]
  | literal constant => rfl

namespace Predicate

/-- Keys of the series that several predicates read. -/
def seriesKeysOf (parts : List Predicate) : List String :=
  (expressionsOf parts).filterMap Expression.seriesKey?

theorem seriesKeysOf_cons (part : Predicate) (parts : List Predicate) :
    seriesKeysOf (part :: parts) = part.seriesKeys ++ seriesKeysOf parts := by
  rw [seriesKeysOf, expressionsOf, List.filterMap_append]
  rfl

/-- A comparison holds alike in sets that agree on what it reads. -/
theorem compareHolds_eq_of_agrees
    {left right : Expression}
    (relation : Relation)
    (agrees : set.AgreesUpTo other (compare left relation right).seriesKeys bar) :
    compareHolds left relation right set bar =
      compareHolds left relation right other bar := by
  have leftAgrees : set.AgreesUpTo other left.seriesKey?.toList bar := by
    refine agrees.mono (fun key member => ?_) (Nat.le_refl bar)
    exact List.mem_filterMap.2
      ⟨left, List.mem_cons_self, Option.mem_toList.1 member⟩
  have rightAgrees : set.AgreesUpTo other right.seriesKey?.toList bar := by
    refine agrees.mono (fun key member => ?_) (Nat.le_refl bar)
    exact List.mem_filterMap.2
      ⟨right, List.mem_cons_of_mem left List.mem_cons_self, Option.mem_toList.1 member⟩
  rw [compareHolds, compareHolds, Expression.value_eq_of_agrees leftAgrees,
    Expression.value_eq_of_agrees rightAgrees]

mutual

/-- A predicate holds alike in sets that agree on what it reads. -/
theorem holds_eq_of_agrees : (predicate : Predicate) ->
    set.AgreesUpTo other predicate.seriesKeys bar ->
    predicate.holds set bar = predicate.holds other bar
  | .always, _ => rfl
  | .compare _ relation _, agrees => by
      rw [holds, holds]
      exact compareHolds_eq_of_agrees relation agrees
  | .all parts, agrees => by
      rw [holds, holds]
      exact (group_eq_of_agrees parts agrees).1
  | .any parts, agrees => by
      rw [holds, holds]
      exact (group_eq_of_agrees parts agrees).2
  | .negation inner, agrees => by
      rw [holds, holds, holds_eq_of_agrees inner agrees]

/-- Groups hold alike in sets that agree on what they read. -/
theorem group_eq_of_agrees : (parts : List Predicate) ->
    set.AgreesUpTo other (seriesKeysOf parts) bar ->
    allHold set bar parts = allHold other bar parts ∧
      anyHolds set bar parts = anyHolds other bar parts
  | [], _ => ⟨rfl, rfl⟩
  | part :: parts, agrees => by
      rw [seriesKeysOf_cons] at agrees
      have first := holds_eq_of_agrees part
        (agrees.mono (fun _ member => List.mem_append_left _ member) (Nat.le_refl bar))
      have rest := group_eq_of_agrees parts
        (agrees.mono (fun _ member => List.mem_append_right _ member) (Nat.le_refl bar))
      exact ⟨by rw [allHold, allHold, first, rest.1],
        by rw [anyHolds, anyHolds, first, rest.2]⟩

end

end Predicate

namespace Strategy

/-- Keys of the series a run looks at: the closes, what action rules read and the
ranges that exit rules read. -/
def observedKeys (strategy : Strategy) : List String :=
  Column.close.key ::
    (strategy.actions.flatMap (fun rule => rule.predicate.seriesKeys) ++
      strategy.exits.filterMap fun rule => rule.atr.map IndicatorSeries.key)

variable {strategy : Strategy}

theorem close_mem_observedKeys : Column.close.key ∈ strategy.observedKeys :=
  List.mem_cons_self

theorem mem_observedKeys_of_action
    {rule : ActionRule}
    (member : rule ∈ strategy.actions)
    {key : String}
    (read : key ∈ rule.predicate.seriesKeys) :
    key ∈ strategy.observedKeys :=
  List.mem_cons_of_mem _
    (List.mem_append_left _ (List.mem_flatMap.2 ⟨rule, member, read⟩))

theorem mem_observedKeys_of_exit
    {rule : ExitRule}
    (member : rule ∈ strategy.exits)
    {series : IndicatorSeries}
    (reads : rule.atr = some series) :
    series.key ∈ strategy.observedKeys := by
  refine List.mem_cons_of_mem _ (List.mem_append_right _ (List.mem_filterMap.2 ?_))
  exact ⟨rule, member, by rw [reads, Option.map_some]⟩

end Strategy

/-- Exit rules are tried alike with ranges that agree on what the rules read. -/
theorem ExitState.tryRules_congr
    {entry close : Value}
    {rangeOf otherRangeOf : IndicatorSeries -> Option Value}
    {rules : List ExitRule}
    (same : ∀ rule ∈ rules, ∀ series, rule.atr = some series ->
      rangeOf series = otherRangeOf series)
    (levels : List (Option Value)) :
    tryRules entry close rangeOf rules levels =
      tryRules entry close otherRangeOf rules levels := by
  induction rules generalizing levels with
  | nil => rw [tryRules.eq_def, tryRules.eq_def]
  | cons rule rules hypothesis =>
      cases levels with
      | nil => rw [tryRules.eq_def, tryRules.eq_def]
      | cons stored levels =>
          have range : rule.atr.bind rangeOf = rule.atr.bind otherRangeOf := by
            cases reads : rule.atr with
            | none => rfl
            | some series => exact same rule List.mem_cons_self series reads
          have rest := hypothesis
            (fun other member => same other (List.mem_cons_of_mem rule member)) levels
          rw [tryRules, tryRules, range, rest]

namespace Session

variable {strategy : Strategy}

theorem closeAt_eq_of_agrees
    (agrees : set.AgreesUpTo other strategy.observedKeys bar) :
    closeAt? set bar = closeAt? other bar := by
  rw [closeAt?, closeAt?,
    agrees _ Strategy.close_mem_observedKeys bar (Nat.le_refl bar)]

theorem firstFiring_eq_of_agrees
    (agrees : set.AgreesUpTo other strategy.observedKeys bar)
    (eligible : ActionRule -> Bool) :
    firstFiring? strategy set bar eligible = firstFiring? strategy other bar eligible := by
  refine List.find?_congr fun rule member => ?_
  have read : set.AgreesUpTo other rule.predicate.seriesKeys bar :=
    agrees.mono (fun key => Strategy.mem_observedKeys_of_action member) (Nat.le_refl bar)
  rw [Predicate.holds_eq_of_agrees rule.predicate read]

theorem tryExits_eq_of_agrees
    (agrees : set.AgreesUpTo other strategy.observedKeys bar)
    (state : ExitState Value) :
    tryExits strategy set state bar = tryExits strategy other state bar := by
  have ranges : ∀ rule ∈ strategy.exits, ∀ series, rule.atr = some series ->
      rangeAt? set bar series = rangeAt? other bar series := by
    intro rule member series reads
    rw [rangeAt?, rangeAt?,
      agrees _ (Strategy.mem_observedKeys_of_exit member reads) bar (Nat.le_refl bar)]
  have tried : ∀ close, state.onBar strategy.exits close (rangeAt? set bar) =
      state.onBar strategy.exits close (rangeAt? other bar) := by
    intro close
    unfold ExitState.onBar
    cases state.entryPrice with
    | none => rfl
    | some entry =>
        dsimp only
        rw [ExitState.tryRules_congr ranges]
  unfold tryExits
  rw [closeAt_eq_of_agrees agrees]
  cases closeAt? other bar with
  | none => rfl
  | some close => exact tried close

/-- A session decides a bar alike, and goes on from the same state, in sets that
agree up to that bar on what the strategy observes. -/
theorem onBar_eq_of_agrees
    (agrees : set.AgreesUpTo other strategy.observedKeys bar)
    (state : ExitState Value) :
    onBar strategy set state bar = onBar strategy other state bar := by
  have flat : decideFlat strategy set state bar = decideFlat strategy other state bar := by
    unfold decideFlat firstEntry?
    rw [closeAt_eq_of_agrees agrees]
    cases closeAt? other bar with
    | none => rfl
    | some close =>
        dsimp only
        rw [firstFiring_eq_of_agrees agrees]
  have holding : decideOpen strategy set state bar = decideOpen strategy other state bar := by
    unfold decideOpen firstExit?
    rw [tryExits_eq_of_agrees agrees, firstFiring_eq_of_agrees agrees]
  rw [onBar, onBar, flat, holding]

/-- Decisions of a session that is shown a set of series of its own at every bar. -/
def liveDecisions (strategy : Strategy) (shown : Nat -> SeriesSet Value) :
    ExitState Value -> List Nat -> List Decision
  | _, [] => []
  | state, bar :: bars =>
      let (decision, next) := onBar strategy (shown bar) state bar
      decision :: liveDecisions strategy shown next bars

/-- A session decides a run alike if what it is shown at every bar agrees with a
set up to that bar. -/
theorem liveDecisions_eq_decisions
    {shown : Nat -> SeriesSet Value}
    {bars : List Nat}
    (agrees : ∀ bar ∈ bars, set.AgreesUpTo (shown bar) strategy.observedKeys bar)
    (state : ExitState Value) :
    liveDecisions strategy shown state bars = decisions strategy set state bars := by
  induction bars generalizing state with
  | nil => rfl
  | cons bar bars hypothesis =>
      have step := onBar_eq_of_agrees (agrees bar List.mem_cons_self) state
      rw [liveDecisions, decisions, ← step]
      dsimp only
      rw [hypothesis fun later member => agrees later (List.mem_cons_of_mem bar member)]

/-- A session decides a run alike in sets that agree up to all of its bars. -/
theorem decisions_eq_of_agrees
    {bars : List Nat}
    (agrees : ∀ bar ∈ bars, set.AgreesUpTo other strategy.observedKeys bar)
    (state : ExitState Value) :
    decisions strategy other state bars = decisions strategy set state bars := by
  have constant : ∀ state, liveDecisions strategy (fun _ => other) state bars =
      decisions strategy other state bars :=
    liveDecisions_eq_decisions fun _ _ _ _ _ _ => rfl
  rw [← constant]
  exact liveDecisions_eq_decisions agrees state

theorem length_decisions
    (strategy : Strategy)
    (set : SeriesSet Value)
    (state : ExitState Value)
    (bars : List Nat) :
    (decisions strategy set state bars).length = bars.length := by
  induction bars generalizing state with
  | nil => rfl
  | cons bar bars hypothesis =>
      rw [decisions, List.length_cons, List.length_cons, hypothesis]

/-- The first decisions of a run are those of the run over its first bars. -/
theorem take_decisions
    (strategy : Strategy)
    (set : SeriesSet Value)
    (state : ExitState Value)
    (bars : List Nat)
    (count : Nat) :
    (decisions strategy set state bars).take count =
      decisions strategy set state (bars.take count) := by
  induction bars generalizing state count with
  | nil => rw [List.take_nil, decisions, List.take_nil]
  | cons bar bars hypothesis =>
      cases count with
      | zero => rw [List.take_zero, List.take_zero, decisions]
      | succ count =>
          rw [decisions, List.take_succ_cons, List.take_succ_cons, decisions]
          dsimp only
          rw [hypothesis]

end Session

namespace Strategy

/-- A strategy runs on a set exactly when it can, over all bars from the start. -/
theorem replay_eq
    {strategy : Strategy}
    (accepted : set.checkRequirements strategy = .ok ()) :
    strategy.replay set =
      .ok (Session.decisions strategy set (Session.start strategy)
        (List.range set.barCount)) := by
  rw [replay, accepted]
  rfl

/-- A run looks neither ahead nor at anything it does not need. Histories that
agree up to a bar on the observed keys are decided alike up to that bar; the
decisions on a cut history are the first ones on the whole history; and a session
that is shown more of the history at each bar decides as the replay does. -/
theorem replay_causal
    {strategy : Strategy}
    (accepted : set.checkRequirements strategy = .ok ()) :
    ∃ decisions, strategy.replay set = .ok decisions ∧
      decisions.length = set.barCount ∧
      (∀ other bar,
        other.checkRequirements strategy = .ok () ->
        bar < set.barCount ->
        bar < other.barCount ->
        set.AgreesUpTo other strategy.observedKeys bar ->
        ∃ others, strategy.replay other = .ok others ∧
          others.take (bar + 1) = decisions.take (bar + 1)) ∧
      (∀ count, strategy.replay (set.take count) = .ok (decisions.take count)) ∧
      ∀ shown : Nat -> Nat, (∀ bar, bar < set.barCount -> bar < shown bar) ->
        Session.liveDecisions strategy (fun bar => set.take (shown bar))
          (Session.start strategy) (List.range set.barCount) = decisions := by
  refine ⟨_, replay_eq accepted, ?_, ?_, ?_, ?_⟩
  · rw [Session.length_decisions, List.length_range]
  · intro other bar otherAccepted reached otherReached agrees
    refine ⟨_, replay_eq otherAccepted, ?_⟩
    rw [Session.take_decisions, Session.take_decisions, List.take_range, List.take_range,
      Nat.min_eq_left reached, Nat.min_eq_left otherReached]
    refine Session.decisions_eq_of_agrees (fun earlier member => ?_) _
    exact agrees.mono (fun _ observed => observed)
      (Nat.le_of_lt_succ (List.mem_range.1 member))
  · intro count
    rw [replay_eq (set.checkRequirements_take count accepted), Session.take_decisions,
      List.take_range, SeriesSet.barCount_take]
    refine congrArg _ (Session.decisions_eq_of_agrees (fun bar member => ?_) _)
    have kept : bar < count := by
      have bound := List.mem_range.1 member
      omega
    exact set.agreesUpTo_take count kept
  · intro shown ahead
    refine Session.liveDecisions_eq_decisions (fun bar member => ?_) _
    exact set.agreesUpTo_take (shown bar) (ahead bar (List.mem_range.1 member))

/-- A strategy that buys when a bar closes above the open before it and trails a
stop. -/
def climbing : Strategy where
  indicators := []
  actions := [
    ⟨"climb", .buy, .entry, .compare (.price .close 0) .greater (.price .opening 1),
      .allAvailable⟩]
  exits := [⟨"trail", .trailingStop, .percent, 5, none⟩]
  stateSlots := [.entryPrice, .trailingStop "trail"]

/-- Three bars that rise first and end at a given close. -/
def climbingThenClosing (close : Float) : SeriesSet Float :=
  ⟨[("close", #[100, 110, close]), ("open", #[95, 100, 110])]⟩

theorem replay_causal_climbing :
    ∃ decisions, climbing.replay (climbingThenClosing 90) = .ok decisions ∧
      climbing.replay ((climbingThenClosing 90).take 2) = .ok (decisions.take 2) ∧
      ∃ others, climbing.replay (climbingThenClosing 120) = .ok others ∧
        others.take 2 = decisions.take 2 := by
  have accepted : (climbingThenClosing 90).checkRequirements climbing = .ok () := by
    rfl
  have otherAccepted : (climbingThenClosing 120).checkRequirements climbing = .ok () := by
    rfl
  have agrees :
      (climbingThenClosing 90).AgreesUpTo (climbingThenClosing 120)
        climbing.observedKeys 1 := by
    intro key member index reached
    have observed : key = "close" ∨ key = "close" ∨ key = "open" := by
      simpa using (show key ∈ ["close", "close", "open"] from member)
    have early : index = 0 ∨ index = 1 := by omega
    rcases observed with rfl | rfl | rfl <;> rcases early with rfl | rfl <;>
      simp [SeriesSet.value?, SeriesSet.series?, climbingThenClosing, List.lookup]
  obtain ⟨decisions, replayed, _, causal, cut, _⟩ := replay_causal accepted
  obtain ⟨others, otherReplayed, same⟩ :=
    causal (climbingThenClosing 120) 1 otherAccepted (by decide) (by decide) agrees
  exact ⟨decisions, replayed, cut 2, others, otherReplayed, same⟩
end Strategy
end StrategyGraph
