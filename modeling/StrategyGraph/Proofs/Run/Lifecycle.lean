import StrategyGraph.Proofs.Run.Causality

/-!
# The lifecycle of a position

Whatever a session is shown, and in whatever order, it opens a position only while it
has none and closes only the one it has. Levels of trailing stops exist only while a
position is open, so none is carried over into the next position.

`Transition` lists what one call to a session may do. A call does nothing else as long
as the state is consistent, and it keeps the state consistent.
-/

namespace StrategyGraph

/-! ## States of the risk exits -/

namespace ExitState

variable {rules : List ExitRule} {state : ExitState Value}

/-- There is one level for every rule, and only trailing stops have theirs set. -/
def OnlyTrailing (rules : List ExitRule) (levels : List (Option Value)) : Prop :=
  List.Forall₂ (fun rule level => level.isSome = true -> rule.isTrailing = true) rules levels

/-- What holds of the state of a list of rules between any two bars. -/
structure Consistent (rules : List ExitRule) (state : ExitState Value) : Prop where
  onlyTrailing : OnlyTrailing rules state.levels
  /-- Without a position no level is set. -/
  unset : state.isOpen = false -> state = flat rules

/-- Unset levels stand beside any rules. -/
theorem onlyTrailing_unset (rules : List ExitRule) :
    OnlyTrailing rules (rules.map fun _ => (none : Option Value)) := by
  refine List.forall₂_map_right_iff.2 (List.forall₂_same.2 fun rule _ set => ?_)
  cases set

/-- Unsetting all levels of a list of rules leaves the same levels whatever they were. -/
theorem OnlyTrailing.map_unset
    {levels : List (Option Value)}
    (onlyTrailing : OnlyTrailing rules levels) :
    (levels.map fun _ => (none : Option Value)) = rules.map fun _ => none := by
  rw [List.map_const', List.map_const', onlyTrailing.length_eq]

theorem consistent_flat (rules : List ExitRule) :
    (flat rules : ExitState Value).Consistent rules :=
  ⟨onlyTrailing_unset rules, fun _ => rfl⟩

theorem Consistent.enter_eq (consistent : state.Consistent rules) (price : Value) :
    state.enter price = ⟨some price, rules.map fun _ => none⟩ := by
  rw [enter, consistent.onlyTrailing.map_unset]

theorem Consistent.leave_eq (consistent : state.Consistent rules) :
    state.leave = flat rules := by
  rw [leave, consistent.onlyTrailing.map_unset, flat]

variable [Quantity Value]

/-- A rule moves its level only if it is a trailing stop. -/
theorem isTrailing_of_levelAt
    {rule : ExitRule}
    {entry close : Value}
    {range stored : Option Value}
    (before : stored.isSome = true -> rule.isTrailing = true)
    (after : (levelAt rule entry close range stored).2.isSome = true) :
    rule.isTrailing = true := by
  rw [levelAt] at after
  split at after
  next => exact before after
  next =>
    split at after
    next trailing => exact trailing
    next => exact before after

/-- Trying the rules keeps the levels of all but the trailing stops unset, and a
signal comes from one of the rules. -/
theorem onlyTrailing_tryRules
    (entry close : Value)
    (rangeOf : IndicatorSeries -> Option Value)
    {levels : List (Option Value)}
    (onlyTrailing : OnlyTrailing rules levels) :
    OnlyTrailing rules (tryRules entry close rangeOf rules levels).2 ∧
      ∀ signal ∈ (tryRules entry close rangeOf rules levels).1,
        ∃ rule ∈ rules, signal.rule = rule.node := by
  induction onlyTrailing with
  | nil =>
      rw [tryRules.eq_def]
      exact ⟨.nil, fun signal none => absurd none (Option.not_mem_none signal)⟩
  | @cons rule stored rules levels before rest hypothesis =>
      have kept : (levelAt rule entry close (rule.atr.bind rangeOf) stored).2.isSome = true ->
          rule.isTrailing = true := isTrailing_of_levelAt before
      rw [tryRules]
      dsimp only
      split
      next level _ =>
        refine ⟨.cons kept rest, fun signal isSignal => ⟨rule, List.mem_cons_self, ?_⟩⟩
        rw [← Option.some.inj isSignal]
      next =>
        refine ⟨.cons kept hypothesis.1, fun signal isSignal => ?_⟩
        obtain ⟨other, member, equal⟩ := hypothesis.2 signal isSignal
        exact ⟨other, List.mem_cons_of_mem rule member, equal⟩

/-- A bar of the risk exits keeps the position and the consistency of the state. -/
theorem Consistent.onBar
    (consistent : state.Consistent rules)
    (close : Value)
    (rangeOf : IndicatorSeries -> Option Value) :
    (state.onBar rules close rangeOf).2.Consistent rules ∧
      (state.onBar rules close rangeOf).2.entryPrice = state.entryPrice ∧
      ∀ signal ∈ (state.onBar rules close rangeOf).1, ∃ rule ∈ rules, signal.rule = rule.node := by
  have nothing : state.Consistent rules ∧ state.entryPrice = state.entryPrice ∧
      ∀ signal ∈ (none : Option (ExitSignal Value)), ∃ rule ∈ rules, signal.rule = rule.node :=
    ⟨consistent, rfl, fun signal none => absurd none (Option.not_mem_none signal)⟩
  rw [ExitState.onBar]
  split
  next => exact nothing
  next entry isOpen =>
    split
    next => exact nothing
    next =>
      obtain ⟨levels, signals⟩ :=
        onlyTrailing_tryRules entry close rangeOf consistent.onlyTrailing
      refine ⟨⟨levels, fun closed => ?_⟩, rfl, signals⟩
      rw [isOpen] at closed
      cases closed

end ExitState

/-! ## Calls to a session -/

variable [Quantity Value]

namespace Session

open ExitState

/-- What one call to a session may do at a bar: wait without a position or keep the one
there is, enter at the close, or leave by an exit rule or a risk exit. Entering and
leaving unset all levels. -/
inductive Transition (strategy : Strategy) (set : SeriesSet Value) (bar : Nat) :
    ExitState Value -> Decision -> ExitState Value -> Prop where
  | wait (isFlat : state.isOpen = false) : Transition strategy set bar state .hold state
  | keep (isOpen : state.isOpen = true) (samePrice : next.entryPrice = state.entryPrice) :
      Transition strategy set bar state .hold next
  | enter
      (isFlat : state.isOpen = false)
      (isRule : rule ∈ strategy.actions)
      (enters : rule.direction = .entry)
      (isClose : set.value? Column.close.key bar = some close)
      (isFinite : Quantity.isFinite close = true) :
      Transition strategy set bar state (.enter rule.node)
        ⟨some close, strategy.exits.map fun _ => none⟩
  | exit
      (isOpen : state.isOpen = true)
      (isRule : rule ∈ strategy.actions)
      (exits : rule.direction = .exit) :
      Transition strategy set bar state (.exit rule.node) (flat strategy.exits)
  | riskExit (isOpen : state.isOpen = true) (isRule : rule ∈ strategy.exits) :
      Transition strategy set bar state (.riskExit rule.node) (flat strategy.exits)

variable {strategy : Strategy} {set : SeriesSet Value} {state : ExitState Value} {bar : Nat}

/-- A rule that fires is one of the eligible rules. -/
theorem mem_of_firstFiring
    {eligible : ActionRule -> Bool}
    {rule : ActionRule}
    (fires : firstFiring? strategy set bar eligible = some rule) :
    rule ∈ strategy.actions ∧ eligible rule = true := by
  have holds := List.find?_some fires
  rw [Bool.and_eq_true] at holds
  exact ⟨List.mem_of_find?_eq_some fires, holds.1⟩

theorem closeAt_eq_some_iff {close : Value} :
    closeAt? set bar = some close ↔
      set.value? Column.close.key bar = some close ∧ Quantity.isFinite close = true := by
  rw [closeAt?, Option.filter_eq_some_iff]

/-- Without a position a session waits or enters. -/
theorem transition_decideFlat
    (consistent : state.Consistent strategy.exits)
    (isFlat : state.isOpen = false) :
    Transition strategy set bar state (decideFlat strategy set state bar).1
        (decideFlat strategy set state bar).2 ∧
      (decideFlat strategy set state bar).2.Consistent strategy.exits := by
  rw [decideFlat]
  split
  next => exact ⟨.wait isFlat, consistent⟩
  next close isClose =>
    obtain ⟨value, finite⟩ := closeAt_eq_some_iff.1 isClose
    split
    next rule fires =>
      obtain ⟨member, eligible⟩ := mem_of_firstFiring fires
      rw [Bool.and_eq_true, decide_eq_true_iff] at eligible
      rw [consistent.enter_eq close]
      refine ⟨.enter isFlat member eligible.1 value finite,
        onlyTrailing_unset strategy.exits, fun closed => ?_⟩
      cases closed
    next => exact ⟨.wait isFlat, consistent⟩

/-- Trying the risk exits keeps the position and the consistency of the state. -/
theorem consistent_tryExits
    (consistent : state.Consistent strategy.exits)
    (set : SeriesSet Value)
    (bar : Nat) :
    (tryExits strategy set state bar).2.Consistent strategy.exits ∧
      (tryExits strategy set state bar).2.entryPrice = state.entryPrice ∧
      ∀ signal ∈ (tryExits strategy set state bar).1,
        ∃ rule ∈ strategy.exits, signal.rule = rule.node := by
  rw [tryExits]
  split
  next => exact ⟨consistent, rfl, fun signal none => absurd none (Option.not_mem_none signal)⟩
  next close _ => exact consistent.onBar close (rangeAt? set bar)

/-- With an open position a session keeps it or leaves it. -/
theorem transition_decideOpen
    (consistent : state.Consistent strategy.exits)
    (isOpen : state.isOpen = true) :
    Transition strategy set bar state (decideOpen strategy set state bar).1
        (decideOpen strategy set state bar).2 ∧
      (decideOpen strategy set state bar).2.Consistent strategy.exits := by
  have tried := consistent_tryExits consistent set bar
  rw [decideOpen]
  split
  next signal next triggered =>
    rw [triggered] at tried
    obtain ⟨rule, member, named⟩ := tried.2.2 signal rfl
    rw [tried.1.leave_eq, named]
    exact ⟨.riskExit isOpen member, consistent_flat strategy.exits⟩
  next next quiet =>
    rw [quiet] at tried
    split
    next rule fires =>
      obtain ⟨member, exits⟩ := mem_of_firstFiring fires
      rw [tried.1.leave_eq]
      exact ⟨.exit isOpen member (decide_eq_true_iff.1 exits), consistent_flat strategy.exits⟩
    next => exact ⟨.keep isOpen tried.2.1, tried.1⟩

/-- A call to a session in a consistent state is a transition to another one. -/
theorem transition_onBar
    (consistent : state.Consistent strategy.exits)
    (set : SeriesSet Value)
    (bar : Nat) :
    Transition strategy set bar state (onBar strategy set state bar).1
        (onBar strategy set state bar).2 ∧
      (onBar strategy set state bar).2.Consistent strategy.exits := by
  rw [onBar]
  split
  next warmingUp =>
    refine ⟨?_, consistent⟩
    cases isOpen : state.isOpen with
    | true => exact .keep isOpen rfl
    | false => exact .wait isOpen
  next =>
    split
    next isOpen => exact transition_decideOpen consistent isOpen
    next closed => exact transition_decideFlat consistent (Bool.eq_false_iff.2 closed)

/-- State of a session after a sequence of calls, each with a set of series and a bar of
its own. -/
def stateAfter (strategy : Strategy) (calls : List (SeriesSet Value × Nat)) :
    ExitState Value :=
  calls.foldl (fun state call => (onBar strategy call.1 state call.2).2) (start strategy)

/-- Every state that a session can be in is consistent. -/
theorem consistent_stateAfter (strategy : Strategy) (calls : List (SeriesSet Value × Nat)) :
    (stateAfter strategy calls).Consistent strategy.exits := by
  have run : ∀ state : ExitState Value, state.Consistent strategy.exits ->
      (calls.foldl (fun state call => (onBar strategy call.1 state call.2).2) state).Consistent
        strategy.exits := by
    induction calls with
    | nil => exact fun _ consistent => consistent
    | cons call calls hypothesis =>
        exact fun state consistent => hypothesis _ (transition_onBar consistent call.1 call.2).2
  exact run (start strategy) (consistent_flat strategy.exits)

/-- Decisions that enter and leave in turn, where a position may be open at first. -/
def InTurn : Bool -> List Decision -> Prop
  | _, [] => True
  | isOpen, .hold :: decisions => InTurn isOpen decisions
  | isOpen, .enter _ :: decisions => isOpen = false ∧ InTurn true decisions
  | isOpen, .exit _ :: decisions => isOpen = true ∧ InTurn false decisions
  | isOpen, .riskExit _ :: decisions => isOpen = true ∧ InTurn false decisions

/-- A session enters and leaves in turn over any bars. -/
theorem inTurn_decisions
    (consistent : state.Consistent strategy.exits)
    (bars : List Nat) :
    InTurn state.isOpen (decisions strategy set state bars) := by
  induction bars generalizing state with
  | nil => trivial
  | cons bar bars hypothesis =>
      obtain ⟨transition, next⟩ := transition_onBar consistent set bar
      have rest := hypothesis next
      rw [decisions]
      dsimp only
      generalize onBar strategy set state bar = outcome at transition rest
      obtain ⟨decision, after⟩ := outcome
      dsimp only at transition rest ⊢
      cases transition with
      | wait isFlat => exact rest
      | keep isOpen samePrice =>
          have sameFlag : after.isOpen = state.isOpen := congrArg Option.isSome samePrice
          rw [sameFlag] at rest
          exact rest
      | enter isFlat => exact ⟨isFlat, rest⟩
      | exit isOpen => exact ⟨isOpen, rest⟩
      | riskExit isOpen => exact ⟨isOpen, rest⟩

/-- Of decisions that enter and leave in turn, holds aside, every second one enters. -/
theorem InTurn.isEntry_iff
    {isOpen : Bool}
    {decisions : List Decision}
    (inTurn : InTurn isOpen decisions)
    {position : Nat}
    {decision : Decision}
    (found : (decisions.filter fun decision => !decision.isHold)[position]? = some decision) :
    decision.isEntry = true ↔ (isOpen = false ↔ position % 2 = 0) := by
  induction decisions generalizing isOpen position with
  | nil => cases found
  | cons first decisions hypothesis =>
      cases first with
      | hold => exact hypothesis inTurn found
      | enter rule =>
          obtain ⟨rfl, rest⟩ := inTurn
          cases position with
          | zero =>
              cases found
              simp [Decision.isEntry]
          | succ position =>
              rw [hypothesis rest found]
              simp
              omega
      | exit rule | riskExit rule =>
          obtain ⟨rfl, rest⟩ := inTurn
          cases position with
          | zero =>
              cases found
              simp [Decision.isEntry]
          | succ position =>
              rw [hypothesis rest found]
              simp
              omega

end Session

namespace Strategy

/-- The decisions of a replay are those of a session over all bars from the start. -/
theorem eq_decisions_of_replay
    {strategy : Strategy}
    {set : SeriesSet Value}
    {decisions : List Decision}
    (replayed : strategy.replay set = .ok decisions) :
    decisions = Session.decisions strategy set (Session.start strategy)
      (List.range set.barCount) :=
  (Except.ok.inj (Outcome.check_then_eq_ok_iff.1 replayed).2).symm

/-- The lifecycle of a position. In every state that a session can be in, levels are set
for trailing stops alone and only while a position is open, and whatever the next call
shows, it makes one of the listed transitions. So the decisions of a replay, holds aside,
enter and leave in turn and begin with an entry. -/
theorem position_lifecycle (strategy : Strategy) :
    (∀ calls : List (SeriesSet Value × Nat),
      (Session.stateAfter strategy calls).Consistent strategy.exits ∧
        ∀ (set : SeriesSet Value) (bar : Nat),
          Session.Transition strategy set bar (Session.stateAfter strategy calls)
            (Session.onBar strategy set (Session.stateAfter strategy calls) bar).1
            (Session.onBar strategy set (Session.stateAfter strategy calls) bar).2) ∧
      ∀ (set : SeriesSet Value) (decisions : List Decision),
        strategy.replay set = .ok decisions ->
        ∀ position decision,
          (decisions.filter fun decision => !decision.isHold)[position]? = some decision ->
          (decision.isEntry = true ↔ position % 2 = 0) := by
  refine ⟨fun calls => ?_, fun set decisions replayed position decision found => ?_⟩
  · have consistent := Session.consistent_stateAfter strategy calls
    exact ⟨consistent, fun set bar => (Session.transition_onBar consistent set bar).1⟩
  · have inTurn : Session.InTurn false decisions := by
      rw [eq_decisions_of_replay replayed]
      exact Session.inTurn_decisions (ExitState.consistent_flat strategy.exits) _
    rw [inTurn.isEntry_iff found]
    simp

/-- Five bars on which `climbing` enters, trails its stop, leaves at it and enters again. -/
def climbingTwice : SeriesSet Float :=
  ⟨[("close", #[100, 110, 120, 110, 130]), ("open", #[95, 100, 115, 125, 110])]⟩

theorem position_lifecycle_climbing :
    ∃ decisions, climbing.replay climbingTwice = .ok decisions ∧
      decisions = [.hold, .enter "climb", .hold, .riskExit "trail", .enter "climb"] ∧
      ∀ position decision,
        (decisions.filter fun decision => !decision.isHold)[position]? = some decision ->
        (decision.isEntry = true ↔ position % 2 = 0) := by
  have replayed : climbing.replay climbingTwice =
      .ok [.hold, .enter "climb", .hold, .riskExit "trail", .enter "climb"] := by
    decide +kernel
  exact ⟨_, replayed, rfl, (position_lifecycle climbing).2 climbingTwice _ replayed⟩

end Strategy
end StrategyGraph
