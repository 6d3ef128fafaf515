import StrategyGraph.Proofs.Script.Action
import StrategyGraph.Proofs.Script.Effects
import StrategyGraph.Proofs.Script.Instance
import StrategyGraph.Proofs.Script.Support

/-!
# Bars of scripts

What a script does at one bar is what its strategy decides there. Both wait for the same
bars, and from then on the script tries its rules as the session does. The attributes of
the instance show the state of the session before the bar and after it.
-/

namespace StrategyGraph
namespace Python

open Backtest (Code Statement)

/-! ## Waiting -/

section

variable
  {here : Surroundings}
  {globals : String -> Option Value}
  {calls : Calls}
  {strategy : Strategy}
  {declared : List IndicatorSeries}
  {frame : Frame}

/-- As many bars have closed as the market data are long. -/
theorem eval_barsClosed
    {scope : Scope}
    (ready : scope.Ready declared) :
    eval here scope (term (.call (.name "len") [Code.own "data"])) =
      some (.number (.number ((here.bar + 1 : Nat) : ℚ))) := by
  have function : eval here scope (term (.name "len")) = some (.builtin .len) :=
    (eval_name "len").trans ready.length
  have arguments : evalEach here scope [term (Code.own "data")] = some [.market] := by
    rw [evalEach, eval_market ready]
    rfl
  change eval here scope (.call (term (.name "len")) [term (Code.own "data")]) = _
  rw [eval, function, arguments]
  rfl

/-- The bar ends at once while too few bars have closed. -/
theorem performAll_waiting
    (ready : (frame.scope globals).Ready declared)
    (counts : ReadsCounts here.numeral)
    (sound : strategy.Sound)
    (remark : Option String) :
    performAll here globals calls (allInstructions remark (Backtest.waiting strategy)) frame =
      some (frame, decide (here.bar + 1 < strategy.historyRequired)) := by
  rw [Backtest.waiting]
  split
  next =>
    have small : strategy.historyRequired < NumberText.wholeBound :=
      Nat.lt_of_le_of_lt (sound.historyRequired_le) (by decide)
    have condition := eval_comparison (eval_barsClosed ready)
      (eval_count (frame.scope globals) counts small) .less
    have compares : Relation.less.holds (Exact.number ((here.bar + 1 : Nat) : ℚ))
        (.number strategy.historyRequired) = decide (here.bar + 1 < strategy.historyRequired) :=
      decide_eq_decide.2 Nat.cast_lt
    rw [compares] at condition
    change performAll here globals calls [.conditional (term _) [.leave]] frame = _
    rw [performAll_singleton, perform_conditional condition]
    cases decide (here.bar + 1 < strategy.historyRequired) <;> rfl
  next =>
    have enough : ¬here.bar + 1 < strategy.historyRequired := by omega
    rw [decide_eq_false enough]
    rfl

end

/-! ## Bars -/

/-- Whether a frame has done what a session decides and shows the state behind it. -/
structure Frame.Does
    (frame : Frame)
    (strategy : Strategy)
    (outcome : Decision × ExitState Exact) : Prop where
  acts : Acts strategy outcome.1 frame.effects
  shows : ShowsState strategy outcome.2 frame.attributes
  supplies : SuppliesSeries strategy frame.attributes

/-- With an open position and a close, the risk exits of a session are tried. -/
theorem tryExits_eq
    {strategy : Strategy}
    {set : SeriesSet Exact}
    {bar : Nat}
    {state : ExitState Exact}
    {close entry : ℚ}
    (isClose : set.value? Column.close.key bar = some (.number close))
    (entered : state.entryPrice = some (.number entry)) :
    Session.tryExits strategy set state bar =
      let tried := ExitState.tryRules (.number entry) (.number close)
        (Session.rangeAt? set bar) strategy.exits state.levels
      (tried.1, { state with levels := tried.2 }) := by
  have close? : Session.closeAt? set bar = some (.number close) :=
    Session.closeAt_eq_some_iff.2 ⟨isClose, rfl⟩
  rw [Session.tryExits, close?]
  dsimp only
  rw [ExitState.onBar, entered]
  rfl

/-- The first rule of a direction that fires is the first one of all that has the
direction and fires. -/
theorem find_rulesOf
    (strategy : Strategy)
    (direction : Direction)
    (fires : ActionRule -> Bool) :
    (Backtest.rulesOf direction strategy).find? fires =
      strategy.actions.find? fun rule => rule.direction = direction && fires rule := by
  rw [Backtest.rulesOf, List.find?_filter]
  congr 1
  funext rule
  rw [Bool.decide_and]
  simp

/-- The exit rule of a session is the first one of the exit rules that fires. -/
theorem firstExit_eq (strategy : Strategy) (set : SeriesSet Exact) (bar : Nat) :
    Session.firstExit? strategy set bar =
      (Backtest.rulesOf .exit strategy).find? fun rule => rule.predicate.holds set bar := by
  rw [find_rulesOf]
  rfl

/-- The entry rule of a session is the first one of the entry rules that fires and would
buy something. -/
theorem firstEntry_eq
    (strategy : Strategy)
    (set : SeriesSet Exact)
    (bar : Nat)
    (close : Exact) :
    Session.firstEntry? strategy set bar close =
      (Backtest.rulesOf .entry strategy).find? fun rule =>
        rule.predicate.holds set bar && rule.sizing.opensAt close := by
  rw [find_rulesOf, Session.firstEntry?, Session.firstFiring?]
  congr 1
  funext rule
  rw [Bool.and_assoc, Bool.and_comm (rule.sizing.opensAt close)]

section

variable
  {strategy : Strategy}
  {frame : Frame}
  (idle : frame.effects = [])
  (supplies : SuppliesSeries strategy frame.attributes)

include idle supplies

theorem Frame.does_closed
    {decision : Decision}
    {remark : Option String}
    (acts : Acts strategy decision [⟨.close, remark⟩]) :
    (frame.closed strategy remark).Does strategy (decision, ExitState.flat strategy.exits) where
  acts := by
    rw [Frame.closed, idle]
    exact acts
  shows := showsState_reset strategy none frame.attributes
  supplies := suppliesSeries_reset supplies .none

theorem Frame.does_opened
    {decision : Decision}
    {remark : Option String}
    (acts : Acts strategy decision [⟨.buy, remark⟩])
    (price : Exact) :
    (frame.opened strategy price remark).Does strategy
      (decision, ⟨some price, strategy.exits.map fun _ => none⟩) where
  acts := by
    rw [Frame.opened, idle]
    exact acts
  shows := showsState_reset strategy (some price) frame.attributes
  supplies := suppliesSeries_reset supplies (.number price)

end

section

variable
  {strategy : Strategy}
  {here : Surroundings}
  {globals : String -> Option Value}
  {calls : Calls}
  {frame : Frame}
  {close : ℚ}
  {state : ExitState Exact}
  (supported : Supported strategy here.numeral here.set)
  (inside : here.bar < here.set.barCount)
  (closed : strategy.historyRequired <= here.bar + 1)
  (isClose : here.set.value? Column.close.key here.bar = some (.number close))
  (prepared : frame.Prepared globals strategy.indicators close)
  (idle : frame.effects = [])
  (consistent : state.Consistent strategy.exits)
  (shows : ShowsState strategy state frame.attributes)

include supported inside closed isClose prepared idle consistent shows

/-- With an open position a script does what the session decides. -/
theorem performAll_holding
    {entry : ℚ}
    (flat : ∀ attributes,
      calls "_flat" [] attributes = some (resetAttributes strategy .none attributes))
    (entered : state.entryPrice = some (.number entry))
    (remark : Option String) :
    ∃ next,
      performAll here globals calls (allInstructions remark (Backtest.holding strategy)) frame =
        some (next, true) ∧
      next.Does strategy (Session.decideOpen strategy here.set state here.bar) := by
  have checks : (strategy.exits.mapIdx Backtest.exitCheck).flatten =
      exitChecks 0 strategy.exits := by
    rw [← flatten_mapIdx_exitCheck]
    simp only [Nat.zero_add]
  have price : frame.attributes "entry_price" = some (.number (.number entry)) := by
    rw [shows.entryPrice, entered]
    rfl
  obtain ⟨next, moved, tried⟩ := performAll_exitChecks supported.counts flat 0
    supported.sound.exits (fun rule isRule => supported.reading_magnitude isRule)
    (fun rule isRule => supported.exists_range inside isRule) prepared price
    consistent.onlyTrailing.length_eq.symm shows.levels remark
  have stillIdle : next.effects = [] := moved.effects.trans idle
  have ready := moved.prepared prepared
  -- Levels that were moved before a signal do not show: leaving unsets all of them.
  have kept := Session.consistent_tryExits consistent here.set here.bar
  rw [Backtest.holding, allInstructions_append, allInstructions_append, checks, Session.decideOpen]
  rw [tryExits_eq isClose entered] at kept ⊢
  generalize ExitState.tryRules (.number entry) (.number close)
    (Session.rangeAt? here.set here.bar) strategy.exits state.levels = pair at kept tried ⊢
  obtain ⟨signal, levels⟩ := pair
  cases signal with
  | some signal =>
      obtain ⟨rule, isRule, named, carried⟩ := tried
      refine ⟨_, performAll_append_of_leaves (performAll_append_of_leaves carried _) _, ?_⟩
      dsimp only
      rw [kept.1.leave_eq, named]
      exact Frame.does_closed stillIdle ready.ready.series (.riskExit isRule)
  | none =>
      obtain ⟨levelsShown, carried⟩ := tried
      have conditions : ∀ rule ∈ Backtest.rulesOf .exit strategy,
          eval here (next.scope globals) (term (Backtest.predicateCode rule.predicate)) =
            some (.truth (rule.predicate.holds here.set here.bar)) := fun rule isRule =>
        supported.eval_condition inside closed ready.ready (List.mem_of_mem_filter isRule)
      have exits := performAll_exitRules ready.ready flat conditions
        (remarkBehindAll remark (exitChecks 0 strategy.exits))
      dsimp only
      cases fires : Session.firstExit? strategy here.set here.bar with
      | some rule =>
          obtain ⟨isRule, exiting⟩ := Session.mem_of_firstFiring fires
          rw [firstExit_eq] at fires
          rw [fires] at exits
          refine ⟨_, performAll_append_of_leaves
            ((performAll_append_of_stays carried _).trans exits) _, ?_⟩
          dsimp only
          rw [kept.1.leave_eq]
          exact Frame.does_closed stillIdle ready.ready.series
            (.exit isRule (decide_eq_true_iff.1 exiting))
      | none =>
          rw [firstExit_eq] at fires
          rw [fires] at exits
          refine ⟨next, performAll_append_of_stays
            ((performAll_append_of_stays carried _).trans exits) _, ?_, ?_, ?_⟩
          · rw [stillIdle]
            exact .hold
          · refine ⟨?_, levelsShown⟩
            rw [moved.attributes "entry_price" fun index _ =>
              Frame.entryPrice_ne_trailingName index]
            exact shows.entryPrice
          · exact ready.ready.series

/-- Without a position a script does what the session decides. -/
theorem performAll_entries
    (opened : ∀ price attributes,
      calls "_opened" [price] attributes = some (resetAttributes strategy price attributes))
    (isPositive : 0 < close)
    (remark : Option String) :
    ∃ next left,
      performAll here globals calls (allInstructions remark
        ((Backtest.rulesOf .entry strategy).flatMap Backtest.entryRuleCheck)) frame =
          some (next, left) ∧
      next.Does strategy (Session.decideFlat strategy here.set state here.bar) := by
  have close? : Session.closeAt? here.set here.bar = some (.number close) :=
    Session.closeAt_eq_some_iff.2 ⟨isClose, rfl⟩
  have conditions : ∀ rule ∈ Backtest.rulesOf .entry strategy,
      eval here (frame.scope globals) (term (Backtest.predicateCode rule.predicate)) =
        some (.truth (rule.predicate.holds here.set here.bar)) := fun rule isRule =>
    supported.eval_condition inside closed prepared.ready (List.mem_of_mem_filter isRule)
  have sized : ∀ rule ∈ Backtest.rulesOf .entry strategy, rule.sizing.Sound := fun rule isRule =>
    supported.sound.sizings rule (List.mem_of_mem_filter isRule)
  have entries := performAll_entryRules prepared isPositive opened supported.counts sized
    (fun rule isRule _ isCash => supported.reading_cash (List.mem_of_mem_filter isRule) isCash)
    conditions remark
  rw [Session.decideFlat, close?]
  dsimp only
  cases fires : Session.firstEntry? strategy here.set here.bar (.number close) with
  | some rule =>
      obtain ⟨isRule, eligible⟩ := Session.mem_of_firstFiring fires
      rw [Bool.and_eq_true, decide_eq_true_iff] at eligible
      rw [firstEntry_eq] at fires
      rw [fires] at entries
      refine ⟨_, true, entries, ?_⟩
      dsimp only
      rw [consistent.enter_eq]
      exact Frame.does_opened idle prepared.ready.series (.enter isRule eligible.1) (.number close)
  | none =>
      rw [firstEntry_eq] at fires
      rw [fires] at entries
      refine ⟨frame, false, entries, ?_, shows, prepared.ready.series⟩
      rw [idle]
      exact .hold

end

/-- The method that decides does what the session decides. -/
theorem performAll_deciding
    {strategy : Strategy}
    {here : Surroundings}
    {globals : String -> Option Value}
    {calls : Calls}
    {frame : Frame}
    {state : ExitState Exact}
    (supported : Supported strategy here.numeral here.set)
    (inside : here.bar < here.set.barCount)
    (flat : ∀ attributes,
      calls "_flat" [] attributes = some (resetAttributes strategy .none attributes))
    (opened : ∀ price attributes,
      calls "_opened" [price] attributes = some (resetAttributes strategy price attributes))
    (ready : (frame.scope globals).Ready strategy.indicators)
    (idle : frame.effects = [])
    (consistent : state.Consistent strategy.exits)
    (entered : ∀ price ∈ state.entryPrice, ∃ quantity, price = .number quantity)
    (shows : ShowsState strategy state frame.attributes)
    (holding : here.holding = state.isOpen)
    (remark : Option String) :
    ∃ next left,
      performAll here globals calls (allInstructions remark (deciding strategy)) frame =
        some (next, left) ∧
      next.Does strategy (Session.onBar strategy here.set state here.bar) := by
  obtain ⟨close, isPositive, isClose⟩ := supported.closes here.bar inside
  have waits : performAll here globals calls
      (allInstructions remark (Backtest.waiting strategy)) frame =
        some (frame, decide (here.bar + 1 < strategy.historyRequired)) :=
    performAll_waiting ready supported.counts supported.sound remark
  rw [deciding, List.append_assoc, allInstructions_append, Session.onBar,
    Session.closedBars_of_lt (Nat.lt_of_lt_of_le inside supported.fits)]
  by_cases early : here.bar + 1 < strategy.historyRequired
  · rw [if_pos early]
    rw [decide_eq_true early] at waits
    refine ⟨frame, true, performAll_append_of_leaves waits _, ?_, shows, ready.series⟩
    rw [idle]
    exact .hold
  · rw [if_neg early]
    rw [decide_eq_false early] at waits
    let assigned := frame.setVariable "close" (.number (.number close))
    have isLatest : eval here (frame.scope globals)
        (term (.itemFromEnd (Backtest.columnCode .close) (0 + 1))) =
          some (.number (.number close)) := by
      rw [eval_itemFromEnd (eval_columnCode ready .close) supported.counts (Nat.zero_le _)
        (Nat.zero_le _), Nat.sub_zero, isClose]
      rfl
    have assigns := perform_assign_name calls "close" isLatest
    have prepared : assigned.Prepared globals strategy.indicators close :=
      Frame.prepared_setClose ready close
    have chooses := perform_position here calls prepared.ready
    rw [performAll_append_of_stays waits]
    have enough := Nat.le_of_not_lt early
    cases isOpen : state.isOpen with
    | true =>
        obtain ⟨price, isPrice⟩ := Option.isSome_iff_exists.1 isOpen
        obtain ⟨entry, rfl⟩ := entered price isPrice
        obtain ⟨next, carried, does⟩ := performAll_holding supported inside enough isClose prepared
          idle consistent shows flat isPrice _
        refine ⟨next, true, ?_, does⟩
        refine (performAll_of_stays assigns _).trans (performAll_of_leaves ?_ _)
        refine (chooses _).trans ?_
        rw [holding, isOpen, if_pos rfl]
        exact carried
    | false =>
        obtain ⟨next, left, carried, does⟩ := performAll_entries supported inside enough isClose
          prepared idle consistent shows opened isPositive _
        refine ⟨next, left, ?_, does⟩
        refine (performAll_of_stays assigns _).trans ((performAll_of_stays ?_ _).trans carried)
        refine (chooses _).trans ?_
        rw [holding, isOpen]
        rfl

/-- What holds between bars: the state is consistent, and the attributes of the instance
show it. -/
structure InStep
    (strategy : Strategy)
    (state : ExitState Exact)
    (attributes : Attributes) : Prop where
  consistent : state.Consistent strategy.exits
  entered : ∀ price ∈ state.entryPrice, ∃ quantity, price = .number quantity
  shows : ShowsState strategy state attributes
  supplies : SuppliesSeries strategy attributes

/-- Positions are entered at numbers. -/
theorem entered_of_transition
    {strategy : Strategy}
    {set : SeriesSet Exact}
    {bar : Nat}
    {state next : ExitState Exact}
    {decision : Decision}
    (transition : Session.Transition strategy set bar state decision next)
    (entered : ∀ price ∈ state.entryPrice, ∃ quantity, price = .number quantity) :
    ∀ price ∈ next.entryPrice, ∃ quantity, price = .number quantity := by
  cases transition with
  | wait => exact entered
  | keep isOpen samePrice =>
      rw [samePrice]
      exact entered
  | enter isFlat isRule enters isClose isFinite =>
      intro price isPrice
      cases isPrice
      exact Exact.exists_number_of_isFinite isFinite
  | exit | riskExit =>
      intro price none
      cases none

/-- At every bar a script does what the session decides, and its attributes go along. -/
theorem exists_next
    {strategy : Strategy}
    {here : Surroundings}
    {state : ExitState Exact}
    {attributes : Attributes}
    (supported : Supported strategy here.numeral here.set)
    (inside : here.bar < here.set.barCount)
    (inStep : InStep strategy state attributes)
    (holding : here.holding = state.isOpen) :
    ∃ effects next, (scriptOf strategy).next here attributes = some (effects, next) ∧
      Acts strategy (Session.onBar strategy here.set state here.bar).1 effects ∧
      InStep strategy (Session.onBar strategy here.set state here.bar).2 next := by
  let frame : Frame := ⟨fun name => [("self", Value.self)].lookup name, attributes, []⟩
  obtain ⟨library, length, whole⟩ := globals_scriptOf strategy
  have ready : (frame.scope (scriptOf strategy).globals).Ready strategy.indicators :=
    ⟨rfl, library, length, whole, inStep.supplies⟩
  obtain ⟨next, left, carried, does⟩ := performAll_deciding supported inside
    (runHelper_flat strategy here) (fun price attributes =>
      runHelper_opened strategy here attributes price) ready rfl inStep.consistent inStep.entered
    inStep.shows holding (remarkBehindAll none (declaring strategy))
  have run : (scriptOf strategy).runMethod here ((scriptOf strategy).runHelper here) "next" []
      attributes = some next := runMethod_of_performAll rfl rfl carried
  have transition := Session.transition_onBar inStep.consistent here.set here.bar
  refine ⟨next.effects, next.attributes, ?_, does.acts, transition.2,
    entered_of_transition transition.1 inStep.entered, does.shows, does.supplies⟩
  rw [Script.next, run]
  rfl

end Python
end StrategyGraph
