import StrategyGraph.Proofs.Script.Instruction
import StrategyGraph.Run.ExitState
import StrategyGraph.Run.Session

/-!
# Checks of risk exits

A check of a risk exit does what its rule does at the bar. It moves the level of a
trailing stop as far as the rule does, and it closes the position exactly when the rule
triggers.
-/

namespace StrategyGraph
namespace Python

open Backtest (Code Statement)

/-! ## Trailing levels -/

section

variable
  {here : Surroundings}
  {globals : String -> Option Value}
  {calls : Calls}
  {strategy : Strategy}
  {declared : List IndicatorSeries}
  {frame : Frame}
  {close : ℚ}
  {rule : ExitRule}
  {index : Nat}
  {stored : Option Exact}
  (prepared : frame.Prepared globals declared close)
  (keeps : frame.attributes (trailingName index) = some (shown stored))

include prepared

theorem eval_trailingLevel :
    eval here (frame.scope globals) (term (Backtest.trailingLevel index)) =
      frame.attributes (trailingName index) := by
  have different : ∀ name : String, name.toList.take 1 ≠ ['t'] ->
      trailingName index ≠ name := by
    rintro name other rfl
    rw [trailingName, String.toList_append] at other
    exact other (by simp)
  exact eval_own prepared.ready (different "data" (by decide)) (different "position" (by decide))

include keeps

variable (here) in
theorem eval_trailingLevel_of_keeps :
    eval here (frame.scope globals) (term (Backtest.trailingLevel index)) =
      some (shown stored) :=
  (eval_trailingLevel prepared).trans keeps

variable (here) in
theorem eval_isNone :
    eval here (frame.scope globals) (term (.isNone (Backtest.trailingLevel index))) =
      some (.truth stored.isNone) := by
  rw [term, eval, eval_trailingLevel_of_keeps here prepared keeps]
  cases stored <;> rfl

variable (here) in
theorem eval_isNotNone :
    eval here (frame.scope globals) (term (.isNotNone (Backtest.trailingLevel index))) =
      some (.truth stored.isSome) := by
  rw [term, eval, eval_trailingLevel_of_keeps here prepared keeps]
  cases stored <;> rfl

variable (calls) in
/-- The level of a trailing stop is moved up to its candidate. -/
theorem performAll_ratcheting
    {candidate : ℚ}
    (isCandidate : eval here (frame.scope globals)
      (term (Backtest.levelCode rule Backtest.close)) = some (.number (.number candidate)))
    (remark : Option String) :
    ∃ next,
      performAll here globals calls (allInstructions remark (Backtest.ratcheting index rule))
        frame = some (next, false) ∧
      frame.Moved index next ∧
      next.attributes (trailingName index) =
        some (shown (ExitState.ratchet stored (some (.number candidate)))) := by
  let assigned := frame.setVariable "candidate" (.number (.number candidate))
  have moved : frame.Moved index assigned := (Frame.Moved.refl index frame).setVariable _
  have ready := moved.prepared prepared
  have read : eval here (assigned.scope globals) (term (.name "candidate")) =
      some (.number (.number candidate)) := by
    refine (eval_name "candidate").trans ?_
    rw [Scope.value?]
    change (Function.update frame.locals "candidate" _ "candidate" <|> _) = _
    rw [Function.update_self]
    rfl
  have unset := eval_isNone here ready keeps
  have level := eval_trailingLevel_of_keeps here ready keeps
  have assigns := perform_assign_name calls "candidate" isCandidate
  have raises : perform here globals calls
      (.assign (term (Backtest.trailingLevel index)) (term (.name "candidate"))) assigned =
        some (assigned.setAttribute (trailingName index) (.number (.number candidate)), false) :=
    perform_assign_own ready.ready.self rfl read
  have raised : (assigned.setAttribute (trailingName index)
      (.number (.number candidate))).attributes (trailingName index) =
        some (shown (some (.number candidate))) :=
    Function.update_self _ _ _
  have condition : eval here (assigned.scope globals)
      (term (.disjunction [.isNone (Backtest.trailingLevel index),
        .comparison (.name "candidate") .greater (Backtest.trailingLevel index)])) =
      some (.truth (stored.all fun stored => Quantity.less stored (.number candidate))) := by
    rw [eval_disjunction (List.cons_ne_nil _ _), List.map_cons]
    cases stored with
    | none => exact evalUntil_of_decides unset _
    | some quantity =>
        have above := eval_comparison read level .greater
        rw [evalUntil_of_passes unset (by simp), List.map_cons, List.map_nil,
          evalUntil_singleton, above]
        rfl
  have carried : performAll here globals calls
      (allInstructions remark (Backtest.ratcheting index rule)) frame =
        if stored.all fun stored => Quantity.less stored (.number candidate) then
          some (assigned.setAttribute (trailingName index) (.number (.number candidate)), false)
        else some (assigned, false) := by
    refine (performAll_of_stays assigns _).trans ?_
    refine (performAll_singleton _ assigned).trans ?_
    rw [perform_conditional condition]
    refine if_congr Iff.rfl ?_ rfl
    exact (performAll_singleton _ assigned).trans raises
  cases stored with
  | none => exact ⟨_, carried, moved.setAttribute _, raised⟩
  | some quantity =>
      rw [Option.all_some] at carried
      rw [ExitState.ratchet]
      cases above : Quantity.less quantity (.number candidate) with
      | true =>
          rw [above, if_pos rfl] at carried
          rw [if_pos rfl]
          exact ⟨_, carried, moved.setAttribute _, raised⟩
      | false =>
          rw [above, if_neg Bool.false_ne_true] at carried
          rw [if_neg Bool.false_ne_true]
          exact ⟨_, carried, moved, keeps⟩

end

/-! ## Checks -/

/-- Statements that move a trailing level. -/
def moving (index : Nat) (rule : ExitRule) : List Statement :=
  match rule.atr with
  | none => Backtest.ratcheting index rule
  | some series =>
      [.conditional (.negation (Backtest.isMissing (Backtest.latest series)))
        (Backtest.ratcheting index rule)]

theorem trailingCheck_eq (index : Nat) (rule : ExitRule) :
    Backtest.trailingCheck index rule =
      moving index rule ++ [.conditional
        (.conjunction (Backtest.guards rule ++ [.isNotNone (Backtest.trailingLevel index),
          .comparison Backtest.close .atMost (Backtest.trailingLevel index)]))
        Backtest.closing] := by
  unfold Backtest.trailingCheck moving
  cases rule.atr <;> rfl

theorem remarkBehindAll_moving
    (remark : Option String)
    (index : Nat)
    (rule : ExitRule) :
    remarkBehindAll remark (moving index rule) = remark := by
  rw [moving]
  cases rule.atr <;> rfl

/-- A level that has a candidate is set. -/
theorem exists_ratchet (stored : Option Exact) (candidate : Exact) :
    ∃ level, ExitState.ratchet stored (some candidate) = some level := by
  cases stored with
  | none => exact ⟨candidate, rfl⟩
  | some quantity =>
      rw [ExitState.ratchet]
      cases Quantity.less quantity candidate with
      | true => exact ⟨candidate, rfl⟩
      | false => exact ⟨quantity, rfl⟩

/-- Whether a rule waits for its range. -/
def waits (here : Surroundings) (rule : ExitRule) : Bool :=
  rule.atr.isSome && (rule.atr.bind (Session.rangeAt? here.set here.bar)).isNone

section

variable
  {here : Surroundings}
  {rule : ExitRule}
  {entry close : Exact}
  {stored : Option Exact}

theorem levelAt_of_waits (waiting : waits here rule = true) :
    ExitState.levelAt rule entry close
      (rule.atr.bind (Session.rangeAt? here.set here.bar)) stored = (none, stored) :=
  if_pos waiting

theorem levelAt_of_trailing
    (proceeds : waits here rule = false)
    (isTrailing : rule.isTrailing = true) :
    ExitState.levelAt rule entry close
      (rule.atr.bind (Session.rangeAt? here.set here.bar)) stored =
        (ExitState.ratchet stored
          (rule.level? close (rule.atr.bind (Session.rangeAt? here.set here.bar))),
        ExitState.ratchet stored
          (rule.level? close (rule.atr.bind (Session.rangeAt? here.set here.bar)))) := by
  rw [waits] at proceeds
  rw [ExitState.levelAt, proceeds, if_neg Bool.false_ne_true, if_pos isTrailing]

theorem levelAt_of_fixed
    (proceeds : waits here rule = false)
    (notTrailing : rule.isTrailing = false) :
    ExitState.levelAt rule entry close
      (rule.atr.bind (Session.rangeAt? here.set here.bar)) stored =
        (rule.level? entry (rule.atr.bind (Session.rangeAt? here.set here.bar)), stored) := by
  rw [waits] at proceeds
  rw [ExitState.levelAt, proceeds, if_neg Bool.false_ne_true, notTrailing,
    if_neg Bool.false_ne_true]

end

theorem isSome_filter_some {Item : Type} (holds : Item -> Bool) (item : Item) :
    ((some item).filter holds).isSome = holds item := by
  rw [Option.filter_some]
  cases holds item <;> rfl

/-- A close breaches a level on the side of the rule. -/
theorem isBreached_eq (rule : ExitRule) (close level : Exact) :
    rule.isBreached close level =
      (if rule.kind.isStop then Relation.atMost else .atLeast).holds close level := by
  rw [ExitRule.isBreached]
  cases rule.kind.isStop <;> rfl

section

variable
  {here : Surroundings}
  {globals : String -> Option Value}
  {calls : Calls}
  {strategy : Strategy}
  {declared : List IndicatorSeries}
  {frame : Frame}
  {close : ℚ}
  {rule : ExitRule}
  {index : Nat}
  {stored : Option Exact}
  (sound : rule.Sound declared)
  (counts : ReadsCounts here.numeral)
  (reads : reading here.numeral rule.magnitude = Binary64.exact rule.magnitude)
  (supplied : ∀ series ∈ rule.atr, ∃ quantity,
    here.set.value? series.key here.bar = some quantity)

include sound counts supplied

/-- The guard of a range holds where the range is available. -/
theorem eval_guard
    {scope : Scope}
    (ready : scope.Ready declared)
    {series : IndicatorSeries}
    (isRange : rule.atr = some series) :
    eval here scope (term (.negation (Backtest.isMissing (Backtest.latest series)))) =
      some (.truth !waits here rule) := by
  obtain ⟨quantity, value⟩ := supplied series isRange
  have latest := eval_latest ready counts (sound.isDeclared series isRange).2
  rw [value, Option.map_some] at latest
  rw [eval_negation (eval_isMissing ready latest), waits, isRange, Option.bind_some,
    Session.rangeAt?, value]
  cases quantity <;> rfl

theorem evalUntil_guards
    {scope : Scope}
    (ready : scope.Ready declared)
    {terms : List Term}
    (nonempty : terms ≠ []) :
    evalUntil here scope false ((Backtest.guards rule).map term ++ terms) =
      if waits here rule then some (.truth false) else evalUntil here scope false terms := by
  rw [Backtest.guards]
  cases isRange : rule.atr with
  | none =>
      rw [waits, isRange]
      rfl
  | some series =>
      have guard := eval_guard sound counts supplied ready isRange
      change evalUntil here scope false
        (term (.negation (Backtest.isMissing (Backtest.latest series))) :: terms) = _
      cases waiting : waits here rule with
      | true =>
          rw [waiting] at guard
          exact evalUntil_of_decides guard terms
      | false =>
          rw [waiting] at guard
          exact evalUntil_of_passes guard nonempty

/-- A rule that does not wait has a level. -/
theorem exists_level
    {scope : Scope}
    (ready : scope.Ready declared)
    (reads : reading here.numeral rule.magnitude = Binary64.exact rule.magnitude)
    (proceeds : waits here rule = false)
    {reference : Code}
    {price : ℚ}
    (isPrice : eval here scope (term reference) = some (.number (.number price))) :
    ∃ level,
      rule.level? (.number price) (rule.atr.bind (Session.rangeAt? here.set here.bar)) =
        some (.number level) ∧
      eval here scope (term (Backtest.levelCode rule reference)) =
        some (.number (.number level)) := by
  refine eval_levelCode ready counts sound reads isPrice fun series isRange => ?_
  obtain ⟨quantity, value⟩ := supplied series isRange
  rw [waits, Option.mem_def.1 isRange, Option.bind_some, Session.rangeAt?, value] at proceeds
  rw [Option.mem_def.1 isRange, Option.bind_some, Session.rangeAt?, value]
  cases quantity with
  | missing => cases proceeds
  | number width => exact ⟨width, rfl, rfl⟩

variable
  (prepared : frame.Prepared globals declared close)

include reads prepared

variable (calls) in
/-- The level of a trailing stop is moved unless the rule waits. -/
theorem performAll_moving
    (isTrailing : rule.isTrailing = true)
    (keeps : frame.attributes (trailingName index) = some (shown stored))
    (entry : Exact)
    (remark : Option String) :
    ∃ next, frame.Moved index next ∧
      next.attributes (trailingName index) = some (shown
        (ExitState.levelAt rule entry (.number close)
          (rule.atr.bind (Session.rangeAt? here.set here.bar)) stored).2) ∧
      performAll here globals calls
        (allInstructions remark (moving index rule)) frame = some (next, false) := by
  have isClose := eval_close here prepared
  cases waiting : waits here rule with
  | true =>
      refine ⟨frame, Frame.Moved.refl index frame, ?_, ?_⟩
      · rw [levelAt_of_waits waiting]
        exact keeps
      · rw [moving]
        split
        next noRange =>
          rw [waits, noRange] at waiting
          cases waiting
        next series isRange =>
          have guard := eval_guard sound counts supplied prepared.ready isRange
          rw [waiting] at guard
          refine (performAll_singleton _ frame).trans ?_
          exact perform_conditional guard _
  | false =>
      obtain ⟨candidate, isLevel, evaluates⟩ :=
        exists_level sound counts supplied prepared.ready reads waiting isClose
      obtain ⟨next, carried, moved, kept⟩ :=
        performAll_ratcheting calls prepared keeps evaluates remark
      refine ⟨next, moved, ?_, ?_⟩
      · rw [levelAt_of_trailing waiting isTrailing, isLevel]
        exact kept
      · rw [moving]
        split
        next => exact carried
        next series isRange =>
          have guard := eval_guard sound counts supplied prepared.ready isRange
          rw [waiting] at guard
          refine (performAll_singleton _ frame).trans ?_
          exact (perform_conditional guard _).trans carried

variable
  (flat : ∀ attributes,
    calls "_flat" [] attributes = some (resetAttributes strategy .none attributes))

include flat

/-- The check of a trailing stop moves its level and closes at a level that is reached. -/
theorem performAll_trailingCheck
    (isTrailing : rule.isTrailing = true)
    (keeps : frame.attributes (trailingName index) = some (shown stored))
    (entry : Exact)
    (remark : Option String) :
    ∃ next, frame.Moved index next ∧
      next.attributes (trailingName index) = some (shown
        (ExitState.levelAt rule entry (.number close)
          (rule.atr.bind (Session.rangeAt? here.set here.bar)) stored).2) ∧
      performAll here globals calls (allInstructions remark (Backtest.trailingCheck index rule))
        frame =
        if ((ExitState.levelAt rule entry (.number close)
            (rule.atr.bind (Session.rangeAt? here.set here.bar)) stored).1.filter
              (rule.isBreached (.number close))).isSome then
          some (next.closed strategy remark, true)
        else some (next, false) := by
  obtain ⟨next, moved, kept, carried⟩ := performAll_moving calls sound counts reads
    supplied prepared isTrailing keeps entry remark
  refine ⟨next, moved, kept, ?_⟩
  have ready := moved.prepared prepared
  have isClose := eval_close here ready
  have isSet := eval_isNotNone here ready kept
  have level := eval_trailingLevel_of_keeps here ready kept
  have isStop : rule.kind.isStop = true := by
    rw [of_decide_eq_true isTrailing]
    rfl
  have condition : eval here (next.scope globals) (term (.conjunction
      (Backtest.guards rule ++ [.isNotNone (Backtest.trailingLevel index),
        .comparison Backtest.close .atMost (Backtest.trailingLevel index)]))) =
      some (.truth ((ExitState.levelAt rule entry (.number close)
          (rule.atr.bind (Session.rangeAt? here.set here.bar)) stored).1.filter
            (rule.isBreached (.number close))).isSome) := by
    rw [eval_conjunction (by simp), List.map_append,
      evalUntil_guards sound counts supplied ready.ready (by simp)]
    cases waiting : waits here rule with
    | true =>
        rw [if_pos rfl, levelAt_of_waits waiting]
        rfl
    | false =>
        obtain ⟨candidate, isLevel, _⟩ :=
          exists_level sound counts supplied ready.ready reads waiting isClose
        obtain ⟨quantity, isQuantity⟩ := exists_ratchet stored (.number candidate)
        rw [levelAt_of_trailing waiting isTrailing, isLevel, isQuantity] at isSet level ⊢
        have reached := eval_comparison isClose level .atMost
        rw [if_neg Bool.false_ne_true, List.map_cons, List.map_cons, List.map_nil,
          evalUntil_of_passes isSet (by simp), evalUntil_singleton, reached,
          isSome_filter_some, isBreached_eq, isStop, if_pos rfl]
  rw [trailingCheck_eq, allInstructions_append, remarkBehindAll_moving]
  exact (performAll_append_of_stays carried _).trans
    (performAll_closingIf ready.ready flat condition remark)

variable (stored) in
/-- The check of any other exit closes at a level that is reached. -/
theorem performAll_fixedCheck
    (notTrailing : rule.isTrailing = false)
    {entry : ℚ}
    (entered : frame.attributes "entry_price" = some (.number (.number entry)))
    (remark : Option String) :
    performAll here globals calls (allInstructions remark (Backtest.fixedCheck rule)) frame =
      if ((ExitState.levelAt rule (.number entry) (.number close)
          (rule.atr.bind (Session.rangeAt? here.set here.bar)) stored).1.filter
            (rule.isBreached (.number close))).isSome then
        some (frame.closed strategy remark, true)
      else some (frame, false) := by
  have isClose := eval_close here prepared
  have isEntry : eval here (frame.scope globals) (term Backtest.entryPrice) =
      some (.number (.number entry)) :=
    (eval_own prepared.ready (by decide) (by decide)).trans entered
  have condition : eval here (frame.scope globals) (term (.conjunction
      (Backtest.guards rule ++
        [.comparison Backtest.close (if rule.kind.isStop then .atMost else .atLeast)
          (Backtest.levelCode rule Backtest.entryPrice)]))) =
      some (.truth ((ExitState.levelAt rule (.number entry) (.number close)
          (rule.atr.bind (Session.rangeAt? here.set here.bar)) stored).1.filter
            (rule.isBreached (.number close))).isSome) := by
    rw [eval_conjunction (by simp), List.map_append,
      evalUntil_guards sound counts supplied prepared.ready (by simp)]
    cases waiting : waits here rule with
    | true =>
        rw [if_pos rfl, levelAt_of_waits waiting]
        rfl
    | false =>
        obtain ⟨level, isLevel, evaluates⟩ :=
          exists_level sound counts supplied prepared.ready reads waiting isEntry
        have reached := eval_comparison isClose evaluates
          (if rule.kind.isStop then .atMost else .atLeast)
        rw [if_neg Bool.false_ne_true, levelAt_of_fixed waiting notTrailing, isLevel,
          List.map_cons, List.map_nil, evalUntil_singleton, reached, isSome_filter_some,
          isBreached_eq]
  exact performAll_closingIf prepared.ready flat condition remark

end

end Python
end StrategyGraph
