import StrategyGraph.Proofs.Script.Check

/-!
# Risk exits of scripts

The risk exits of a script are tried one behind the other. The first one that triggers
closes the position, and the levels of those behind it stay as they are.
-/

namespace StrategyGraph
namespace Python

open Backtest (Code Statement)

/-- Whether attributes show the levels of trailing stops, counted from a position. -/
def ShowsLevels
    (start : Nat)
    (rules : List ExitRule)
    (levels : List (Option Exact))
    (attributes : Attributes) : Prop :=
  ∀ index rule, rules[index]? = some rule -> rule.isTrailing = true ->
    attributes (trailingName (start + index)) = some (shown (levels[index]?).join)

/-- Whether two frames differ at most in a candidate and in trailing levels from a
position on. -/
structure Frame.MovedFrom (start : Nat) (before after : Frame) : Prop where
  effects : after.effects = before.effects
  locals : ∀ name, name ≠ "candidate" -> after.locals name = before.locals name
  attributes : ∀ name, (∀ index, start <= index -> name ≠ trailingName index) ->
    after.attributes name = before.attributes name

theorem trailingName_injective
    {index other : Nat}
    (equal : trailingName index = trailingName other) :
    index = other := by
  have digits := congrArg String.toList equal
  rw [trailingName, trailingName, String.toList_append, String.toList_append,
    List.append_cancel_left_eq] at digits
  exact eq_of_toList_repr_eq digits

namespace Frame

variable {start : Nat} {frame next after : Frame}

theorem MovedFrom.refl (start : Nat) (frame : Frame) : frame.MovedFrom start frame :=
  ⟨rfl, fun _ _ => rfl, fun _ _ => rfl⟩

theorem Moved.movedFrom (moved : frame.Moved start next) : frame.MovedFrom start next where
  effects := moved.effects
  locals := moved.locals
  attributes name different := moved.attributes name (different start (Nat.le_refl start))

theorem Moved.trans
    (moved : frame.Moved start next)
    (others : next.MovedFrom (start + 1) after) :
    frame.MovedFrom start after where
  effects := others.effects.trans moved.effects
  locals name different := (others.locals name different).trans (moved.locals name different)
  attributes name different :=
    (others.attributes name fun index above =>
      different index (Nat.le_of_succ_le above)).trans
        (moved.attributes name (different start (Nat.le_refl start)))

theorem MovedFrom.prepared
    {globals : String -> Option Value}
    {declared : List IndicatorSeries}
    {close : ℚ}
    (moved : frame.MovedFrom start next)
    (prepared : frame.Prepared globals declared close) :
    next.Prepared globals declared close :=
  prepared.of_eq moved.locals fun series =>
    moved.attributes _ fun index _ => key_ne_trailingName series index

end Frame

section

variable
  {start : Nat}
  {rule : ExitRule}
  {rules : List ExitRule}
  {stored : Option Exact}
  {levels : List (Option Exact)}
  {frame next after : Frame}

/-- Moving the first level leaves the others as they are. -/
theorem ShowsLevels.tail
    (shows : ShowsLevels start (rule :: rules) (stored :: levels) frame.attributes)
    (moved : frame.Moved start next) :
    ShowsLevels (start + 1) rules levels next.attributes := by
  intro index other listed isTrailing
  have different : trailingName (start + 1 + index) ≠ trailingName start := by
    intro equal
    have same := trailingName_injective equal
    omega
  rw [moved.attributes _ different, Nat.add_assoc, Nat.add_comm 1]
  exact shows (index + 1) other listed isTrailing

/-- Moving the other levels leaves the first one as it is. -/
theorem ShowsLevels.cons
    (first : rule.isTrailing = true ->
      next.attributes (trailingName start) = some (shown stored))
    (moved : next.MovedFrom (start + 1) after)
    (shows : ShowsLevels (start + 1) rules levels after.attributes) :
    ShowsLevels start (rule :: rules) (stored :: levels) after.attributes := by
  intro index other listed isTrailing
  cases index with
  | zero =>
      cases listed
      have stays := moved.attributes (trailingName start) fun index above equal => by
        have same := trailingName_injective equal
        omega
      exact stays.trans (first isTrailing)
  | succ index =>
      have shownLevel := shows index other listed isTrailing
      rw [Nat.add_assoc, Nat.add_comm 1] at shownLevel
      exact shownLevel

end

/-! ## Risk exits -/

section

variable
  {here : Surroundings}
  {globals : String -> Option Value}
  {calls : Calls}
  {strategy : Strategy}
  {declared : List IndicatorSeries}
  {close entry : ℚ}
  (counts : ReadsCounts here.numeral)
  (flat : ∀ attributes,
    calls "_flat" [] attributes = some (resetAttributes strategy .none attributes))

include counts flat

/-- A risk exit at a bar, with the level that its rule keeps. -/
theorem performAll_exitCheck
    {frame : Frame}
    {rule : ExitRule}
    {index : Nat}
    {stored : Option Exact}
    (sound : rule.Sound declared)
    (reads : reading here.numeral rule.magnitude = Binary64.exact rule.magnitude)
    (supplied : ∀ series ∈ rule.atr, ∃ quantity,
      here.set.value? series.key here.bar = some quantity)
    (prepared : frame.Prepared globals declared close)
    (entered : frame.attributes "entry_price" = some (.number (.number entry)))
    (keeps : rule.isTrailing = true ->
      frame.attributes (trailingName index) = some (shown stored))
    (remark : Option String) :
    ∃ next, frame.Moved index next ∧
      (rule.isTrailing = true -> next.attributes (trailingName index) = some (shown
        (ExitState.levelAt rule (.number entry) (.number close)
          (rule.atr.bind (Session.rangeAt? here.set here.bar)) stored).2)) ∧
      performAll here globals calls (allInstructions remark (Backtest.exitCheck index rule))
        frame =
        if ((ExitState.levelAt rule (.number entry) (.number close)
            (rule.atr.bind (Session.rangeAt? here.set here.bar)) stored).1.filter
              (rule.isBreached (.number close))).isSome then
          some (next.closed strategy
            (some (rule.kind.text ++ " " ++ Quoted.encode rule.node)), true)
        else some (next, false) := by
  rw [Backtest.exitCheck]
  cases isTrailing : rule.isTrailing with
  | true =>
      obtain ⟨next, moved, kept, carried⟩ := performAll_trailingCheck sound counts reads supplied
        prepared flat isTrailing (keeps isTrailing) (.number entry)
        (some (rule.kind.text ++ " " ++ Quoted.encode rule.node))
      exact ⟨next, moved, fun _ => kept, carried⟩
  | false =>
      have carried := performAll_fixedCheck stored sound counts reads supplied prepared flat
        isTrailing entered
        (some (rule.kind.text ++ " " ++ Quoted.encode rule.node))
      exact ⟨frame, Frame.Moved.refl index frame, fun other => (by cases other), carried⟩

/-- Statements that try risk exits, counted from a position. -/
def exitChecks (start : Nat) : List ExitRule -> List Statement
  | [] => []
  | rule :: rules => Backtest.exitCheck start rule ++ exitChecks (start + 1) rules

omit counts flat in
theorem flatten_mapIdx_exitCheck (start : Nat) (rules : List ExitRule) :
    (rules.mapIdx fun index => Backtest.exitCheck (start + index)).flatten =
      exitChecks start rules := by
  induction rules generalizing start with
  | nil => rfl
  | cons rule rules hypothesis =>
      rw [List.mapIdx_cons, List.flatten_cons, exitChecks, ← hypothesis]
      simp only [Nat.add_zero, Nat.add_assoc, Nat.add_comm 1]

/-- Risk exits are tried as the rules are: the first one that triggers closes the
position, and until then levels are kept as the rules keep them. -/
theorem performAll_exitChecks
    {frame : Frame}
    {rules : List ExitRule}
    {levels : List (Option Exact)}
    (start : Nat)
    (sound : ∀ rule ∈ rules, rule.Sound declared)
    (reads : ∀ rule ∈ rules, reading here.numeral rule.magnitude = Binary64.exact rule.magnitude)
    (supplied : ∀ rule ∈ rules, ∀ series ∈ rule.atr, ∃ quantity,
      here.set.value? series.key here.bar = some quantity)
    (prepared : frame.Prepared globals declared close)
    (entered : frame.attributes "entry_price" = some (.number (.number entry)))
    (lengths : levels.length = rules.length)
    (keeps : ShowsLevels start rules levels frame.attributes)
    (remark : Option String) :
    ∃ next, frame.MovedFrom start next ∧
      match ExitState.tryRules (.number entry) (.number close)
        (Session.rangeAt? here.set here.bar) rules levels with
      | (some signal, _) => ∃ rule ∈ rules, signal.rule = rule.node ∧
          performAll here globals calls (allInstructions remark (exitChecks start rules)) frame =
            some (next.closed strategy
              (some (rule.kind.text ++ " " ++ Quoted.encode rule.node)), true)
      | (none, kept) =>
          ShowsLevels start rules kept next.attributes ∧
            performAll here globals calls (allInstructions remark (exitChecks start rules))
              frame = some (next, false) := by
  induction rules generalizing start frame levels remark with
  | nil =>
      refine ⟨frame, Frame.MovedFrom.refl start frame, ?_⟩
      cases levels with
      | nil => exact ⟨keeps, rfl⟩
      | cons => cases lengths
  | cons rule rules hypothesis =>
      cases levels with
      | nil => cases lengths
      | cons stored levels =>
          have keepsFirst : rule.isTrailing = true ->
              frame.attributes (trailingName start) = some (shown stored) := keeps 0 rule rfl
          obtain ⟨next, moved, kept, carried⟩ := performAll_exitCheck counts flat
            (sound rule List.mem_cons_self) (reads rule List.mem_cons_self)
            (supplied rule List.mem_cons_self) prepared entered keepsFirst remark
          rw [ExitState.tryRules, exitChecks, allInstructions_append]
          generalize ExitState.levelAt rule (.number entry) (.number close)
            (rule.atr.bind (Session.rangeAt? here.set here.bar)) stored = pair at kept carried ⊢
          obtain ⟨level, keptLevel⟩ := pair
          dsimp only at kept carried ⊢
          -- Leaving skips the checks behind, just as the rules behind keep their levels.
          cases breached : level.filter (rule.isBreached (.number close)) with
          | some reached =>
              rw [breached, Option.isSome_some, if_pos rfl] at carried
              exact ⟨next, moved.movedFrom, rule, List.mem_cons_self, rfl,
                performAll_append_of_leaves carried _⟩
          | none =>
              rw [breached, Option.isSome_none, if_neg Bool.false_ne_true] at carried
              have entered' : next.attributes "entry_price" = some (.number (.number entry)) :=
                (moved.attributes _ (Frame.entryPrice_ne_trailingName start)).trans entered
              obtain ⟨after, others, outcome⟩ := hypothesis (start + 1)
                (fun other member => sound other (List.mem_cons_of_mem rule member))
                (fun other member => reads other (List.mem_cons_of_mem rule member))
                (fun other member => supplied other (List.mem_cons_of_mem rule member))
                (moved.prepared prepared) entered' (Nat.succ.inj lengths) (keeps.tail moved)
                (remarkBehindAll remark (Backtest.exitCheck start rule))
              refine ⟨after, moved.trans others, ?_⟩
              rw [performAll_append_of_stays carried]
              cases tried : ExitState.tryRules (.number entry) (.number close)
                  (Session.rangeAt? here.set here.bar) rules levels with
              | mk signal keptLevels =>
                  rw [tried] at outcome
                  cases signal with
                  | some signal =>
                      obtain ⟨other, member, isRule, leaves⟩ := outcome
                      exact ⟨other, List.mem_cons_of_mem rule member, isRule, leaves⟩
                  | none =>
                      exact ⟨.cons kept others outcome.1, outcome.2⟩

end

end Python
end StrategyGraph
