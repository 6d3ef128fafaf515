import StrategyGraph.Proofs.Compile.Reordering
import StrategyGraph.Proofs.Market.Prefix
import StrategyGraph.Proofs.Run.Lifecycle
import StrategyGraph.Strategy.Datum

/-!
# Running rules in another order

Strategies whose rules do the same in another order trade at the same bars. Which rule is
named may differ: the first one to fire or to trigger is another one. The levels behind a
rule that triggers are not moved, but the position is closed at that bar and all levels are
unset, so the order of risk exits leaves no trace either.
-/

namespace StrategyGraph

/-! ## What a strategy needs -/

/-- The largest number of a list depends on its members alone. -/
theorem max_eq_of_mem_iff
    {first second : List Nat}
    (same : ∀ number, number ∈ first ↔ number ∈ second) :
    first.max? = second.max? := by
  ext number
  rw [List.max?_eq_some_iff, List.max?_eq_some_iff]
  simp only [same]

namespace Predicate.Alike

variable {first second : Predicate} (alike : first.Alike second)

include alike

theorem maxOffset_eq : first.maxOffset? = second.maxOffset? := by
  refine max_eq_of_mem_iff fun offset => ?_
  simp only [List.mem_filterMap, alike.expressions]

theorem mem_seriesKeys_iff (key : String) :
    key ∈ first.seriesKeys ↔ key ∈ second.seriesKeys := by
  simp only [seriesKeys, List.mem_filterMap, alike.expressions]

end Predicate.Alike

namespace Strategy.Alike

variable {strategy other : Strategy} (alike : strategy.Alike other)

include alike

theorem historyRequired_eq : strategy.historyRequired = other.historyRequired := by
  have offsets : strategy.requiredOffsets.max? = other.requiredOffsets.max? := by
    refine max_eq_of_mem_iff fun offset => ?_
    rw [requiredOffsets, requiredOffsets, alike.exits.isEmpty_eq, List.mem_append,
      List.mem_append, List.mem_filterMap, List.mem_filterMap]
    exact or_congr_right (alike.actions.exists_iff fun _ _ rules => by
      rw [rules.predicate.maxOffset_eq])
  rw [historyRequired, historyRequired, offsets]

theorem mem_neededKeys_iff (key : String) :
    key ∈ strategy.neededKeys ↔ key ∈ other.neededKeys := by
  simp only [neededKeys, List.mem_eraseDups, List.mem_cons, List.mem_append,
    alike.actions.mem_flatMap_iff fun _ _ rules => rules.predicate.mem_seriesKeys_iff,
    alike.indicators]

theorem checkRequirements
    {set : SeriesSet Value}
    (accepted : set.checkRequirements strategy = .ok ()) :
    set.checkRequirements other = .ok () := by
  rw [SeriesSet.checkRequirements_eq_ok_iff] at accepted ⊢
  exact fun key needed => accepted key ((alike.mem_neededKeys_iff key).2 needed)

end Strategy.Alike

/-! ## Risk exits -/

namespace ExitState

/-- Two states of the same rules in another order, with the same levels beside them. -/
structure Alike
    (rules others : List ExitRule)
    (state stateOther : ExitState Value) : Prop where
  entryPrice : state.entryPrice = stateOther.entryPrice
  levels : (rules.zip state.levels).Perm (others.zip stateOther.levels)

theorem alike_flat
    {rules others : List ExitRule}
    (reordered : rules.Perm others) :
    (flat rules : ExitState Value).Alike rules others (flat others) := by
  have slots : ∀ rules : List ExitRule,
      rules.zip (rules.map fun _ => (none : Option Value)) =
        rules.map fun rule => (rule, none) := by
    intro rules
    conv_lhs => rw [← List.map_id rules, List.map_map]
    exact List.zip_map'
  refine ⟨rfl, ?_⟩
  rw [flat, flat, slots, slots]
  exact reordered.map _

namespace Alike

variable
  {rules others : List ExitRule}
  {state stateOther : ExitState Value}
  (alike : state.Alike rules others stateOther)

include alike

theorem isOpen_eq : state.isOpen = stateOther.isOpen :=
  congrArg Option.isSome alike.entryPrice

/-- States with no level set and the same entry price are alike. -/
theorem unset (entryPrice : Option Value) :
    Alike rules others ⟨entryPrice, state.levels.map fun _ => none⟩
      ⟨entryPrice, stateOther.levels.map fun _ => none⟩ := by
  refine ⟨rfl, ?_⟩
  rw [List.zip_map_right, List.zip_map_right]
  exact alike.levels.map _

end Alike

variable [Quantity Value]

variable
  {entry close : Value}
  {rangeOf : IndicatorSeries -> Option Value}

/-- Whether a rule triggers with a stored level. -/
def triggers
    (entry close : Value)
    (rangeOf : IndicatorSeries -> Option Value)
    (slot : ExitRule × Option Value) : Bool :=
  (levelAt slot.1 entry close (slot.1.atr.bind rangeOf) slot.2).1.any (slot.1.isBreached close)

/-- A rule with the level it keeps if it does not trigger. -/
def moved
    (entry close : Value)
    (rangeOf : IndicatorSeries -> Option Value)
    (slot : ExitRule × Option Value) : ExitRule × Option Value :=
  (slot.1, (levelAt slot.1 entry close (slot.1.atr.bind rangeOf) slot.2).2)

/-- There is a signal exactly if some rule triggers. -/
theorem isSome_tryRules (rules : List ExitRule) (levels : List (Option Value)) :
    (tryRules entry close rangeOf rules levels).1.isSome =
      (rules.zip levels).any (triggers entry close rangeOf) := by
  induction rules generalizing levels with
  | nil => rfl
  | cons rule rules hypothesis =>
      cases levels with
      | nil => rfl
      | cons stored levels =>
          rw [List.zip_cons_cons, List.any_cons, ← hypothesis levels, triggers, tryRules]
          dsimp only
          cases (levelAt rule entry close (rule.atr.bind rangeOf) stored).1 with
          | none => rfl
          | some level =>
              rw [Option.filter_some, Option.any_some]
              cases rule.isBreached close level <;> rfl

/-- Without a signal every rule has moved its level. -/
theorem zip_tryRules
    (rules : List ExitRule)
    {levels : List (Option Value)}
    (quiet : (tryRules entry close rangeOf rules levels).1 = none) :
    rules.zip (tryRules entry close rangeOf rules levels).2 =
      (rules.zip levels).map (moved entry close rangeOf) := by
  induction rules generalizing levels with
  | nil => rfl
  | cons rule rules hypothesis =>
      cases levels with
      | nil => rfl
      | cons stored levels =>
          rw [tryRules] at quiet ⊢
          dsimp only at quiet ⊢
          split at quiet
          next => cases quiet
          next => exact congrArg (_ :: ·) (hypothesis quiet)

namespace Alike

variable
  {rules others : List ExitRule}
  {state stateOther : ExitState Value}
  (alike : state.Alike rules others stateOther)

include alike

/-- At a bar rules trigger in both orders or in none. -/
theorem onBar (close : Value) (rangeOf : IndicatorSeries -> Option Value) :
    (state.onBar rules close rangeOf).1.isSome =
        (stateOther.onBar others close rangeOf).1.isSome ∧
      ((state.onBar rules close rangeOf).1 = none ->
        (state.onBar rules close rangeOf).2.Alike rules others
          (stateOther.onBar others close rangeOf).2) := by
  rw [ExitState.onBar, ExitState.onBar, alike.entryPrice]
  split
  next => exact ⟨rfl, fun _ => alike⟩
  next entry _ =>
    split
    next => exact ⟨rfl, fun _ => alike⟩
    next =>
      dsimp only
      have same : (tryRules entry close rangeOf rules state.levels).1.isSome =
          (tryRules entry close rangeOf others stateOther.levels).1.isSome := by
        rw [isSome_tryRules, isSome_tryRules, alike.levels.any_eq]
      refine ⟨same, fun quiet => ⟨rfl, ?_⟩⟩
      rw [quiet] at same
      have quietOther := Option.isSome_eq_false_iff.1 same.symm
      rw [zip_tryRules rules quiet, zip_tryRules others (Option.isNone_iff_eq_none.1 quietOther)]
      exact alike.levels.map _

end Alike
end ExitState

/-! ## Sessions -/

/-- Decisions of one kind, which may name different rules. -/
inductive Decision.SameKind : Decision -> Decision -> Prop where
  | hold : SameKind .hold .hold
  | enter (rule other : NodeId) : SameKind (.enter rule) (.enter other)
  | exit (rule other : NodeId) : SameKind (.exit rule) (.exit other)
  | riskExit (rule other : NodeId) : SameKind (.riskExit rule) (.riskExit other)

namespace Strategy.Alike

open Session

variable
  [Quantity Value]
  {strategy other : Strategy}
  (alike : strategy.Alike other)
  (set : SeriesSet Value)
  (bar : Nat)
  {state stateOther : ExitState Value}
  (states : state.Alike strategy.exits other.exits stateOther)

include alike

/-- A rule fires in one order exactly if one does in the other. -/
theorem isSome_firstFiring
    {eligible : ActionRule -> Bool}
    (respects : ∀ rule ruleOther : ActionRule, rule.Alike ruleOther ->
      eligible rule = eligible ruleOther) :
    (firstFiring? strategy set bar eligible).isSome =
      (firstFiring? other set bar eligible).isSome := by
  rw [Bool.eq_iff_iff, firstFiring?, firstFiring?, List.find?_isSome, List.find?_isSome]
  exact alike.actions.exists_iff fun rule ruleOther rules => by
    rw [respects rule ruleOther rules, rules.predicate.holds set bar]

theorem isSome_firstEntry (close : Value) :
    ( firstEntry? strategy set bar close).isSome = ( firstEntry? other set bar close).isSome :=
  alike.isSome_firstFiring set bar fun _ _ rules => by rw [rules.direction, rules.sizing]

theorem isSome_firstExit :
    (firstExit? strategy set bar).isSome = (firstExit? other set bar).isSome :=
  alike.isSome_firstFiring set bar fun _ _ rules => by rw [rules.direction]

include states

theorem decideFlat :
    (decideFlat strategy set state bar).1.SameKind (decideFlat other set stateOther bar).1 ∧
      (decideFlat strategy set state bar).2.Alike strategy.exits other.exits
        (decideFlat other set stateOther bar).2 := by
  rw [Session.decideFlat, Session.decideFlat]
  split
  next => exact ⟨.hold, states⟩
  next close _ =>
    have same := alike.isSome_firstEntry set bar close
    cases fires : firstEntry? strategy set bar close <;>
      cases firesOther : firstEntry? other set bar close <;> rw [fires, firesOther] at same
    case none.none => exact ⟨.hold, states⟩
    case some.some => exact ⟨.enter _ _, states.unset (some close)⟩
    case none.some => cases same
    case some.none => cases same

omit alike in
theorem tryExits :
    (tryExits strategy set state bar).1.isSome = (tryExits other set stateOther bar).1.isSome ∧
      ((tryExits strategy set state bar).1 = none ->
        (tryExits strategy set state bar).2.Alike strategy.exits other.exits
          (tryExits other set stateOther bar).2) := by
  rw [Session.tryExits, Session.tryExits]
  split
  next => exact ⟨rfl, fun _ => states⟩
  next close _ => exact states.onBar close (rangeAt? set bar)

variable
  (consistent : state.Consistent strategy.exits)
  (consistentOther : stateOther.Consistent other.exits)

include consistent consistentOther

theorem decideOpen :
    (decideOpen strategy set state bar).1.SameKind (decideOpen other set stateOther bar).1 ∧
      (decideOpen strategy set state bar).2.Alike strategy.exits other.exits
        (decideOpen other set stateOther bar).2 := by
  obtain ⟨sameSignal, sameLevels⟩ := tryExits set bar states
  have remains := (consistent_tryExits consistent set bar).1
  have remainsOther := (consistent_tryExits consistentOther set bar).1
  have sameRule := alike.isSome_firstExit set bar
  rw [Session.decideOpen, Session.decideOpen]
  generalize Session.tryExits strategy set state bar = tried at *
  generalize Session.tryExits other set stateOther bar = triedOther at *
  obtain ⟨signal, next⟩ := tried
  obtain ⟨signalOther, nextOther⟩ := triedOther
  dsimp only at sameSignal sameLevels remains remainsOther
  cases signal with
  | some signal =>
      obtain ⟨signalOther, rfl⟩ := Option.isSome_iff_exists.1 sameSignal.symm
      -- Levels behind the first rule to trigger differ, but all of them are unset.
      dsimp only
      rw [remains.leave_eq, remainsOther.leave_eq]
      exact ⟨.riskExit _ _, ExitState.alike_flat alike.exits⟩
  | none =>
      obtain rfl : signalOther = none := by
        rw [← Option.isNone_iff_eq_none, ← Option.isSome_eq_false_iff, ← sameSignal,
          Option.isSome_none]
      have states := sameLevels rfl
      cases fires : firstExit? strategy set bar <;>
        cases firesOther : firstExit? other set bar <;> rw [fires, firesOther] at sameRule
      case none.none => exact ⟨.hold, states⟩
      case some.some => exact ⟨.exit _ _, states.unset none⟩
      case none.some => cases sameRule
      case some.none => cases sameRule

/-- One bar is decided alike and leaves states that are alike. -/
theorem onBar :
    (onBar strategy set state bar).1.SameKind (onBar other set stateOther bar).1 ∧
      (onBar strategy set state bar).2.Alike strategy.exits other.exits
        (onBar other set stateOther bar).2 := by
  rw [Session.onBar, Session.onBar, alike.historyRequired_eq, states.isOpen_eq]
  split
  next => exact ⟨.hold, states⟩
  next =>
    split
    next => exact alike.decideOpen set bar states consistent consistentOther
    next => exact alike.decideFlat set bar states

/-- Bars are decided alike one after the other. -/
theorem decisions (bars : List Nat) :
    List.Forall₂ Decision.SameKind (decisions strategy set state bars)
      (decisions other set stateOther bars) := by
  induction bars generalizing state stateOther with
  | nil => exact .nil
  | cons bar bars hypothesis =>
      obtain ⟨sameKind, next⟩ := alike.onBar set bar states consistent consistentOther
      exact .cons sameKind (hypothesis next (transition_onBar consistent set bar).2
        (transition_onBar consistentOther set bar).2)

omit states consistent consistentOther

/-- After the same calls the states are alike. -/
theorem stateAfter (calls : List (SeriesSet Value × Nat)) :
    (stateAfter strategy calls).Alike strategy.exits other.exits (stateAfter other calls) := by
  induction calls using List.reverseRecOn with
  | nil => exact ExitState.alike_flat alike.exits
  | append_singleton calls call hypothesis =>
      have next := alike.onBar call.1 call.2 hypothesis (consistent_stateAfter strategy calls)
        (consistent_stateAfter other calls)
      rw [Session.stateAfter, Session.stateAfter, List.foldl_append, List.foldl_append]
      exact next.2

end Strategy.Alike

/-! ## Graphs -/

namespace Graph

/-- A graph trades alike in whatever order its nodes and edges are listed. Every reordering
of an accepted graph is accepted, needs the same series and as much history, and the same is
warned about. On every set of series that the one can run on the other can as well: both
decide the same kind of thing at every bar and keep the same entry price after it. Where
edges keep their order, and so do actions and exits among themselves, the strategy is the
same, and so are its text and its fingerprint. -/
theorem Reorders.trades_alike
    {graph other : Graph}
    (reorders : other.Reorders graph)
    {configuration : Configuration}
    {compilation : Compilation}
    (accepted : graph.compile configuration = .ok compilation) :
    ∃ compilationOther, other.compile configuration = .ok compilationOther ∧
      (∀ key,
        key ∈ compilationOther.strategy.indicators.map IndicatorSeries.key ↔
          key ∈ compilation.strategy.indicators.map IndicatorSeries.key) ∧
      (∀ key,
        key ∈ compilationOther.strategy.neededKeys ↔
          key ∈ compilation.strategy.neededKeys) ∧
      compilationOther.strategy.historyRequired = compilation.strategy.historyRequired ∧
      (∀ warning, warning ∈ compilationOther.warnings ↔ warning ∈ compilation.warnings) ∧
      (∀ (Value : Type) [Quantity Value] (set : SeriesSet Value),
        set.checkRequirements compilation.strategy = .ok () ->
        ∃ decisions decisionsOther,
          compilation.strategy.replay set = .ok decisions ∧
          compilationOther.strategy.replay set = .ok decisionsOther ∧
          List.Forall₂ Decision.SameKind decisions decisionsOther ∧
          ∀ count,
            (Session.stateAfter compilationOther.strategy
                ((List.range count).map fun bar => (set, bar))).entryPrice =
              (Session.stateAfter compilation.strategy
                ((List.range count).map fun bar => (set, bar))).entryPrice) ∧
      (other.edges = graph.edges -> other.actions = graph.actions ->
        other.exits = graph.exits ->
        compilationOther.strategy = compilation.strategy ∧
          compilationOther.strategy.toJson = compilation.strategy.toJson ∧
          compilationOther.strategy.fingerprint = compilation.strategy.fingerprint) := by
  obtain ⟨compilationOther, acceptedOther, alike, sameOrder⟩ := reorders.exists_compile accepted
  have strategies := alike.strategy
  refine ⟨compilationOther, acceptedOther, fun key => (strategies.indicators key).symm,
    fun key => (strategies.mem_neededKeys_iff key).symm, strategies.historyRequired_eq.symm,
    fun warning => (alike.warnings warning).symm, ?runs, ?same⟩
  case runs =>
    intro Value _ set checked
    refine ⟨_, _, Strategy.replay_eq checked,
      Strategy.replay_eq (strategies.checkRequirements checked), ?_, fun count => ?_⟩
    · exact strategies.decisions set (ExitState.alike_flat strategies.exits)
        (ExitState.consistent_flat _) (ExitState.consistent_flat _) (List.range set.barCount)
    · exact (strategies.stateAfter _).entryPrice.symm
  case same =>
    intro edges actions exits
    rw [sameOrder edges actions exits]
    exact ⟨rfl, rfl, rfl⟩

/-- A graph with everything listed the other way round. -/
def reversed (graph : Graph) : Graph where
  nodes := graph.nodes.reverse
  edges := graph.edges.reverse

theorem reorders_reversed (graph : Graph) : graph.reversed.Reorders graph :=
  ⟨List.reverse_perm graph.nodes, List.reverse_perm graph.edges⟩

/-- A graph with two purchases on one condition and two stops that a fall reaches at once. -/
def doubled : Graph where
  nodes := [
    ⟨"rise", .condition (.price .close) ⟨.greater, some 100, 0, 0⟩⟩,
    ⟨"calm", .condition (.price .opening) ⟨.less, some 200, 0, 0⟩⟩,
    ⟨"both", .gate .and⟩,
    ⟨"first", .action .buy .allAvailable none⟩,
    ⟨"second", .action .buy .allAvailable none⟩,
    ⟨"trail", .exit .trailingStop .percent 10 none⟩,
    ⟨"stop", .exit .stopLoss .percent 5 none⟩]
  edges := [
    ⟨"1", "rise", "both", .flow⟩,
    ⟨"2", "calm", "both", .flow⟩,
    ⟨"3", "both", "first", .flow⟩,
    ⟨"4", "both", "second", .flow⟩]

/-- Four bars on which `doubled` enters, trails a stop and is stopped out twice over. -/
def fallingBars : SeriesSet Float :=
  ⟨[("close", #[100, 110, 120, 90]), ("open", #[95, 100, 110, 120])]⟩

theorem trades_alike_reversed :
    ∃ compilation compilationOther,
      doubled.compile .default = .ok compilation ∧
        doubled.reversed.compile .default = .ok compilationOther ∧
        fallingBars.checkRequirements compilation.strategy = .ok () ∧
        compilation.strategy.replay fallingBars =
          .ok [.hold, .enter "first", .hold, .riskExit "trail"] ∧
        compilationOther.strategy.replay fallingBars =
          .ok [.hold, .enter "second", .hold, .riskExit "stop"] ∧
        compilationOther.strategy.historyRequired = compilation.strategy.historyRequired ∧
        ∃ decisions decisionsOther,
          compilation.strategy.replay fallingBars = .ok decisions ∧
            compilationOther.strategy.replay fallingBars = .ok decisionsOther ∧
            List.Forall₂ Decision.SameKind decisions decisionsOther := by
  have computed : (doubled.compile .default).toOption.map (fun compilation =>
      (fallingBars.checkRequirements compilation.strategy,
        compilation.strategy.replay fallingBars)) =
      some (.ok (), .ok [.hold, .enter "first", .hold, .riskExit "trail"]) := by
    decide +kernel
  have computedOther : (doubled.reversed.compile .default).toOption.map (fun compilation =>
      compilation.strategy.replay fallingBars) =
      some (.ok [.hold, .enter "second", .hold, .riskExit "stop"]) := by
    decide +kernel
  obtain ⟨compilation, found, outcome⟩ := Option.map_eq_some_iff.1 computed
  obtain ⟨checked, replayed⟩ := Prod.mk.inj outcome
  have compiled := Outcome.toOption_eq_some_iff.1 found
  obtain ⟨compilationOther, compiledOther, _, _, required, _, runs, _⟩ :=
    (reorders_reversed doubled).trades_alike compiled
  rw [compiledOther] at computedOther
  obtain ⟨decisions, decisionsOther, decides, decidesOther, sameKind, _⟩ :=
    runs Float fallingBars checked
  exact ⟨compilation, compilationOther, compiled, compiledOther, checked, replayed,
    Option.some.inj computedOther, required, decisions, decisionsOther, decides, decidesOther,
    sameKind⟩

end Graph
end StrategyGraph
