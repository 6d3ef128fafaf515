import StrategyGraph.Proofs.Script.RiskExit

/-!
# Instances of scripts

The methods of the class of a script and what they make of the attributes of its instance.
Where no position is open, the entry price and the trailing levels are unset; the series
of the strategy are there from the start and stay.
-/

namespace StrategyGraph
namespace Python

open Backtest (Code Statement)

/-! ## The class -/

/-- Statements of the method that declares state and series. -/
def declaring (strategy : Strategy) : List Statement :=
  .assign Backtest.entryPrice .none none ::
    ((Backtest.trailingRules strategy).map (fun entry =>
      .assign (Backtest.trailingLevel entry.1) .none (some (Quoted.encode entry.2.node))) ++
    strategy.indicators.map fun series =>
      .assign (Code.own series.key) (Backtest.declaration series) none)

/-- Statements of the method that decides at a bar. -/
def deciding (strategy : Strategy) : List Statement :=
  Backtest.waiting strategy ++
    [.assign Backtest.close (.itemFromEnd (Backtest.columnCode .close) 1) none,
      .conditional Backtest.position (Backtest.holding strategy)] ++
    (Backtest.rulesOf .entry strategy).flatMap Backtest.entryRuleCheck

/-- Statements of a method that sets the entry price and unsets the trailing levels. -/
def unsetting (price : Code) (strategy : Strategy) : List Statement :=
  .assign Backtest.entryPrice price none ::
    (Backtest.trailingRules strategy).map fun entry =>
      .assign (Backtest.trailingLevel entry.1) .none none

/-- The script of a strategy, whose methods stand one behind the other. -/
def scriptOf (strategy : Strategy) : Script :=
  let behindInit := remarkBehindAll none (declaring strategy)
  let behindNext := remarkBehindAll behindInit (deciding strategy)
  let behindOpened := remarkBehindAll behindNext (unsetting (.name "price") strategy)
  { globals := globalsOf (allInstructions none (Backtest.imports strategy))
    methods := [
      .function "init" ["self"] (allInstructions none (declaring strategy)),
      .function "next" ["self"] (allInstructions behindInit (deciding strategy)),
      .function "_opened" ["self", "price"]
        (allInstructions behindNext (unsetting (.name "price") strategy)),
      .function "_flat" ["self"] (allInstructions behindOpened (unsetting .none strategy))] }

/-- The instructions of a script are imports and its class. -/
theorem allInstructions_statements (strategy : Strategy) (className : String) :
    allInstructions none (Backtest.statements strategy className) =
      allInstructions none (Backtest.imports strategy) ++
        [.classOf className "Strategy" (scriptOf strategy).methods] := by
  rw [Backtest.statements, allInstructions_append, Backtest.imports]
  cases strategy.indicators.isEmpty <;> rfl

/-- The instructions of a script create its class. -/
theorem ofInstructions_statements (strategy : Strategy) (className : String) :
    Script.ofInstructions (allInstructions none (Backtest.statements strategy className)) =
      some (scriptOf strategy) := by
  have shape := allInstructions_statements strategy className
  have isClass : classBody (allInstructions none (Backtest.statements strategy className)) =
      some (scriptOf strategy).methods := by
    rw [shape, classBody, List.findSome?_append, Backtest.imports]
    cases strategy.indicators.isEmpty <;> rfl
  have globals : globalsOf (allInstructions none (Backtest.statements strategy className)) =
      (scriptOf strategy).globals := by
    funext name
    simp only [shape, globalsOf, List.findSome?_append, List.findSome?_cons, List.findSome?_nil,
      Option.or_none]
    rfl
  rw [Script.ofInstructions, isClass, Option.map_some, globals]

theorem globals_scriptOf (strategy : Strategy) :
    (scriptOf strategy).globals "np" = some (.library "numpy") ∧
      (scriptOf strategy).globals "len" = some (.builtin .len) ∧
        (scriptOf strategy).globals "int" = some (.builtin .int) := by
  rw [scriptOf, Backtest.imports]
  exact ⟨rfl, rfl, rfl⟩

/-! ## Attributes -/

section

variable
  {Entry : Type}
  {entries : List Entry}
  {name : Entry -> String}
  {value : Entry -> Value}

/-- Attributes of other names stay. -/
theorem foldl_update_of_ne
    {key : String}
    (different : ∀ entry ∈ entries, key ≠ name entry)
    (attributes : Attributes) :
    entries.foldl (fun attributes entry =>
      Function.update attributes (name entry) (some (value entry))) attributes key =
        attributes key := by
  induction entries generalizing attributes with
  | nil => rfl
  | cons entry entries hypothesis =>
      rw [List.foldl_cons,
        hypothesis fun other member => different other (List.mem_cons_of_mem entry member)]
      exact Function.update_of_ne (different entry List.mem_cons_self) _ _

/-- Attributes that are set to one value by all entries of a name have it. -/
theorem foldl_update_of_mem
    {entry : Entry}
    (member : entry ∈ entries)
    (same : ∀ other ∈ entries, name other = name entry -> value other = value entry)
    (attributes : Attributes) :
    entries.foldl (fun attributes entry =>
      Function.update attributes (name entry) (some (value entry))) attributes (name entry) =
        some (value entry) := by
  induction entries using List.reverseRecOn with
  | nil => cases member
  | append_singleton entries last hypothesis =>
      rw [List.foldl_append, List.foldl_cons, List.foldl_nil]
      by_cases equal : name last = name entry
      · rw [equal, Function.update_self, same last (by simp) equal]
      · rw [Function.update_of_ne (Ne.symm equal)]
        refine hypothesis ?_ fun other isOther => same other (List.mem_append_left _ isOther)
        rcases List.mem_append.1 member with before | isLast
        · exact before
        · exact absurd (congrArg name (List.mem_singleton.1 isLast).symm) equal

end

/-- Positions of trailing stops are among the trailing rules. -/
theorem mem_trailingRules
    {strategy : Strategy}
    {index : Nat}
    {rule : ExitRule}
    (listed : strategy.exits[index]? = some rule)
    (isTrailing : rule.isTrailing = true) :
    (index, rule) ∈ Backtest.trailingRules strategy := by
  refine List.mem_filter.2 ⟨List.mem_mapIdx.2 ?_, isTrailing⟩
  obtain ⟨bound, found⟩ := List.getElem?_eq_some_iff.1 listed
  exact ⟨index, bound, by rw [found]⟩

section

variable (strategy : Strategy) (price : Value) (attributes : Attributes)

theorem resetAttributes_entryPrice :
    resetAttributes strategy price attributes "entry_price" = some price := by
  rw [resetAttributes, foldl_update_of_ne fun entry _ =>
    Frame.entryPrice_ne_trailingName entry.1]
  exact Function.update_self _ _ _

theorem resetAttributes_trailing
    {index : Nat}
    {rule : ExitRule}
    (listed : strategy.exits[index]? = some rule)
    (isTrailing : rule.isTrailing = true) :
    resetAttributes strategy price attributes (trailingName index) = some .none :=
  foldl_update_of_mem (mem_trailingRules listed isTrailing) (fun _ _ _ => rfl) _

theorem resetAttributes_key (series : IndicatorSeries) :
    resetAttributes strategy price attributes series.key = attributes series.key := by
  rw [resetAttributes, foldl_update_of_ne fun entry _ => Frame.key_ne_trailingName series entry.1]
  exact Function.update_of_ne (key_ne (by decide) series) _ _

end

/-- What the attributes of an instance are in a state of the risk exits. -/
structure ShowsState
    (strategy : Strategy)
    (state : ExitState Exact)
    (attributes : Attributes) : Prop where
  entryPrice : attributes "entry_price" = some (shown state.entryPrice)
  levels : ShowsLevels 0 strategy.exits state.levels attributes

/-- Whether attributes supply the series of a strategy. -/
def SuppliesSeries (strategy : Strategy) (attributes : Attributes) : Prop :=
  ∀ key ∈ strategy.indicators.map IndicatorSeries.key, attributes key = some (.series key)

theorem showsState_reset
    (strategy : Strategy)
    (price : Option Exact)
    (attributes : Attributes) :
    ShowsState strategy ⟨price, strategy.exits.map fun _ => none⟩
      (resetAttributes strategy (shown price) attributes) := by
  refine ⟨resetAttributes_entryPrice strategy _ attributes, ?_⟩
  intro index rule listed isTrailing
  rw [Nat.zero_add, resetAttributes_trailing strategy _ attributes listed isTrailing,
    List.getElem?_map, listed]
  rfl

theorem suppliesSeries_reset
    {strategy : Strategy}
    {attributes : Attributes}
    (supplies : SuppliesSeries strategy attributes)
    (price : Value) :
    SuppliesSeries strategy (resetAttributes strategy price attributes) := by
  intro key isKey
  obtain ⟨series, _, rfl⟩ := List.mem_map.1 isKey
  rw [resetAttributes_key]
  exact supplies series.key isKey

/-! ## Methods -/

section

variable
  {here : Surroundings}
  {globals : String -> Option Value}
  {calls : Calls}
  {frame : Frame}
  (isSelf : (frame.scope globals).value? "self" = some .self)

include isSelf

/-- Unset levels are assigned one behind the other, whatever notes stand behind. -/
theorem performAll_unset
    (entries : List (Nat × ExitRule))
    (note : Nat × ExitRule -> Option String)
    (remark : Option String) :
    performAll here globals calls
        (allInstructions remark (entries.map fun entry =>
          .assign (Backtest.trailingLevel entry.1) .none (note entry))) frame =
      some ({ frame with
        attributes := entries.foldl (fun attributes entry =>
          Function.update attributes (trailingName entry.1) (some .none)) frame.attributes },
        false) := by
  induction entries generalizing frame with
  | nil => rfl
  | cons entry entries hypothesis =>
      have first : perform here globals calls
          (.assign (term (Backtest.trailingLevel entry.1)) (term .none)) frame =
            some (frame.setAttribute (trailingName entry.1) .none, false) :=
        perform_assign_own isSelf rfl rfl
      exact (performAll_of_stays first _).trans (hypothesis isSelf)

/-- Declared series are supplied under their keys. -/
theorem performAll_declared (series : List IndicatorSeries) (remark : Option String) :
    performAll here globals calls
        (allInstructions remark (series.map fun series =>
          .assign (Code.own series.key) (Backtest.declaration series) none)) frame =
      some ({ frame with
        attributes := series.foldl (fun attributes series =>
          Function.update attributes series.key (some (.series series.key))) frame.attributes },
        false) := by
  induction series generalizing frame with
  | nil => rfl
  | cons series others hypothesis =>
      have first : perform here globals calls
          (.assign (term (Code.own series.key)) (term (Backtest.declaration series))) frame =
            some (frame.setAttribute series.key (.series series.key), false) := by
        have declared : declares (term (Backtest.declaration series)) = true := rfl
        rw [perform, term_own, assign, eval_name, isSelf, declared]
        rfl
      exact (performAll_of_stays first _).trans (hypothesis isSelf)

/-- The entry price is set and the trailing levels are unset. -/
theorem performAll_unsetting
    {strategy : Strategy}
    {price : Code}
    {value : Value}
    (notDeclared : declares (term price) = false)
    (isPrice : eval here (frame.scope globals) (term price) = some value)
    (remark : Option String) :
    performAll here globals calls (allInstructions remark (unsetting price strategy)) frame =
      some ({ frame with attributes := resetAttributes strategy value frame.attributes },
        false) := by
  have first : perform here globals calls
      (.assign (term Backtest.entryPrice) (term price)) frame =
        some (frame.setAttribute "entry_price" value, false) :=
    perform_assign_own isSelf notDeclared isPrice
  have selfStays : ((frame.setAttribute "entry_price" value).scope globals).value? "self" =
      some .self := isSelf
  exact (performAll_of_stays first _).trans (performAll_unset selfStays _ _ _)

end

/-- A method does what its instructions do. -/
theorem runMethod_of_performAll
    {script : Script}
    {here : Surroundings}
    {calls : Calls}
    {name : String}
    {arguments : List Value}
    {attributes : Attributes}
    {parameters : List String}
    {body : List Instruction}
    {locals : String -> Option Value}
    {frame : Frame}
    {left : Bool}
    (isMethod : method? script.methods name = some (parameters, body))
    (bound : Script.parameterValues parameters arguments = some locals)
    (carried : performAll here script.globals calls body ⟨locals, attributes, []⟩ =
      some (frame, left)) :
    script.runMethod here calls name arguments attributes = some frame := by
  rw [Script.runMethod, isMethod]
  simp only [Option.bind_eq_bind, Option.bind_some, bound, carried]
  rfl

section

variable (strategy : Strategy) (here : Surroundings) (attributes : Attributes)

theorem runHelper_opened (price : Value) :
    (scriptOf strategy).runHelper here "_opened" [price] attributes =
      some (resetAttributes strategy price attributes) := by
  have run : (scriptOf strategy).runMethod here (fun _ _ _ => none) "_opened" [price] attributes =
      some ⟨_, resetAttributes strategy price attributes, []⟩ :=
    runMethod_of_performAll rfl rfl (performAll_unsetting rfl rfl rfl _)
  rw [Script.runHelper, run]
  rfl

theorem runHelper_flat :
    (scriptOf strategy).runHelper here "_flat" [] attributes =
      some (resetAttributes strategy .none attributes) := by
  have run : (scriptOf strategy).runMethod here (fun _ _ _ => none) "_flat" [] attributes =
      some ⟨_, resetAttributes strategy .none attributes, []⟩ :=
    runMethod_of_performAll rfl rfl (performAll_unsetting rfl rfl rfl _)
  rw [Script.runHelper, run]
  rfl

end

/-- The instance starts without a position and with all series. -/
theorem exists_create (strategy : Strategy) (here : Surroundings) :
    ∃ attributes, (scriptOf strategy).create here = some attributes ∧
      ShowsState strategy (Session.start strategy) attributes ∧
        SuppliesSeries strategy attributes := by
  let unset : Attributes := resetAttributes strategy .none fun _ => none
  let supplied : Attributes := strategy.indicators.foldl (fun attributes series =>
    Function.update attributes series.key (some (.series series.key))) unset
  -- No key of a series names part of the state, so declaring the series keeps the state.
  have keeps : ∀ name, (∀ series : IndicatorSeries, name ≠ series.key) ->
      supplied name = unset name := fun name different =>
    foldl_update_of_ne (fun series _ => different series) unset
  refine ⟨supplied, ?_, ⟨?_, ?_⟩, ?_⟩
  · let frame : Frame := ⟨fun name => [("self", Value.self)].lookup name, fun _ => none, []⟩
    let reset : Frame := { frame with attributes := unset }
    have isSelf : (frame.scope (scriptOf strategy).globals).value? "self" = some .self := rfl
    have staysSelf : (reset.scope (scriptOf strategy).globals).value? "self" = some .self := rfl
    have start : perform here (scriptOf strategy).globals (fun _ _ _ => none)
        (.assign (term Backtest.entryPrice) (term .none)) frame =
          some (frame.setAttribute "entry_price" .none, false) :=
      perform_assign_own isSelf rfl rfl
    have carried : performAll here (scriptOf strategy).globals (fun _ _ _ => none)
        (allInstructions none (declaring strategy)) frame =
          some ({ frame with attributes := supplied }, false) := by
      refine (performAll_of_stays start _).trans ?_
      rw [allInstructions_append]
      refine (performAll_append_of_stays (performAll_unset ?_ _ _ _) _).trans ?_
      · exact isSelf
      · exact performAll_declared staysSelf strategy.indicators _
    have run : (scriptOf strategy).runMethod here (fun _ _ _ => none) "init" [] (fun _ => none) =
        some { frame with attributes := supplied } :=
      runMethod_of_performAll rfl rfl carried
    rw [Script.create, Script.runHelper, run]
    rfl
  · rw [keeps "entry_price" fun series => (key_ne (by decide) series).symm]
    exact resetAttributes_entryPrice strategy .none _
  · have initial := (showsState_reset strategy none fun _ => none).levels
    intro index rule listed isTrailing
    rw [keeps _ fun series => (Frame.key_ne_trailingName series _).symm]
    exact initial index rule listed isTrailing
  · intro key isKey
    obtain ⟨series, declared, rfl⟩ := List.mem_map.1 isKey
    exact foldl_update_of_mem declared (fun _ _ same => congrArg Value.series same) unset

end Python
end StrategyGraph
