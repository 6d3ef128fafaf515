import StrategyGraph.Proofs.Script.Bar

/-!
# Runs of scripts

The script of a compiled strategy and a session of the strategy decide the same. Reading
the text of the script and running what is read, bar by bar, buys and closes where the
session enters and leaves, for the same rules, and keeps the same state.
-/

namespace StrategyGraph
namespace Python

/-- Over any bars a script does what a session decides, and shows the state of the session
behind every bar. -/
theorem exists_runBars
    {strategy : Strategy}
    {numeral : String -> ℚ}
    {set : SeriesSet Exact}
    (supported : Supported strategy numeral set)
    {bars : List Nat}
    (inside : ∀ bar ∈ bars, bar < set.barCount)
    {state : ExitState Exact}
    {attributes : Attributes}
    (inStep : InStep strategy state attributes) :
    ∃ outcomes,
      (scriptOf strategy).runBars numeral set state.isOpen attributes bars = some outcomes ∧
      outcomes.length = bars.length ∧
      ∀ position effects after, outcomes[position]? = some (effects, after) ->
        ∃ decision, (Session.decisions strategy set state bars)[position]? = some decision ∧
          Acts strategy decision effects ∧
          ShowsState strategy
            (((bars.take (position + 1)).map fun bar => (set, bar)).foldl
              (fun state call => (Session.onBar strategy call.1 state call.2).2) state)
            after := by
  induction bars generalizing state attributes with
  | nil => exact ⟨[], rfl, rfl, fun position effects after none => (by cases none)⟩
  | cons bar bars hypothesis =>
      let here : Surroundings := ⟨numeral, set, bar, state.isOpen⟩
      have reached : here.bar < here.set.barCount := inside bar List.mem_cons_self
      obtain ⟨effects, next, carried, acts, inStepNext⟩ :=
        exists_next supported reached inStep rfl
      have transition := (Session.transition_onBar inStep.consistent set bar).1
      obtain ⟨outcomes, run, length, each⟩ := hypothesis
        (fun other member => inside other (List.mem_cons_of_mem bar member)) inStepNext
      refine ⟨(effects, next) :: outcomes, ?_, congrArg Nat.succ length, ?_⟩
      · rw [Script.runBars, carried]
        dsimp only [Option.bind_eq_bind, Option.bind_some]
        rw [holdingAfter_eq transition acts, run]
        rfl
      · intro position others after listed
        rw [Session.decisions]
        cases position with
        | zero =>
            cases listed
            exact ⟨_, rfl, acts, inStepNext.shows⟩
        | succ position => exact each position others after listed

end Python

namespace Graph

open Python

/-- What a numeral without a point denotes. -/
def wholeNumeral (content : String) : ℚ :=
  (Nat.ofDigitChars 10 content.toList 0 : Nat)

theorem readsCounts_wholeNumeral : ReadsCounts wholeNumeral := by
  intro count _
  rw [wholeNumeral, Nat.toList_repr, Nat.ofDigitChars_ten_toDigits]

/-- A graph that buys for some money when the close rises above its average and above a
bound, sells when it falls below another one and trails a stop by the range. -/
def guarded : Graph where
  nodes := [
    ⟨"rise", .condition (.price .close) ⟨.crossesAbove, none, 0, 0⟩⟩,
    ⟨"average", .condition (.indicator .sma .empty) ⟨.greater, none, 0, 0⟩⟩,
    ⟨"high", .condition (.price .close) ⟨.greater, some 100, 0, 0⟩⟩,
    ⟨"both", .gate .and⟩,
    ⟨"enter", .action .buy .fixedCash (some 500)⟩,
    ⟨"low", .condition (.price .close) ⟨.less, some 90, 0, 0⟩⟩,
    ⟨"leave", .action .sell .allAvailable none⟩,
    ⟨"trail", .exit .trailingStop .atrMultiple 2 (some 3)⟩]
  edges := [
    ⟨"1", "average", "rise", .compareInput⟩,
    ⟨"2", "rise", "both", .flow⟩,
    ⟨"3", "high", "both", .flow⟩,
    ⟨"4", "both", "enter", .flow⟩,
    ⟨"5", "low", "leave", .flow⟩]

/-- Six bars with the average and the range, neither of which is known at once. -/
def guardedBars : SeriesSet Exact :=
  ⟨[("close", #[.number 95, .number 99, .number 110, .number 130, .number 120, .number 85]),
    ("sma_20", #[.missing, .number 100, .number 100, .number 105, .number 110, .number 105]),
    ("atr_3", #[.missing, .missing, .missing, .number 4, .number 5, .number 6])]⟩

/-- What is decided on `guardedBars`. -/
def guardedDecisions : List Decision :=
  [.hold, .hold, .enter "enter", .hold, .riskExit "trail", .hold]

end Graph
end StrategyGraph
