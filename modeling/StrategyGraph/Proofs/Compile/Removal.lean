import StrategyGraph.Proofs.Compile.Correspondence
import StrategyGraph.Proofs.Compile.Warnings
import StrategyGraph.Proofs.Graph.Removal
import StrategyGraph.Strategy.Datum

/-!
# Compiling graphs without their idle nodes

The nodes that a compilation reports as unreachable are the idle ones. A graph without them
is accepted, compiles to the same strategy, and is warned about in the same order, except
that nothing is reported as unreachable any more.
-/

namespace StrategyGraph

/-- The node that a warning reports as unreachable. -/
def Warning.unreachable? : Warning -> Option NodeId
  | .unreachableNode id => some id
  | _ => none

/-- The nodes that a compilation reports as unreachable. -/
def Compilation.unreachable (compilation : Compilation) : List NodeId :=
  compilation.warnings.filterMap Warning.unreachable?

theorem Compilation.mem_unreachable_iff {compilation : Compilation} {id : NodeId} :
    id ∈ compilation.unreachable ↔ .unreachableNode id ∈ compilation.warnings := by
  rw [unreachable, List.mem_filterMap]
  constructor
  · rintro ⟨warning, warns, reports⟩
    cases warning with
    | unreachableNode other =>
        cases reports
        exact warns
    | _ => cases reports
  · exact fun warns => ⟨_, warns, rfl⟩

namespace Graph

/-- Only idle nodes are due to be reported as unreachable. -/
theorem Due.idle
    {graph : Graph}
    {configuration : Configuration}
    {id : NodeId}
    (due : graph.Due configuration (.unreachableNode id)) :
    graph.Idle id := by
  cases due with
  | unreachableNode idle => exact idle

/-- To the compiler, a graph coincides with the one without its idle nodes. -/
theorem coincides_without
    {graph : Graph}
    {gone : List NodeId}
    (idle : ∀ id, id ∈ gone ↔ graph.Idle id)
    (wellFormed : graph.WellFormed) :
    graph.Coincides (graph.without gone) where
  kind _ := kind_without idle wellFormed
  operand _ := operand_without idle wellFormed
  flowParents id feeds := by rw [flowParents_without idle feeds]
  inOrder _ := flowParents_without idle
  actions := actions_without idle
  exits := exits_without idle wellFormed

end Graph

/-- Where warnings are reported in two groups, only those of the first stay if just they
pass a filter. -/
theorem filter_eraseDups_append
    [BEq Item] [LawfulBEq Item]
    {keep : Item -> Bool}
    {kept dropped : List Item}
    (keeps : ∀ item ∈ kept, keep item = true)
    (drops : ∀ item ∈ dropped, keep item = false) :
    (kept ++ dropped).eraseDups.filter keep = kept.eraseDups := by
  have keepsAll : kept.eraseDups.filter keep = kept.eraseDups :=
    List.filter_eq_self.2 fun item listed => keeps item (List.mem_eraseDups.1 listed)
  have dropsAll : ((dropped.removeAll kept).eraseDups).filter keep = [] := by
    refine List.filter_eq_nil_iff.2 fun item listed => ?_
    rw [drops item (List.mem_of_mem_filter (List.mem_eraseDups.1 listed))]
    exact Bool.false_ne_true
  rw [List.eraseDups_append, List.filter_append, keepsAll, dropsAll, List.append_nil]

namespace ValidGraph

variable
  {valid other : ValidGraph}
  {configuration : Configuration}
  {planned plannedOther : List PlannedAction}
  {compilation compilationOther : Compilation}

/-- Where the compiler finds the same and nothing is idle, the other warnings remain. -/
theorem warnings_eq_filter
    (coincides : valid.graph.Coincides other.graph)
    (busy : ∀ id, ¬ other.graph.Idle id)
    (compiles : valid.CompilesTo configuration planned compilation)
    (compilesOther : other.CompilesTo configuration plannedOther compilationOther) :
    compilationOther.warnings =
      compilation.warnings.filter fun warning => warning.unreachable?.isNone := by
  have nothingIdle : other.unreachable = [] :=
    List.eq_nil_iff_forall_not_mem.2 fun id isUnreachable =>
      busy id ((Graph.mem_unreachable_iff id).1 isUnreachable)
  have warnings : compilationOther.warnings =
      (planned.flatMap (PlannedAction.warnings configuration) ++
        valid.graph.plannedExits.flatMap (PlannedExit.warnings configuration)).eraseDups := by
    rw [compilesOther.warnings, nothingIdle, List.map_nil, List.append_nil,
      ← coincides.plannedActions_eq compiles.plans compilesOther.plans,
      Graph.plannedExits_of_exits coincides.exits]
  rw [compiles.warnings, filter_eraseDups_append, warnings]
  · intro warning listed
    rw [← List.mem_eraseDups, ← warnings] at listed
    cases warning with
    | unreachableNode id => exact (busy id (Graph.due_of_mem compilesOther listed).idle).elim
    | _ => rfl
  · intro warning listed
    obtain ⟨id, _, rfl⟩ := List.mem_map.1 listed
    rfl

end ValidGraph

namespace Graph

/-- Reported nodes are really idle: an accepted graph is accepted without them, compiles to
the same strategy and has the other warnings, in the same order. -/
theorem compile_without_unreachable
    {graph : Graph}
    {configuration : Configuration}
    {compilation : Compilation}
    (accepted : graph.compile configuration = .ok compilation) :
    (∃ valid, (graph.without compilation.unreachable).validate = .ok valid) ∧
      ∃ compilationOther,
        (graph.without compilation.unreachable).compile configuration = .ok compilationOther ∧
        compilationOther.strategy = compilation.strategy ∧
        compilationOther.strategy.fingerprint = compilation.strategy.fingerprint ∧
        compilationOther.warnings =
          compilation.warnings.filter fun warning => warning.unreachable?.isNone := by
  obtain ⟨reachable, checked, compiled⟩ := check_of_compile accepted
  obtain ⟨inOrder, lenient, strict⟩ := ValidGraph.compile_eq_ok_iff.1 compiled
  obtain ⟨planned, compiles⟩ := ValidGraph.compilesTo_of_compileLenient lenient
  have wellFormed := wellFormed_of_check checked
  have idle : ∀ id, id ∈ compilation.unreachable ↔ graph.Idle id := by
    intro id
    rw [Compilation.mem_unreachable_iff]
    exact ⟨fun warns => (due_of_mem compiles warns).idle,
      fun idle => mem_of_due compiles (.unreachableNode idle)⟩
  obtain ⟨reachableOther, checkedOther⟩ := (wellFormed.without idle).exists_check
  have validated : ∃ valid, (graph.without compilation.unreachable).validate = .ok valid :=
    ⟨⟨_, reachableOther, checkedOther⟩, validate_eq_ok_iff.2 rfl⟩
  obtain ⟨compilationOther, lenientOther⟩ :=
    ValidGraph.exists_compileLenient ⟨_, reachableOther, checkedOther⟩ configuration
  obtain ⟨plannedOther, compilesOther⟩ := ValidGraph.compilesTo_of_compileLenient lenientOther
  have coincides := coincides_without idle wellFormed
  have strategies : compilationOther.strategy = compilation.strategy :=
    (coincides.strategy_eq compiles compilesOther).symm
  have warnings := ValidGraph.warnings_eq_filter coincides
    (fun _ => not_idle_without idle) compiles compilesOther
  have silent : configuration.strict = true -> compilationOther.warnings = [] := by
    intro isStrict
    rw [warnings, strict isStrict, List.filter_nil]
  refine ⟨validated, compilationOther, ?_, strategies, ?_, warnings⟩
  · rw [compile_of_check checkedOther]
    exact ValidGraph.compile_eq_ok_iff.2 ⟨inOrder, lenientOther, silent⟩
  · rw [strategies]

/-- A graph with a purchase on a falling index, and idle nodes of every kind: a negation of
that condition, a gate that flows into itself, a gate into the average that the condition
compares with, and a range that only this average compares with. -/
def overgrown : Graph where
  nodes := [
    ⟨"loop", .gate .and⟩,
    ⟨"fall", .condition (.indicator .rsi .empty) ⟨.less, some 30, 0, 0⟩⟩,
    ⟨"average", .condition (.indicator .sma .empty) ⟨.greater, none, 0, 0⟩⟩,
    ⟨"unless", .gate .not⟩,
    ⟨"any", .gate .or⟩,
    ⟨"range", .condition (.indicator .atr .empty) ⟨.greater, none, 0, 0⟩⟩,
    ⟨"enter", .action .buy .allAvailable none⟩,
    ⟨"stop", .exit .stopLoss .percent 5 none⟩]
  edges := [
    ⟨"1", "loop", "loop", .flow⟩,
    ⟨"2", "fall", "unless", .flow⟩,
    ⟨"3", "any", "average", .flow⟩,
    ⟨"4", "range", "average", .compareInput⟩,
    ⟨"5", "average", "fall", .compareInput⟩,
    ⟨"6", "fall", "enter", .flow⟩]

theorem compile_without_unreachable_overgrown :
    ∃ compilation,
      overgrown.compile .default = .ok compilation ∧
        compilation.unreachable = ["loop", "unless", "any", "range"] ∧
        (∃ valid, (overgrown.without compilation.unreachable).validate = .ok valid) ∧
        ∃ compilationOther,
          (overgrown.without compilation.unreachable).compile .default =
            .ok compilationOther ∧
          compilationOther.strategy = compilation.strategy ∧
          compilationOther.strategy.fingerprint = compilation.strategy.fingerprint ∧
          compilationOther.warnings =
            compilation.warnings.filter fun warning => warning.unreachable?.isNone := by
  have computed : (overgrown.compile .default).toOption.map Compilation.unreachable =
      some ["loop", "unless", "any", "range"] := by
    decide +kernel
  obtain ⟨compilation, found, reported⟩ := Option.map_eq_some_iff.1 computed
  have compiled := Outcome.toOption_eq_some_iff.1 found
  exact ⟨compilation, compiled, reported, compile_without_unreachable compiled⟩

end Graph
end StrategyGraph
