import StrategyGraph.Compile.Condition
import StrategyGraph.Graph.Validation
import StrategyGraph.Strategy.Basic

/-!
# Compilation

A valid graph is compiled action by action and then exit by exit, in node
order. The series that are read and the warnings are collected in the same
order, the first occurrence of each counting; series are told apart by their
keys. Nodes that feed no action are reported last.

A strict configuration turns warnings into an error.
-/

namespace StrategyGraph

/-- A compiled strategy and what there was to warn about. -/
structure Compilation where
  strategy : Strategy
  warnings : List Warning

/-- Why a graph does not compile. -/
inductive CompileError where
  | graph (error : GraphError)
  | configuration (error : ConfigurationError)
  | warningsAsErrors (warnings : List Warning)

namespace CompileError

/-- Wording of a failure. -/
def message : CompileError -> String
  | .graph error => error.message
  | .configuration error => "invalid compiler config: " ++ error.message
  | .warningsAsErrors warnings =>
      warnings.length.repr ++ " warning(s) promoted to errors in strict mode"

end CompileError

/-- An action with the signals that flow into it. -/
structure PlannedAction where
  node : NodeId
  side : Side
  mode : SizingMode
  amount : Option Float
  inputs : List Signal

/-- A risk exit as its author stated it. -/
structure PlannedExit where
  node : NodeId
  kind : ExitKind
  basis : ExitBasis
  magnitude : Float
  atrPeriod : Option Nat

namespace Sizing

/-- The sizing of a mode with an amount; all modes but one need the amount. -/
def ofMode? : SizingMode -> Option Float -> Option Sizing
  | .allAvailable, _ => some .allAvailable
  | .fixedCash, amount => amount.map .fixedCash
  | .fixedShares, amount => amount.map .fixedShares
  | .percentOfEquity, amount => amount.map .percentOfEquity

end Sizing

namespace PlannedAction

/-- The sizing of an action, which needs an amount unless everything available is traded. -/
def sizing (action : PlannedAction) : Except GraphError Sizing :=
  match Sizing.ofMode? action.mode action.amount with
  | some sizing => .ok sizing
  | none => .error (.invalidSizing action.node .amountRequired)

/-- The rule of an action: several inputs have to hold together, and without
inputs the rule always fires. -/
def rule (configuration : Configuration) (action : PlannedAction) :
    Except GraphError ActionRule := do
  (Signal.testsOf action.inputs).forM (Test.resolve configuration)
  let sizing <- action.sizing
  return {
    node := action.node
    side := action.side
    direction := .ofSide action.side
    predicate := .conjunction (Signal.predicates configuration action.inputs)
    sizing := sizing }

/-- What an action warns about, its inputs included. -/
def warnings (configuration : Configuration) (action : PlannedAction) : List Warning :=
  (if action.inputs.isEmpty then [.ungatedAction action.node] else []) ++
    (Signal.testsOf action.inputs).flatMap (Test.warnings configuration) ++
    (if action.mode = .allAvailable && action.amount.isSome then
      [.ignoredAmount action.node] else [])

/-- The indicator series the inputs of an action read. -/
def reads (configuration : Configuration) (action : PlannedAction) :
    List IndicatorSeries :=
  (Signal.testsOf action.inputs).flatMap (Test.reads configuration)

end PlannedAction

namespace PlannedExit

/-- The range series of an exit in multiples of the range. -/
def atr? (configuration : Configuration) (planned : PlannedExit) :
    Option IndicatorSeries :=
  if planned.basis = .atrMultiple then
    some (.averageTrueRange (planned.atrPeriod.getD configuration.defaultAtrPeriod))
  else none

/-- The rule of a risk exit. -/
def rule (configuration : Configuration) (planned : PlannedExit) : ExitRule where
  node := planned.node
  kind := planned.kind
  basis := planned.basis
  magnitude := planned.magnitude
  atr := planned.atr? configuration

/-- What a risk exit warns about. -/
def warnings (configuration : Configuration) (planned : PlannedExit) : List Warning :=
  if planned.basis = .atrMultiple then
    if planned.atrPeriod.isNone then
      [.defaultAtrPeriod planned.node configuration.defaultAtrPeriod]
    else []
  else if planned.atrPeriod.isSome then [.ignoredAtrPeriod planned.node]
  else []

end PlannedExit

namespace Graph

/-- The actions of a graph with their inputs unfolded. -/
def plannedActions (graph : Graph) : Except GraphError (List PlannedAction) :=
  graph.actions.mapM fun node =>
    match node.kind with
    | .action side mode amount => do
        let inputs <- (graph.flowParents node.id).mapM (graph.signal [])
        return { node := node.id, side, mode, amount, inputs }
    | _ => .error (.unknownNode (.ofNode? node.id "an action" (some node)))

/-- The risk exits of a graph. -/
def plannedExits (graph : Graph) : List PlannedExit :=
  graph.nodes.filterMap fun node =>
    match node.kind with
    | .exit kind basis magnitude atrPeriod =>
        some { node := node.id, kind, basis, magnitude, atrPeriod }
    | _ => none

end Graph

/-- The first series of each key. -/
def distinctSeries (series : List IndicatorSeries) : List IndicatorSeries :=
  ((series.map fun one => (one.key, one)).eraseDupsBy
    fun left right => left.1 == right.1).map Prod.snd

namespace ValidGraph

/-- Conditions and gates that feed no action. -/
def unreachable (valid : ValidGraph) : List NodeId :=
  (valid.graph.nodes.filter fun node =>
    !(node.isAction || node.isExit) && !valid.isReachable node.id).map Node.id

/-- Compile a valid graph, warnings or not. -/
def compileLenient (valid : ValidGraph) (configuration : Configuration) :
    Except GraphError Compilation := do
  let actions <- valid.graph.plannedActions
  let exits := valid.graph.plannedExits
  let rules <- actions.mapM (PlannedAction.rule configuration)
  let exitRules := exits.map (PlannedExit.rule configuration)
  let reads :=
    actions.flatMap (PlannedAction.reads configuration) ++
      exits.filterMap (PlannedExit.atr? configuration)
  let warnings :=
    actions.flatMap (PlannedAction.warnings configuration) ++
      exits.flatMap (PlannedExit.warnings configuration) ++
      valid.unreachable.map Warning.unreachableNode
  return {
    strategy := {
      indicators := distinctSeries reads
      actions := rules
      exits := exitRules
      stateSlots := StateSlot.ofExits exitRules }
    warnings := warnings.eraseDups }

/-- Compile a valid graph. The configuration is checked first. -/
def compile (valid : ValidGraph) (configuration : Configuration) :
    Except CompileError Compilation :=
  match configuration.check with
  | .error error => .error (.configuration error)
  | .ok () =>
      match valid.compileLenient configuration with
      | .error error => .error (.graph error)
      | .ok compilation =>
          if configuration.strict && !compilation.warnings.isEmpty then
            .error (.warningsAsErrors compilation.warnings)
          else .ok compilation

end ValidGraph

namespace Graph

/-- Validate and compile a graph. -/
def compile (graph : Graph) (configuration : Configuration) :
    Except CompileError Compilation :=
  match graph.validate with
  | .error error => .error (.graph error)
  | .ok valid => valid.compile configuration

end Graph
end StrategyGraph
