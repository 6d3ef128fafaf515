import StrategyGraph.Graph.Basic
import StrategyGraph.Indicator.Resolution

/-!
# Faults of a graph

Everything that keeps a graph from being compiled, as causes, and the wording
of each.
-/

namespace StrategyGraph

/-- Why an edge is not allowed. -/
inductive EdgeFault where
  | touchesExit
  | leavesAction (source : NodeId)
  | compareSource (source : NodeId) (kindName : String)
  | compareTarget (target : NodeId) (kindName : String)
  deriving DecidableEq

/-- Why the sizing of an action is refused. -/
inductive SizingFault where
  | missingAmount (mode : SizingMode)
  /-- A sizing is to be made of an amount that is not there. -/
  | amountRequired
  | notFinite
  | notPositive (mode : SizingMode) (amount : Float)
  | percentOutside (amount : Float)
  deriving DecidableEq

/-- Why a risk exit is refused. -/
inductive ExitFault where
  | magnitudeNotPositive (magnitude : Float)
  | percentTooLarge (kind : ExitKind) (magnitude : Float)
  | zeroAtrPeriod
  deriving DecidableEq

/-- Why a parameter of a condition node is refused. -/
inductive ParameterFault where
  | tooLarge (bound found : Nat)
  | invalidValue (fault : ValueFault)
  deriving DecidableEq

/-- What is wrong with a node that is looked up. -/
inductive LookupFault where
  | undefined (node : NodeId)
  | unexpectedKind (node : NodeId) (kindName expected : String)
  deriving DecidableEq

/-- Why a graph is refused. -/
inductive GraphError where
  | noActionNodes
  | danglingEdge (edge : EdgeId)
  | cycleDetected (node : NodeId)
  | duplicateCompareInput (node : NodeId)
  | duplicateNode (node : NodeId)
  | unknownNode (fault : LookupFault)
  | invalidEdge (edge : EdgeId) (fault : EdgeFault)
  | notArity (node : NodeId) (inputs : Nat)
  | invalidSizing (node : NodeId) (fault : SizingFault)
  | invalidExit (node : NodeId) (fault : ExitFault)
  | invalidParameter (node : NodeId) (parameter : String) (fault : ParameterFault)
  deriving DecidableEq

namespace EdgeFault

/-- Wording of an edge fault. -/
def reason : EdgeFault -> String
  | .touchesExit => "exit nodes take no edges"
  | .leavesAction source => "action node " ++ source ++ " has no output"
  | .compareSource source kindName =>
      "compare input source " ++ source ++ " is a " ++ kindName ++
        " node, expected price, indicator or value"
  | .compareTarget target kindName =>
      "compare input target " ++ target ++ " is a " ++ kindName ++
        " node, expected price, indicator or value"

end EdgeFault

namespace SizingFault

/-- Wording of a sizing fault. -/
def reason : SizingFault -> String
  | .missingAmount mode => mode.label ++ " requires an amount"
  | .amountRequired => "amount is required"
  | .notFinite => "amount must be a finite number"
  | .notPositive mode amount =>
      mode.label ++ " amount must be positive, got " ++ NumberText.display amount
  | .percentOutside amount =>
      "percent of equity must be within [0, 100], got " ++ NumberText.display amount

end SizingFault

namespace ExitFault

/-- Wording of an exit fault. -/
def reason : ExitFault -> String
  | .magnitudeNotPositive magnitude =>
      "magnitude must be positive, got " ++ NumberText.display magnitude
  | .percentTooLarge kind magnitude =>
      kind.text ++ " percent must be below 100, got " ++ NumberText.display magnitude
  | .zeroAtrPeriod => "atr_period must be >= 1"

end ExitFault

namespace ParameterFault

/-- Wording of a parameter fault. -/
def reason : ParameterFault -> String
  | .tooLarge bound found =>
      "must be at most " ++ bound.repr ++ ", got " ++ found.repr
  | .invalidValue fault => fault.reason

end ParameterFault

namespace LookupFault

instance : Coe NodeId LookupFault := ⟨undefined⟩

/-- The fault of a node that is not what is expected. -/
def ofNode? (id : NodeId) (expected : String) : Option Node -> LookupFault
  | some node => unexpectedKind id node.kindName expected
  | none => undefined id

/-- Wording of a failed look-up. -/
def reason : LookupFault -> String
  | .undefined node => "node " ++ node ++ " is referenced but not defined"
  | .unexpectedKind node kindName expected =>
      "node " ++ node ++ " is a " ++ kindName ++ " node where " ++ expected ++
        " was expected"

end LookupFault

namespace GraphError

/-- Wording of a refusal. -/
def message : GraphError -> String
  | .noActionNodes => "graph has no action nodes"
  | .danglingEdge edge =>
      "edge " ++ edge ++ " references a node that does not exist"
  | .cycleDetected node => "cycle detected through node " ++ node
  | .duplicateCompareInput node =>
      "node " ++ node ++ " has more than one compare input"
  | .duplicateNode node => "node id " ++ node ++ " is used more than once"
  | .unknownNode fault => fault.reason
  | .invalidEdge edge fault =>
      "edge " ++ edge ++ " is not allowed: " ++ fault.reason
  | .notArity node inputs =>
      "NOT node " ++ node ++ " needs exactly one input, found " ++ inputs.repr
  | .invalidSizing node fault =>
      "action " ++ node ++ " has invalid sizing: " ++ fault.reason
  | .invalidExit node fault => "exit " ++ node ++ " is invalid: " ++ fault.reason
  | .invalidParameter node parameter fault =>
      "node " ++ node ++ " parameter `" ++ parameter ++ "` " ++ fault.reason

end GraphError
end StrategyGraph
