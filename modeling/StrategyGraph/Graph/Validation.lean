import StrategyGraph.Graph.Fault
import StrategyGraph.Graph.Flow

/-!
# Validation of a graph

The checks run in a fixed order and the first problem found is reported:
repeated identities, no actions, edges without end points, then edge by edge
the roles and repeated compare inputs, cycles among the ancestors of actions,
inputs of negations and last the parameters of each node.

Only a `ValidGraph` is compiled. It remembers the nodes that its actions can
observe.
-/

namespace StrategyGraph

/-- The first name in a list that stands there before. -/
def firstRepeated? : List String -> List String -> Option String
  | _, [] => none
  | seen, name :: rest =>
      if name ∈ seen then some name else firstRepeated? (name :: seen) rest

/-- What is wrong with an edge between two nodes, if anything. -/
def edgeFault? (role : EdgeRole) (source target : Node) : Option EdgeFault :=
  if source.isExit || target.isExit then some .touchesExit
  else
    match role with
    | .flow => if source.isAction then some (.leavesAction source.id) else none
    | .compareInput =>
        if !source.isCondition then
          some (.compareSource source.id source.kindName)
        else if !target.isCondition then
          some (.compareTarget target.id target.kindName)
        else none

namespace Condition

/-- Check the settings of the condition of a node. -/
def check (condition : Condition) (node : NodeId) : Except GraphError Unit :=
  if largestOffset < condition.offset then
    .error (.invalidParameter node "offset" (.tooLarge largestOffset condition.offset))
  else if largestLookback < condition.lookback then
    .error
      (.invalidParameter node "lookback" (.tooLarge largestLookback condition.lookback))
  else
    match condition.compareValue with
    | none => .ok ()
    | some value =>
        if value.isFinite then .ok ()
        else .error (.invalidParameter node "compare_value" (.invalidValue .notFinite))

end Condition

namespace Subject

/-- Check what a node observes. -/
def check (subject : Subject) (node : NodeId) : Except GraphError Unit :=
  match subject with
  | .price _ => .ok ()
  | .indicator line parameters =>
      match line.checkGiven parameters with
      | .ok () => .ok ()
      | .error invalid =>
          .error (.invalidParameter node invalid.parameter (.invalidValue invalid.fault))
  | .value constant =>
      if constant.isFinite then .ok ()
      else .error (.invalidParameter node "value" (.invalidValue .notFinite))

end Subject

/-- What is wrong with the sizing of an action, if anything. -/
def sizingFault? (mode : SizingMode) (amount : Option Float) : Option SizingFault :=
  match mode, amount with
  | .allAvailable, _ => none
  | mode, none => some (.missingAmount mode)
  | mode, some amount =>
      if !amount.isFinite then some .notFinite
      else
        match mode with
        | .percentOfEquity =>
            if 0 <= amount && amount <= 100 then none else some (.percentOutside amount)
        | mode => if amount <= 0 then some (.notPositive mode amount) else none

/-- What is wrong with a risk exit, if anything. A stop that lies the whole
price below the price can never be reached. -/
def exitFault?
    (kind : ExitKind)
    (basis : ExitBasis)
    (magnitude : Float)
    (atrPeriod : Option Nat) : Option ExitFault :=
  if !magnitude.isFinite || magnitude <= 0 then some (.magnitudeNotPositive magnitude)
  else if basis = .percent && kind.isStop && 100 <= magnitude then
    some (.percentTooLarge kind magnitude)
  else if atrPeriod = some 0 then some .zeroAtrPeriod
  else none

namespace Node

/-- Check the parameters of a node. -/
def check (node : Node) : Except GraphError Unit :=
  match node.kind with
  | .condition subject condition => do
      condition.check node.id
      subject.check node.id
  | .gate _ => .ok ()
  | .action _ mode amount =>
      match sizingFault? mode amount with
      | some fault => .error (.invalidSizing node.id fault)
      | none => .ok ()
  | .exit kind basis magnitude atrPeriod =>
      match exitFault? kind basis magnitude atrPeriod with
      | some fault => .error (.invalidExit node.id fault)
      | none => .ok ()

end Node

namespace Graph

/-- Check that no identity is used twice. -/
def checkIdentities (graph : Graph) : Except GraphError Unit :=
  match firstRepeated? [] graph.nodeIds with
  | some id => .error (.duplicateNode id)
  | none => .ok ()

/-- Check that there is an action. -/
def checkActions (graph : Graph) : Except GraphError Unit :=
  if graph.nodes.any Node.isAction then .ok () else .error .noActionNodes

/-- Check that both ends of every edge are nodes. -/
def checkEndpoints (graph : Graph) : Except GraphError Unit :=
  graph.edges.forM fun edge =>
    if (graph.node? edge.source).isSome && (graph.node? edge.target).isSome then .ok ()
    else .error (.danglingEdge edge.id)

/-- Check edges one by one against their roles; the targets of the compare edges
so far take no further one. -/
def checkEdges (graph : Graph) : List NodeId -> List Edge -> Except GraphError Unit
  | _, [] => .ok ()
  | compared, edge :: rest =>
      match graph.node? edge.source, graph.node? edge.target with
      | some source, some target =>
          match edgeFault? edge.role source target with
          | some fault => .error (.invalidEdge edge.id fault)
          | none =>
              match edge.role with
              | .flow => graph.checkEdges compared rest
              | .compareInput =>
                  if edge.target ∈ compared then
                    .error (.duplicateCompareInput edge.target)
                  else graph.checkEdges (edge.target :: compared) rest
      | _, _ => .error (.danglingEdge edge.id)

/-- The ancestors of actions, unless there is a cycle among them. -/
def checkCycles (graph : Graph) : Except GraphError (List NodeId) :=
  match graph.ancestors with
  | .ok ancestors => .ok ancestors
  | .error id => .error (.cycleDetected id)

/-- Check that every negation has exactly one input. -/
def checkNegations (graph : Graph) : Except GraphError Unit :=
  graph.nodes.forM fun node =>
    if node.kind = .gate .not then
      let inputs := (graph.flowParents node.id).length
      if inputs = 1 then .ok () else .error (.notArity node.id inputs)
    else .ok ()

/-- Check the parameters of every node. -/
def checkNodes (graph : Graph) : Except GraphError Unit :=
  graph.nodes.forM Node.check

/-- Run all checks in order. The outcome is the list of nodes that actions can
observe. -/
def check (graph : Graph) : Except GraphError (List NodeId) := do
  graph.checkIdentities
  graph.checkActions
  graph.checkEndpoints
  graph.checkEdges [] graph.edges
  let _ <- graph.checkCycles
  graph.checkNegations
  graph.checkNodes
  return graph.reachableNodes

end Graph

/-- A graph that passed every check. -/
structure ValidGraph where
  graph : Graph
  /-- Nodes whose signal or value an action can observe. -/
  reachable : List NodeId
  checked : graph.check = .ok reachable

namespace Graph

/-- Check a graph and remember what its actions can observe. -/
def validate (graph : Graph) : Except GraphError ValidGraph :=
  match outcome : graph.check with
  | .ok reachable => .ok ⟨graph, reachable, outcome⟩
  | .error error => .error error

end Graph

namespace ValidGraph

/-- Whether a node feeds an action, along flow edges or as the source of an operand. -/
def isReachable (valid : ValidGraph) (id : NodeId) : Bool :=
  valid.reachable.contains id

end ValidGraph
end StrategyGraph
