import StrategyGraph.Graph.Node

/-!
# Strategy graphs

A graph is a list of nodes and a list of edges. Flow edges carry the truth of
one node into the next; compare edges supply the operand of a condition. The
order of both lists matters to everything that is reported in order.
-/

namespace StrategyGraph

/-- Identity of an edge. -/
abbrev EdgeId := String

/-- What an edge carries into its target. -/
inductive EdgeRole where
  | flow
  | compareInput
  deriving DecidableEq, Repr, Inhabited

/-- A directed connection between two nodes. -/
structure Edge where
  id : EdgeId
  source : NodeId
  target : NodeId
  role : EdgeRole
  deriving DecidableEq

/-- A strategy graph as its author drew it. -/
structure Graph where
  nodes : List Node
  edges : List Edge
  deriving DecidableEq

namespace Graph

/-- The first node of an identity. -/
def node? (graph : Graph) (id : NodeId) : Option Node :=
  graph.nodes.find? fun node => node.id == id

/-- Identities of the nodes, in node order. -/
def nodeIds (graph : Graph) : List NodeId :=
  graph.nodes.map Node.id

/-- Nodes that place orders, in node order. -/
def actions (graph : Graph) : List Node :=
  graph.nodes.filter Node.isAction

/-- Nodes that limit risk, in node order. -/
def exits (graph : Graph) : List Node :=
  graph.nodes.filter Node.isExit

/-- Sources of the flow edges into a node, in edge order. -/
def flowParents (graph : Graph) (id : NodeId) : List NodeId :=
  graph.edges.filterMap fun edge =>
    if edge.role = .flow && edge.target == id then some edge.source else none

/-- The flow parents of a node are the sources of the flow edges into it, in edge
order. -/
theorem flowParents_eq_map (graph : Graph) (id : NodeId) :
    graph.flowParents id =
      (graph.edges.filter fun edge => edge.role = .flow ∧ edge.target = id).map
        Edge.source := by
  unfold flowParents
  induction graph.edges with
  | nil => rfl
  | cons edge edges hypothesis =>
      rw [List.filterMap_cons, List.filter_cons, hypothesis]
      by_cases flows : edge.role = .flow <;> by_cases into : edge.target = id <;>
        simp [flows, into]

/-- Sources of the compare edges into a node, in edge order. -/
def compareSources (graph : Graph) (id : NodeId) : List NodeId :=
  graph.edges.filterMap fun edge =>
    if edge.role = .compareInput && edge.target == id then some edge.source else none

/-- Source of the compare edge into a node. -/
def compareInput? (graph : Graph) (id : NodeId) : Option NodeId :=
  (graph.compareSources id).head?

end Graph
end StrategyGraph
