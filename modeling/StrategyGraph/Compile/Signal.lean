import StrategyGraph.Graph.Flow
import StrategyGraph.Graph.Fault

/-!
# Signals

A signal is what flows into a gate or an action, unfolded into a tree: a test
at a condition node, gated by the signals that flow into the node, or a gate
over signals. A node that feeds several others appears below each of them.

Unfolding follows flow edges backwards along one path at a time. It fails if
the path meets itself or leaves the conditions and gates, which no valid graph
allows among the ancestors of its actions.
-/

namespace StrategyGraph

/-- What a condition compares its subject with. -/
inductive Operand where
  /-- The subject of another node, at the same bar. -/
  | source (node : NodeId) (subject : Subject)
  | literal (constant : Float)
  /-- Nothing was given; zero is taken. -/
  | missing

/-- A condition node with everything its comparison depends on. -/
structure Test where
  node : NodeId
  subject : Subject
  condition : Condition
  operand : Operand

/-- A tree of tests and gates. -/
inductive Signal where
  /-- A test that holds together with all signals flowing into its node. -/
  | gated (test : Test) (parents : List Signal)
  | all (inputs : List Signal)
  | any (inputs : List Signal)
  | negation (input : Signal)

namespace Graph

/-- The operand of the condition of a node: the source of its compare edge, else
the literal, else nothing. -/
def operand (graph : Graph) (id : NodeId) (condition : Condition) :
    Except GraphError Operand :=
  match graph.compareInput? id with
  | some source =>
      match (graph.node? source).bind Node.subject? with
      | some subject => .ok (.source source subject)
      | none =>
          .error (.unknownNode
            (.ofNode? source "a price, indicator or value" (graph.node? source)))
  | none =>
      match condition.compareValue with
      | some constant => .ok (.literal constant)
      | none => .ok .missing

/-- Unfold the signal a node sends, reached along a path of nodes. -/
def signal (graph : Graph) (path : List NodeId) (id : NodeId) :
    Except GraphError Signal :=
  if onPath : id ∈ path then .error (.cycleDetected id)
  else if isNode : id ∈ graph.nodeIds then
    have _ := length_offPath_cons_lt isNode onPath
    match (graph.node? id).map Node.kind with
    | some (.condition subject condition) => do
        let operand <- graph.operand id condition
        let parents <- (graph.flowParents id).mapM fun parent =>
          graph.signal (id :: path) parent
        return .gated { node := id, subject, condition, operand } parents
    | some (.gate gate) => do
        let inputs <- (graph.flowParents id).mapM fun parent =>
          graph.signal (id :: path) parent
        match gate, inputs with
        | .and, inputs => return .all inputs
        | .or, inputs => return .any inputs
        | .not, [input] => return .negation input
        | .not, inputs => .error (.notArity id inputs.length)
    | _ => .error (.unknownNode (.ofNode? id "a condition or logic" (graph.node? id)))
  else .error (.unknownNode id)
termination_by (graph.offPath path).length
decreasing_by all_goals assumption

end Graph
end StrategyGraph
