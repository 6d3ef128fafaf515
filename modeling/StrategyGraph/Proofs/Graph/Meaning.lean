import Mathlib.Data.List.Forall2
import StrategyGraph.Configuration
import StrategyGraph.Graph.Basic
import StrategyGraph.Run.Evaluation

/-!
# What a graph means

At every bar of a run the nodes of a graph hold or do not hold. `Denotes` says
which, by recursion along flow edges and without any reference to compilation: an
action and a conjunction need all nodes that flow in, a disjunction needs one of
them, a negation fails with its only one, and a condition holds if its comparison
does somewhere in its window and all nodes that flow in hold as well.

The recursion need not end on every graph, so a node may denote nothing. It never
denotes two things.
-/

namespace StrategyGraph

variable [Quantity Value]

/-- A quantity, unless it stands for a missing number. -/
def Quantity.available? (quantity : Value) : Option Value :=
  if Quantity.isNaN quantity then none else some quantity

namespace SeriesSet

/-- The number under a key some bars before a bar. Before the first bar and behind
the last one there is none. -/
def numberBack? (set : SeriesSet Value) (key : String) (bar back : Nat) :
    Option Value :=
  if back <= bar then (set.value? key (bar - back)).bind Quantity.available? else none

end SeriesSet

namespace Subject

/-- The number a subject is some bars before a bar. -/
def numberBack?
    (configuration : Configuration)
    (set : SeriesSet Value)
    (bar back : Nat) : Subject -> Option Value
  | .price column => set.numberBack? column.key bar back
  | .indicator line parameters =>
      set.numberBack? (line.complete parameters (configuration.overrides line)).key bar back
  | .value constant => Quantity.available? (Quantity.ofFloat constant)

end Subject

namespace Comparison

/-- Whether a comparison holds some bars back, given the plain relations at every
number of bars back. A crossing relates the bar before as well. -/
def holdsBack (relates : Relation -> Nat -> Bool) (back : Nat) : Comparison -> Bool
  | .greater => relates .greater back
  | .less => relates .less back
  | .equal => relates .equal back
  | .atLeast => relates .atLeast back
  | .atMost => relates .atMost back
  | .crossesAbove => relates .atMost (back + 1) && relates .greater back
  | .crossesBelow => relates .atLeast (back + 1) && relates .less back

end Comparison

namespace Condition

/-- Whether the comparison of a condition holds at some bar of its window. -/
def holdsWithin (relates : Relation -> Nat -> Bool) (condition : Condition) : Bool :=
  (List.range (max condition.lookback 1)).any fun shift =>
    condition.comparison.holdsBack relates (condition.offset + shift)

end Condition

namespace Graph

/-- The number a condition compares with some bars before a bar: that of the node
its compare edge comes from, else its literal, else zero. -/
def operandBack?
    (graph : Graph)
    (configuration : Configuration)
    (set : SeriesSet Value)
    (bar : Nat)
    (id : NodeId)
    (condition : Condition)
    (back : Nat) : Option Value :=
  match graph.compareInput? id with
  | some source =>
      ((graph.node? source).bind Node.subject?).bind
        (Subject.numberBack? configuration set bar back)
  | none => Quantity.available? (Quantity.ofFloat (condition.compareValue.getD 0))

/-- Whether the subject of a condition and what it is compared with stand in a
relation some bars before a bar. Without either number they do not. -/
def relatesBack
    (graph : Graph)
    (configuration : Configuration)
    (set : SeriesSet Value)
    (bar : Nat)
    (id : NodeId)
    (subject : Subject)
    (condition : Condition)
    (relation : Relation)
    (back : Nat) : Bool :=
  match subject.numberBack? configuration set bar back,
    graph.operandBack? configuration set bar id condition back with
  | some left, some right => relation.holds left right
  | _, _ => false

/-- Whether a node holds at a bar, given the truth of the nodes that flow in. A
negation needs exactly one of them, and a risk exit has no truth. -/
def holdsFrom?
    (graph : Graph)
    (configuration : Configuration)
    (set : SeriesSet Value)
    (bar : Nat)
    (id : NodeId) : NodeKind -> List Bool -> Option Bool
  | .condition subject condition, inputs =>
      some
        (condition.holdsWithin
            (graph.relatesBack configuration set bar id subject condition) &&
          inputs.all fun input => input)
  | .gate .and, inputs => some (inputs.all fun input => input)
  | .gate .or, inputs => some (inputs.isEmpty || inputs.any fun input => input)
  | .gate .not, [input] => some (!input)
  | .gate .not, _ => none
  | .action _ _ _, inputs => some (inputs.all fun input => input)
  | .exit _ _ _ _, _ => none

/-- Whether a node holds at a bar, by recursion along flow edges. -/
inductive Denotes
    (graph : Graph)
    (configuration : Configuration)
    (set : SeriesSet Value)
    (bar : Nat) : NodeId -> Bool -> Prop
  | node
      {id : NodeId} {kind : NodeKind} {holds : Bool}
      (truth : NodeId -> Bool)
      (isNode : (graph.node? id).map Node.kind = some kind)
      (parents : ∀ parent ∈ graph.flowParents id,
        Denotes graph configuration set bar parent (truth parent))
      (combined :
        graph.holdsFrom? configuration set bar id kind
          ((graph.flowParents id).map truth) = some holds) :
      Denotes graph configuration set bar id holds

namespace Denotes

variable
  {graph : Graph} {configuration : Configuration} {set : SeriesSet Value} {bar : Nat}

/-- A node never denotes two things. -/
theorem unique
    {id : NodeId} {left right : Bool}
    (first : graph.Denotes configuration set bar id left)
    (second : graph.Denotes configuration set bar id right) :
    left = right := by
  induction first generalizing right with
  | @node id kind left truth isNode parents combined hypothesis =>
      obtain ⟨other, otherNode, otherParents, otherCombined⟩ := second
      have inputs :
          (graph.flowParents id).map truth = (graph.flowParents id).map other :=
        List.map_congr_left fun parent member =>
          hypothesis parent member (otherParents parent member)
      cases Option.some.inj (isNode.symm.trans otherNode)
      rw [inputs] at combined
      exact Option.some.inj (combined.symm.trans otherCombined)

/-- What the nodes flowing into a node denote, as a function of the node. -/
theorem exists_truth
    {parents : List NodeId}
    {inputs : List Bool}
    (related : List.Forall₂ (graph.Denotes configuration set bar) parents inputs) :
    ∃ truth : NodeId -> Bool,
      (∀ parent ∈ parents, graph.Denotes configuration set bar parent (truth parent)) ∧
        parents.map truth = inputs := by
  induction related with
  | nil => exact ⟨fun _ => false, fun _ member => absurd member List.not_mem_nil, rfl⟩
  | @cons parent input parents inputs denotes related hypothesis =>
      obtain ⟨truth, tail, mapped⟩ := hypothesis
      refine ⟨Function.update truth parent input, fun other member => ?_, ?_⟩
      · by_cases equal : other = parent
        · rw [equal, Function.update_self]
          exact denotes
        · rw [Function.update_of_ne equal]
          exact tail other ((List.mem_cons.1 member).resolve_left equal)
      -- A node that flows in twice brings the same truth both times.
      · rw [List.map_cons, Function.update_self, ← mapped]
        refine congrArg (input :: ·) (List.map_congr_left fun other member => ?_)
        by_cases equal : other = parent
        · rw [equal, Function.update_self]
          exact denotes.unique (equal ▸ tail other member)
        · rw [Function.update_of_ne equal]

/-- A node denotes what the truth of the nodes flowing in makes of it. -/
theorem of_inputs
    {id : NodeId} {kind : NodeKind} {inputs : List Bool} {holds : Bool}
    (isNode : (graph.node? id).map Node.kind = some kind)
    (related :
      List.Forall₂ (graph.Denotes configuration set bar) (graph.flowParents id) inputs)
    (combined : graph.holdsFrom? configuration set bar id kind inputs = some holds) :
    graph.Denotes configuration set bar id holds := by
  obtain ⟨truth, parents, mapped⟩ := exists_truth related
  exact .node truth isNode parents (mapped ▸ combined)

end Denotes
end Graph
end StrategyGraph
