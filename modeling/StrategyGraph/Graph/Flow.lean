import StrategyGraph.Graph.Basic

/-!
# Flow through a graph

The nodes an action depends on are found by a depth-first search backwards
along flow edges. The search keeps the path from the action to the node at
hand, and the nodes that are finished. Meeting a node of the path again means
that it lies on a cycle; a finished node is not searched again, so a node that
is shared by several branches is searched once.

The search ends because every step lengthens the path by a node of the graph
that was not on it.

Once there are no cycles to be found, the same nodes are visited breadth first:
they wait in a queue, and a node that is visited sends what flows into it to the
end of the queue. A node may wait several times but is visited once. This ends
because visiting a node uses up the edges that flow into it.
-/

namespace StrategyGraph

/-- Of two filters, the stricter one keeps fewer members if it drops one that
the other keeps. -/
theorem length_filter_lt_of_dropped
    {loose strict : Value -> Bool}
    {members : List Value} {dropped : Value}
    (implies : ∀ member, strict member = true -> loose member = true)
    (isMember : dropped ∈ members)
    (kept : loose dropped = true)
    (refused : strict dropped = false) :
    (members.filter strict).length < (members.filter loose).length := by
  induction members with
  | nil => cases isMember
  | cons first rest hypothesis =>
      have restAtMost : (rest.filter strict).length <= (rest.filter loose).length := by
        rw [← List.countP_eq_length_filter, ← List.countP_eq_length_filter]
        exact List.countP_mono_left fun member _ => implies member
      rcases List.mem_cons.1 isMember with equal | later
      · subst equal
        simp only [List.filter_cons, kept, refused, if_true, List.length_cons]
        simp
        omega
      · have smaller := hypothesis later
        by_cases firstStrict : strict first = true
        · simp only [List.filter_cons, firstStrict, implies first firstStrict, if_true,
            List.length_cons]
          omega
        · by_cases firstLoose : loose first = true
          · simp only [List.filter_cons, firstStrict, firstLoose, if_true,
              List.length_cons]
            simp
            omega
          · simp only [List.filter_cons, firstStrict, firstLoose]
            simpa using smaller

namespace Graph

/-- Nodes of the graph that are not on a path. -/
def offPath (graph : Graph) (path : List NodeId) : List NodeId :=
  graph.nodeIds.filter fun id => !path.contains id

theorem length_offPath_cons_lt
    {graph : Graph} {path : List NodeId} {id : NodeId}
    (isNode : id ∈ graph.nodeIds)
    (offPath : id ∉ path) :
    (graph.offPath (id :: path)).length < (graph.offPath path).length := by
  refine length_filter_lt_of_dropped ?_ isNode ?_ ?_
  · intro other
    simp
  · simpa using offPath
  · simp

/-- Search backwards from a node. The outcome is the list of finished nodes, or
a node that was met again on its own path. -/
def search (graph : Graph) (path finished : List NodeId) (id : NodeId) :
    Except NodeId (List NodeId) :=
  if id ∈ finished then .ok finished
  else if onPath : id ∈ path then .error id
  else if isNode : id ∈ graph.nodeIds then do
    have _ := length_offPath_cons_lt isNode onPath
    let finished <- (graph.flowParents id).foldlM
      (fun finished parent => graph.search (id :: path) finished parent) finished
    .ok (id :: finished)
  else .ok finished
termination_by (graph.offPath path).length
decreasing_by assumption

/-- Nodes with a flow path to an action, the actions included, or a node on a
cycle among them. -/
def ancestors (graph : Graph) : Except NodeId (List NodeId) :=
  graph.actions.foldlM (fun finished action => graph.search [] finished action.id) []

/-- Flow edges into nodes that have not been visited. -/
def unfollowed (graph : Graph) (visited : List NodeId) : List Edge :=
  graph.edges.filter fun edge => edge.role = .flow && !visited.contains edge.target

/-- A visit takes the edges that flow into the node off those still to be followed. -/
theorem length_flowParents_add_unfollowed
    (graph : Graph)
    {visited : List NodeId} {id : NodeId}
    (fresh : id ∉ visited) :
    (graph.flowParents id).length + (graph.unfollowed (id :: visited)).length =
      (graph.unfollowed visited).length := by
  have entering :
      (graph.unfollowed visited).countP (fun edge => edge.target = id) =
        (graph.flowParents id).length := by
    rw [flowParents_eq_map, List.length_map, unfollowed, List.countP_filter,
      List.countP_eq_length_filter]
    refine congrArg List.length (List.filter_congr fun edge _ => ?_)
    by_cases enters : edge.target = id <;> simp [enters, fresh]
  have remaining :
      (graph.unfollowed visited).countP (fun edge => ¬ decide (edge.target = id) = true) =
        (graph.unfollowed (id :: visited)).length := by
    rw [unfollowed, unfollowed, List.countP_filter, List.countP_eq_length_filter]
    refine congrArg List.length (List.filter_congr fun edge _ => ?_)
    by_cases enters : edge.target = id <;> simp [enters]
  rw [← entering, ← remaining]
  exact (List.length_eq_countP_add_countP fun edge : Edge => decide (edge.target = id)).symm

/-- Visit what waits in a queue and everything that flows into it. The outcome is the
list of visited nodes. -/
def visit (graph : Graph) (visited : List NodeId) : List NodeId -> List NodeId
  | [] => visited
  | id :: queue =>
      if id ∈ visited then graph.visit visited queue
      else graph.visit (id :: visited) (queue ++ graph.flowParents id)
termination_by queue => queue.length + (graph.unfollowed visited).length
decreasing_by
  · simp
  · have followed := graph.length_flowParents_add_unfollowed ‹id ∉ visited›
    rw [List.length_append, List.length_cons]
    omega

/-- Nodes whose signal or value an action can observe. Flow edges are followed all the
way; a source of operands is only read for its value, so its own inputs are not. -/
def reachableNodes (graph : Graph) : List NodeId :=
  let feeding := graph.visit [] (graph.actions.map Node.id)
  feeding ++ feeding.filterMap graph.compareInput?

end Graph
end StrategyGraph
