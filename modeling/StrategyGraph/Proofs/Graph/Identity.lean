import StrategyGraph.Graph.Validation
import StrategyGraph.Proofs.Outcome

/-!
# Identities of nodes

The identities of a graph are distinct exactly when the search for a repeated
one finds none. In such a graph a node is found by its identity.
-/

namespace StrategyGraph

/-- No name is repeated exactly when the names are distinct and none of them was
seen before. -/
theorem firstRepeated_eq_none_iff {seen names : List String} :
    firstRepeated? seen names = none ↔
      names.Nodup ∧ ∀ name ∈ names, name ∉ seen := by
  induction names generalizing seen with
  | nil => simp [firstRepeated?]
  | cons name names hypothesis =>
      rw [firstRepeated?]
      split
      next before =>
        simp [before]
      next fresh =>
        rw [hypothesis, List.nodup_cons]
        constructor
        · rintro ⟨distinct, unseen⟩
          refine ⟨⟨fun later => unseen name later List.mem_cons_self, distinct⟩, ?_⟩
          intro other member
          rcases List.mem_cons.1 member with equal | later
          · exact equal ▸ fresh
          · exact fun old => unseen other later (List.mem_cons_of_mem name old)
        · rintro ⟨⟨absent, distinct⟩, unseen⟩
          refine ⟨distinct, fun other later seenBefore => ?_⟩
          rcases List.mem_cons.1 seenBefore with equal | old
          · exact absent (equal ▸ later)
          · exact unseen other (List.mem_cons_of_mem name later) old

/-- Among nodes with distinct identities every one is found by its own. -/
theorem find_identity_of_mem
    {nodes : List Node} {node : Node}
    (distinct : (nodes.map Node.id).Nodup)
    (member : node ∈ nodes) :
    nodes.find? (fun other => other.id == node.id) = some node := by
  induction nodes with
  | nil => cases member
  | cons first rest hypothesis =>
      rw [List.map_cons, List.nodup_cons] at distinct
      rcases List.mem_cons.1 member with equal | later
      · simp [equal]
      · have different : first.id ≠ node.id := fun equal =>
          distinct.1 (equal ▸ List.mem_map_of_mem later)
        simpa [different] using hypothesis distinct.2 later

namespace Graph

/-- Identities pass their check exactly when they are distinct. -/
theorem checkIdentities_eq_ok_iff {graph : Graph} :
    graph.checkIdentities = .ok () ↔ graph.nodeIds.Nodup := by
  unfold checkIdentities
  cases repeated : firstRepeated? [] graph.nodeIds with
  | none => simpa using (firstRepeated_eq_none_iff.1 repeated).1
  | some id =>
      have notDistinct : ¬ graph.nodeIds.Nodup := fun distinct => by
        have unrepeated : firstRepeated? [] graph.nodeIds = none :=
          firstRepeated_eq_none_iff.2 ⟨distinct, fun _ _ => List.not_mem_nil⟩
        cases unrepeated.symm.trans repeated
      simpa using notDistinct

/-- A node that is found is a node of the graph with the identity asked for. -/
theorem mem_of_node
    {graph : Graph} {id : NodeId} {node : Node}
    (found : graph.node? id = some node) :
    node ∈ graph.nodes ∧ node.id = id :=
  ⟨List.mem_of_find?_eq_some found, eq_of_beq (List.find?_some found :)⟩

/-- With distinct identities every node is found by its own. -/
theorem node_of_mem
    {graph : Graph} {node : Node}
    (distinct : graph.nodeIds.Nodup)
    (member : node ∈ graph.nodes) :
    graph.node? node.id = some node :=
  find_identity_of_mem distinct member

/-- With distinct identities, finding a node means being a node of that identity. -/
theorem node_eq_some_iff
    {graph : Graph}
    (distinct : graph.nodeIds.Nodup)
    {id : NodeId}
    {node : Node} :
    graph.node? id = some node ↔ node ∈ graph.nodes ∧ node.id = id := by
  refine ⟨mem_of_node, ?_⟩
  rintro ⟨member, rfl⟩
  exact node_of_mem distinct member

/-- An identity is found exactly when a node has it. -/
theorem isSome_node_iff {graph : Graph} {id : NodeId} :
    (graph.node? id).isSome = true ↔ id ∈ graph.nodeIds := by
  unfold node? nodeIds
  rw [List.find?_isSome, List.mem_map]
  constructor
  · rintro ⟨node, member, equal⟩
    exact ⟨node, member, eq_of_beq equal⟩
  · rintro ⟨node, member, equal⟩
    exact ⟨node, member, equal ▸ beq_self_eq_true node.id⟩

/-- A checked graph has distinct identities. -/
theorem distinct_of_check
    {graph : Graph} {reachable : List NodeId}
    (checked : graph.check = .ok reachable) :
    graph.nodeIds.Nodup := by
  obtain ⟨_, identities, _⟩ := Outcome.bind_eq_ok_iff.1 checked
  exact checkIdentities_eq_ok_iff.1 identities

end Graph
end StrategyGraph
