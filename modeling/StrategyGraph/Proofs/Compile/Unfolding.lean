import StrategyGraph.Compile.Signal
import StrategyGraph.Proofs.Outcome

/-!
# Induction on unfolded signals

A signal is unfolded along a path, but what it looks like depends on its node
alone. `unfolding_induction` is induction on that: a property of a node and its
signal holds if each kind of node passes it on from the signals that flow in.
-/

namespace StrategyGraph
namespace Graph

/-- Kind of the first node of an identity. -/
def kind? (graph : Graph) (id : NodeId) : Option NodeKind :=
  (graph.node? id).map Node.kind

/-- What unfolding a node off the path amounts to. -/
theorem signal_of_kind
    {graph : Graph}
    {path : List NodeId}
    {id : NodeId}
    {signal : Signal}
    (unfolded : graph.signal path id = .ok signal) :
    (∃ subject condition operand parents,
      graph.kind? id = some (.condition subject condition) ∧
      graph.operand id condition = .ok operand ∧
      List.Forall₂ (fun parent input => graph.signal (id :: path) parent = .ok input)
        (graph.flowParents id) parents ∧
      signal = .gated { node := id, subject, condition, operand } parents) ∨
    ∃ gate inputs,
      graph.kind? id = some (.gate gate) ∧
      List.Forall₂ (fun parent input => graph.signal (id :: path) parent = .ok input)
        (graph.flowParents id) inputs ∧
      (gate = .and ∧ signal = .all inputs ∨
        gate = .or ∧ signal = .any inputs ∨
        ∃ input, gate = .not ∧ inputs = [input] ∧ signal = .negation input) := by
  rw [Graph.signal] at unfolded
  split at unfolded
  next onPath => cases unfolded
  next offPath =>
    split at unfolded
    next isNode =>
      dsimp only at unfolded
      split at unfolded
      next subject condition isCondition =>
        obtain ⟨operand, operandFound, remaining⟩ := Outcome.bind_eq_ok_iff.1 unfolded
        obtain ⟨parents, mapped, equal⟩ := Outcome.bind_eq_ok_iff.1 remaining
        exact Or.inl ⟨subject, condition, operand, parents, isCondition, operandFound,
          Outcome.mapM_eq_ok_iff.1 mapped, (Except.ok.inj equal).symm⟩
      next gate isGate =>
        obtain ⟨inputs, mapped, remaining⟩ := Outcome.bind_eq_ok_iff.1 unfolded
        refine Or.inr ⟨gate, inputs, isGate, Outcome.mapM_eq_ok_iff.1 mapped, ?_⟩
        split at remaining
        next => exact Or.inl ⟨rfl, (Except.ok.inj remaining).symm⟩
        next => exact Or.inr (Or.inl ⟨rfl, (Except.ok.inj remaining).symm⟩)
        next input =>
          exact Or.inr (Or.inr ⟨input, rfl, rfl, (Except.ok.inj remaining).symm⟩)
        next => cases remaining
      next => cases unfolded
    next => cases unfolded

section

variable {graph : Graph} {path : List NodeId} {id : NodeId} {signal : Signal}

/-- A condition sends a gated test. -/
theorem signal_of_condition
    {subject : Subject}
    {condition : Condition}
    (kind : graph.kind? id = some (.condition subject condition))
    (unfolded : graph.signal path id = .ok signal) :
    ∃ operand parents,
      graph.operand id condition = .ok operand ∧
      List.Forall₂ (fun parent input => graph.signal (id :: path) parent = .ok input)
        (graph.flowParents id) parents ∧
      signal = .gated { node := id, subject, condition, operand } parents := by
  rcases signal_of_kind unfolded with
    ⟨_, _, operand, parents, same, found, related, shape⟩ | ⟨_, _, isGate, _⟩
  · cases kind.symm.trans same
    exact ⟨operand, parents, found, related, shape⟩
  · cases kind.symm.trans isGate

/-- A gate sends a gate over the signals that flow in. -/
theorem signal_of_gate
    {gate : Gate}
    (kind : graph.kind? id = some (.gate gate))
    (unfolded : graph.signal path id = .ok signal) :
    ∃ inputs,
      List.Forall₂ (fun parent input => graph.signal (id :: path) parent = .ok input)
        (graph.flowParents id) inputs ∧
      (gate = .and ∧ signal = .all inputs ∨
        gate = .or ∧ signal = .any inputs ∨
        ∃ input, gate = .not ∧ inputs = [input] ∧ signal = .negation input) := by
  rcases signal_of_kind unfolded with ⟨_, _, _, _, isCondition, _⟩ | ⟨_, inputs, same, rest⟩
  · cases kind.symm.trans isCondition
  · cases kind.symm.trans same
    exact ⟨inputs, rest⟩

end

/-- Induction on the signals of a graph: conditions, conjunctions, disjunctions and negations
pass a property on from the signals that flow into a node. The signal at hand is known to be
that of its node. -/
theorem signal_induction
    {graph : Graph}
    {motive : NodeId -> Signal -> Prop}
    (gated : ∀ path id subject condition operand parents,
      graph.signal path id = .ok (.gated { node := id, subject, condition, operand } parents) ->
      graph.kind? id = some (.condition subject condition) ->
      graph.operand id condition = .ok operand ->
      List.Forall₂ motive (graph.flowParents id) parents ->
      motive id (.gated { node := id, subject, condition, operand } parents))
    (all : ∀ path id inputs,
      graph.signal path id = .ok (.all inputs) ->
      graph.kind? id = some (.gate .and) ->
      List.Forall₂ motive (graph.flowParents id) inputs ->
      motive id (.all inputs))
    (any : ∀ path id inputs,
      graph.signal path id = .ok (.any inputs) ->
      graph.kind? id = some (.gate .or) ->
      List.Forall₂ motive (graph.flowParents id) inputs ->
      motive id (.any inputs))
    (negation : ∀ path id parent input,
      graph.signal path id = .ok (.negation input) ->
      graph.kind? id = some (.gate .not) ->
      graph.flowParents id = [parent] ->
      motive parent input ->
      motive id (.negation input))
    {path : List NodeId}
    {id : NodeId}
    {signal : Signal}
    (unfolded : graph.signal path id = .ok signal) :
    motive id signal := by
  have step {path : List NodeId} {id : NodeId} {signal : Signal}
      (inner : ∀ parent input, graph.signal (id :: path) parent = .ok input ->
        motive parent input)
      (unfolded : graph.signal path id = .ok signal) :
      motive id signal := by
    rcases signal_of_kind unfolded with
      ⟨subject, condition, operand, parents, isCondition, found, related, rfl⟩ |
      ⟨gate, inputs, isGate, related, outcome⟩
    · exact gated path id subject condition operand parents unfolded isCondition found
        (related.imp inner)
    · rcases outcome with ⟨rfl, rfl⟩ | ⟨rfl, rfl⟩ | ⟨input, rfl, rfl, rfl⟩
      · exact all path id inputs unfolded isGate (related.imp inner)
      · exact any path id inputs unfolded isGate (related.imp inner)
      · obtain ⟨parent, parents, unfoldedParent, none, single⟩ :=
          List.forall₂_cons_right_iff.1 related
        rw [List.forall₂_nil_right_iff.1 none] at single
        exact negation path id parent input unfolded isGate single
          (inner parent input unfoldedParent)
  -- The recursion of `signal` follows flow edges backwards as long as the path stays simple.
  induction path, id using Graph.signal.induct graph generalizing signal with
  | case1 path id onPath =>
      rw [Graph.signal, dif_pos onPath] at unfolded
      cases unfolded
  | case2 path id offPath isNode _ subject condition isCondition hypothesis =>
      exact step (fun parent input => hypothesis parent) unfolded
  | case3 path id offPath isNode _ gate isGate hypothesis =>
      exact step (fun parent input => hypothesis parent) unfolded
  | case4 path id offPath isNode _ notCondition notGate =>
      rcases signal_of_kind unfolded with
        ⟨subject, condition, _, _, isCondition, _⟩ | ⟨gate, _, isGate, _⟩
      · exact (notCondition subject condition isCondition).elim
      · exact (notGate gate isGate).elim
  | case5 path id offPath notNode =>
      rw [Graph.signal, dif_neg offPath, dif_neg notNode] at unfolded
      cases unfolded

/-- Induction on the signals of a graph where the unfolding itself does not matter. -/
theorem unfolding_induction
    {graph : Graph}
    {motive : NodeId -> Signal -> Prop}
    (gated : ∀ id subject condition operand parents,
      graph.kind? id = some (.condition subject condition) ->
      graph.operand id condition = .ok operand ->
      List.Forall₂ motive (graph.flowParents id) parents ->
      motive id (.gated { node := id, subject, condition, operand } parents))
    (all : ∀ id inputs,
      graph.kind? id = some (.gate .and) ->
      List.Forall₂ motive (graph.flowParents id) inputs ->
      motive id (.all inputs))
    (any : ∀ id inputs,
      graph.kind? id = some (.gate .or) ->
      List.Forall₂ motive (graph.flowParents id) inputs ->
      motive id (.any inputs))
    (negation : ∀ id parent input,
      graph.kind? id = some (.gate .not) ->
      graph.flowParents id = [parent] ->
      motive parent input ->
      motive id (.negation input))
    {path : List NodeId}
    {id : NodeId}
    {signal : Signal}
    (unfolded : graph.signal path id = .ok signal) :
    motive id signal :=
  signal_induction
    (fun _ id subject condition operand parents _ => gated id subject condition operand parents)
    (fun _ id inputs _ => all id inputs) (fun _ id inputs _ => any id inputs)
    (fun _ id parent input _ => negation id parent input) unfolded

end Graph
end StrategyGraph
