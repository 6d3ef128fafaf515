import StrategyGraph.Proofs.Compile.Accepted
import StrategyGraph.Proofs.Compile.Totality
import StrategyGraph.Proofs.Compile.Unfolding

/-!
# Graphs that compile alike

The compiler reads a graph backwards from its actions. It cannot tell two graphs apart in
which the nodes that feed actions have the same kinds, the same operands and the same nodes
flowing in: where the nodes flow in in different orders, signals correspond node by node,
and where they flow in in the same order, plans and strategies are the same.
-/

namespace StrategyGraph
namespace Graph

/-- The nodes that feed actions in one graph are of the same kinds in the other one, with
the same operands and the same nodes flowing in, in any order. -/
structure Corresponds (graph other : Graph) : Prop where
  kind : ∀ id, graph.FeedsAction id -> other.kind? id = graph.kind? id
  operand : ∀ id, graph.FeedsAction id -> other.operand id = graph.operand id
  flowParents : ∀ id, graph.FeedsAction id -> (other.flowParents id).Perm (graph.flowParents id)

/-- What flows into a node that feeds an action feeds it as well. -/
theorem FeedsAction.inputs
    {graph : Graph}
    {id : NodeId}
    (feeds : graph.FeedsAction id)
    {related : NodeId -> Signal -> Prop}
    {inputs : List Signal}
    (relates : List.Forall₂ related (graph.flowParents id) inputs) :
    List.Forall₂ (fun parent input => graph.FeedsAction parent ∧ related parent input)
      (graph.flowParents id) inputs :=
  (List.forall₂_and_left _ _).2
    ⟨fun _ member => feeds.of_flow (mem_flowParents_iff.1 member), relates⟩

/-- Planned actions feed an action, namely themselves. -/
theorem feedingPlans_of_plannedActions
    {graph : Graph}
    {planned : List PlannedAction}
    (plans : graph.plannedActions = .ok planned) :
    List.Forall₂ (fun node action => graph.FeedsAction node.id ∧ graph.PlansAction node action)
      graph.actions planned :=
  (List.forall₂_and_left _ _).2
    ⟨fun node isAction => ⟨node, isAction, .refl⟩, plansAction_of_plannedActions plans⟩

namespace Corresponds

variable
  {graph other : Graph}
  (corresponds : graph.Corresponds other)
  {path pathOther : List NodeId}
  {id : NodeId}
  {signal signalOther : Signal}

include corresponds

/-- Induction on the signals of one node in two graphs. Conditions and gates pass a relation
on from what flows in, provided that inputs are related if the signals of each node among
them are. -/
theorem signals_induction
    {related : Signal -> Signal -> Prop}
    {relatedInputs : List Signal -> List Signal -> Prop}
    (inputs : ∀ id pathOther parents parentsOther,
      graph.FeedsAction id ->
      List.Forall₂
        (fun parent input => ∀ pathOther inputOther,
          other.signal pathOther parent = .ok inputOther -> related input inputOther)
        (graph.flowParents id) parents ->
      List.Forall₂ (fun parent input => other.signal pathOther parent = .ok input)
        (other.flowParents id) parentsOther ->
      relatedInputs parents parentsOther)
    (gated : ∀ test parents parentsOther, relatedInputs parents parentsOther ->
      related (.gated test parents) (.gated test parentsOther))
    (all : ∀ parents parentsOther, relatedInputs parents parentsOther ->
      related (.all parents) (.all parentsOther))
    (any : ∀ parents parentsOther, relatedInputs parents parentsOther ->
      related (.any parents) (.any parentsOther))
    (negation : ∀ input inputOther, related input inputOther ->
      related (.negation input) (.negation inputOther))
    (feeds : graph.FeedsAction id)
    (unfolded : graph.signal path id = .ok signal)
    (unfoldedOther : other.signal pathOther id = .ok signalOther) :
    related signal signalOther := by
  have relatesInputs {id : NodeId} {parents : List Signal} (feeds : graph.FeedsAction id)
      (relates : List.Forall₂
        (fun parent input => graph.FeedsAction parent -> ∀ pathOther inputOther,
          other.signal pathOther parent = .ok inputOther -> related input inputOther)
        (graph.flowParents id) parents) :=
    (feeds.inputs relates).imp fun _ _ ⟨feedsParent, relates⟩ => relates feedsParent
  refine unfolding_induction
    (motive := fun id signal => graph.FeedsAction id -> ∀ pathOther signalOther,
      other.signal pathOther id = .ok signalOther -> related signal signalOther)
    ?gated ?all ?any ?negation unfolded feeds pathOther signalOther unfoldedOther
  case gated =>
    intro id subject condition operand parents kind found relates feeds pathOther _ unfoldedOther
    rw [← corresponds.kind id feeds] at kind
    rw [← corresponds.operand id feeds] at found
    obtain ⟨operandOther, parentsOther, foundOther, relatesOther, rfl⟩ :=
      signal_of_condition kind unfoldedOther
    cases foundOther.symm.trans found
    exact gated _ _ _ (inputs id _ _ _ feeds (relatesInputs feeds relates) relatesOther)
  case all =>
    intro id parents kind relates feeds pathOther _ unfoldedOther
    rw [← corresponds.kind id feeds] at kind
    obtain ⟨parentsOther, relatesOther, ⟨_, rfl⟩ | ⟨impossible, _⟩ | ⟨_, impossible, _⟩⟩ :=
      signal_of_gate kind unfoldedOther
    · exact all _ _ (inputs id _ _ _ feeds (relatesInputs feeds relates) relatesOther)
    · cases impossible
    · cases impossible
  case any =>
    intro id parents kind relates feeds pathOther _ unfoldedOther
    rw [← corresponds.kind id feeds] at kind
    obtain ⟨parentsOther, relatesOther, ⟨impossible, _⟩ | ⟨_, rfl⟩ | ⟨_, impossible, _⟩⟩ :=
      signal_of_gate kind unfoldedOther
    · cases impossible
    · exact any _ _ (inputs id _ _ _ feeds (relatesInputs feeds relates) relatesOther)
    · cases impossible
  case negation =>
    intro id parent input kind single relates feeds pathOther _ unfoldedOther
    have flow : graph.Flow parent id := mem_flowParents_iff.1 (single ▸ List.mem_singleton_self _)
    rw [← corresponds.kind id feeds] at kind
    obtain ⟨parentsOther, relatesOther,
      ⟨impossible, _⟩ | ⟨impossible, _⟩ | ⟨inputOther, _, rfl, rfl⟩⟩ :=
      signal_of_gate kind unfoldedOther
    · cases impossible
    · cases impossible
    · have singleOther : other.flowParents id = [parent] :=
        List.perm_singleton.1 (single ▸ corresponds.flowParents id feeds)
      rw [singleOther, List.forall₂_cons] at relatesOther
      exact negation _ _ (relates (feeds.of_flow flow) _ inputOther relatesOther.1)

end Corresponds

/-- Two graphs correspond in the same order, and their actions and risk exits are the same. -/
structure Coincides (graph other : Graph) : Prop extends graph.Corresponds other where
  inOrder : ∀ id, graph.FeedsAction id -> other.flowParents id = graph.flowParents id
  actions : other.actions = graph.actions
  exits : other.exits = graph.exits

/-- Exits are planned without a look at the other nodes. -/
theorem plannedExits_of_exits
    {graph other : Graph}
    (exits : other.exits = graph.exits) :
    other.plannedExits = graph.plannedExits := by
  obtain ⟨plan, plans, onlyExits⟩ : ∃ plan : Node -> Option PlannedExit,
      (∀ graph : Graph, graph.plannedExits = graph.nodes.filterMap plan) ∧
        ∀ node, (if node.isExit then plan node else none) = plan node := by
    refine ⟨_, fun _ => rfl, fun node => ?_⟩
    unfold Node.isExit
    cases node.kind <;> rfl
  have fromExits : ∀ graph : Graph, graph.plannedExits = graph.exits.filterMap plan := by
    intro graph
    rw [plans, Graph.exits, List.filterMap_filter, funext onlyExits]
  rw [fromExits, fromExits, exits]

namespace Coincides

/-- Nodes that feed actions send the same signals. -/
theorem signal_eq
    {graph other : Graph}
    (coincides : graph.Coincides other)
    {path pathOther : List NodeId}
    {id : NodeId}
    {signal signalOther : Signal}
    (feeds : graph.FeedsAction id)
    (unfolded : graph.signal path id = .ok signal)
    (unfoldedOther : other.signal pathOther id = .ok signalOther) :
    signal = signalOther := by
  refine coincides.signals_induction ?inputs
    (fun test _ _ => congrArg (Signal.gated test)) (fun _ _ => congrArg Signal.all)
    (fun _ _ => congrArg Signal.any) (fun _ _ => congrArg Signal.negation)
    feeds unfolded unfoldedOther
  case inputs =>
    intro id pathOther parents parentsOther feeds relates relatesOther
    rw [coincides.inOrder id feeds] at relatesOther
    exact Outcome.eq_of_forall₂ relates relatesOther
      fun _ _ inputOther equal unfoldedOther => equal pathOther inputOther unfoldedOther

/-- Actions have the same plans. -/
theorem plannedActions_eq
    {graph other : Graph}
    (coincides : graph.Coincides other)
    {planned plannedOther : List PlannedAction}
    (plans : graph.plannedActions = .ok planned)
    (plansOther : other.plannedActions = .ok plannedOther) :
    planned = plannedOther := by
  refine Outcome.eq_of_forall₂ (feedingPlans_of_plannedActions plans)
    (coincides.actions ▸ plansAction_of_plannedActions plansOther) ?_
  rintro node action actionOther ⟨feeds, isPlan⟩ isPlanOther
  have names := isPlan.identity.trans isPlanOther.identity.symm
  have kinds := isPlan.kind.symm.trans isPlanOther.kind
  have inputs : action.inputs = actionOther.inputs := by
    refine Outcome.eq_of_forall₂ (feeds.inputs isPlan.inputs)
      (coincides.inOrder node.id feeds ▸ isPlanOther.inputs) ?_
    rintro _ _ _ ⟨feeds, unfolded⟩ unfoldedOther
    exact coincides.signal_eq feeds unfolded unfoldedOther
  cases action
  cases actionOther
  cases names
  cases kinds
  cases inputs
  rfl

/-- Strategies are the same. -/
theorem strategy_eq
    {valid other : ValidGraph}
    (coincides : valid.graph.Coincides other.graph)
    {configuration : Configuration}
    {planned plannedOther : List PlannedAction}
    {compilation compilationOther : Compilation}
    (compiles : valid.CompilesTo configuration planned compilation)
    (compilesOther : other.CompilesTo configuration plannedOther compilationOther) :
    compilation.strategy = compilationOther.strategy := by
  have plans := coincides.plannedActions_eq compiles.plans compilesOther.plans
  have exitPlans := plannedExits_of_exits coincides.exits
  subst plans
  have rules : compilation.strategy.actions = compilationOther.strategy.actions :=
    Outcome.eq_of_forall₂ compiles.rules compilesOther.rules
      fun _ _ _ ruled ruledOther => Except.ok.inj (ruled.symm.trans ruledOther)
  have exitRules : compilation.strategy.exits = compilationOther.strategy.exits := by
    rw [compiles.exits, compilesOther.exits, exitPlans]
  have indicators : compilation.strategy.indicators = compilationOther.strategy.indicators := by
    rw [compiles.indicators, compilesOther.indicators, exitPlans]
  have stateSlots : compilation.strategy.stateSlots = compilationOther.strategy.stateSlots := by
    rw [compiles.stateSlots, compilesOther.stateSlots, exitRules]
  generalize compilation.strategy = strategy at rules exitRules indicators stateSlots
  generalize compilationOther.strategy = strategyOther at rules exitRules indicators stateSlots
  cases strategy
  cases strategyOther
  cases rules
  cases exitRules
  cases indicators
  cases stateSlots
  rfl

end Coincides
end Graph
end StrategyGraph
