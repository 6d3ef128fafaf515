import StrategyGraph.Proofs.Compile.Meaning
import StrategyGraph.Proofs.Compile.Reads

/-!
# Collapsed disjunctions

A disjunction one of whose inputs imposes no constraint collapses: it imposes none either,
and the conditions that flow into it are not evaluated. So the predicate of a node reads the
indicators of those conditions that reach the node past all collapsed gates, and it reads all
indicators behind the node, in order, where no collapsed gate swallows any.
-/

namespace StrategyGraph

namespace Graph

/-! ## Gates without constraint -/

/-- A gate that imposes no constraint: a conjunction of such gates, a disjunction without
inputs, or a disjunction with such an input. -/
inductive Unconditional (graph : Graph) : NodeId -> Prop
  | conjunction
      {id : NodeId}
      (isGate : ⟨id, .gate .and⟩ ∈ graph.nodes)
      (inputs : ∀ parent, graph.Flow parent id -> Unconditional graph parent) :
      Unconditional graph id
  | vacuous
      {id : NodeId}
      (isGate : ⟨id, .gate .or⟩ ∈ graph.nodes)
      (noInput : ∀ parent, ¬ graph.Flow parent id) :
      Unconditional graph id
  | disjunction
      {id parent : NodeId}
      (isGate : ⟨id, .gate .or⟩ ∈ graph.nodes)
      (flow : graph.Flow parent id)
      (input : Unconditional graph parent) :
      Unconditional graph id

/-- A disjunction that imposes no constraint, so that none of its inputs is evaluated. -/
def Collapses (graph : Graph) (id : NodeId) : Prop :=
  ⟨id, .gate .or⟩ ∈ graph.nodes ∧ graph.Unconditional id

/-- A flow path, possibly an empty one, leads from one node to another, and no disjunction
that it enters collapses. -/
def HeardAt (graph : Graph) : NodeId -> NodeId -> Prop :=
  Relation.ReflTransGen fun source target => graph.Flow source target ∧ ¬ graph.Collapses target

/-- A node is heard by an action. -/
def Heard (graph : Graph) (id : NodeId) : Prop :=
  ∃ action ∈ graph.actions, graph.HeardAt id action.id

/-- Some of the conditions observe an indicator with this series, as their subject or as their
operand. -/
def ObservesSeries
    (graph : Graph)
    (configuration : Configuration)
    (conditions : NodeId -> Prop)
    (series : IndicatorSeries) : Prop :=
  ∃ id line given condition,
    ⟨id, .condition (.indicator line given) condition⟩ ∈ graph.nodes ∧
      (conditions id ∨ ∃ target, graph.Compares id target ∧ conditions target) ∧
      series = line.complete given (configuration.overrides line)

/-- A condition that observes the series flows into a collapsed disjunction that feeds an
action. -/
def Swallows (graph : Graph) (configuration : Configuration) (series : IndicatorSeries) : Prop :=
  ∃ gate, graph.Collapses gate ∧ graph.FeedsAction gate ∧
    graph.ObservesSeries configuration (fun id => graph.Reaches id gate) series

/-- What is heard at a node is the node itself and, unless it collapses, what is heard at the
nodes that flow in. -/
theorem hears_iff {graph : Graph} {source id : NodeId} :
    graph.HeardAt source id ↔
      source = id ∨
        (∃ parent, graph.HeardAt source parent ∧ graph.Flow parent id) ∧ ¬ graph.Collapses id := by
  rw [HeardAt, Relation.ReflTransGen.cases_tail_iff, eq_comm]
  simp only [← and_assoc, exists_and_right]

/-- A condition that is heard at the node reads a series of this key. -/
def HearsKey
    (graph : Graph)
    (configuration : Configuration)
    (key : String)
    (id : NodeId) : Prop :=
  ∃ test, (graph.States test ∧ graph.HeardAt test.node id) ∧
    key ∈ (test.reads configuration).map IndicatorSeries.key

/-- What is heard at a gate or an action is what is heard at the nodes that flow in, unless it
collapses. -/
theorem hearsKey_iff
    {graph : Graph}
    {configuration : Configuration}
    {key : String}
    {id : NodeId}
    (noTest : ∀ test, graph.States test -> test.node ≠ id) :
    graph.HearsKey configuration key id ↔
      (∃ parent, graph.HearsKey configuration key parent ∧ graph.Flow parent id) ∧
        ¬ graph.Collapses id := by
  constructor
  · rintro ⟨test, ⟨states, hears⟩, reads⟩
    obtain ⟨⟨parent, further, flow⟩, stays⟩ :=
      (hears_iff.1 hears).resolve_left (noTest test states)
    exact ⟨⟨parent, ⟨test, ⟨states, further⟩, reads⟩, flow⟩, stays⟩
  · rintro ⟨⟨parent, ⟨test, ⟨states, hears⟩, reads⟩, flow⟩, stays⟩
    exact ⟨test, ⟨states, hears_iff.2 (Or.inr ⟨⟨parent, hears, flow⟩, stays⟩)⟩, reads⟩

/-- What is heard at a condition is what it reads and what is heard at the nodes that flow
in. -/
theorem States.hearsKey_iff
    {graph : Graph}
    {configuration : Configuration}
    {key : String}
    {test : Test}
    (here : graph.States test)
    (stays : ¬ graph.Collapses test.node) :
    graph.HearsKey configuration key test.node ↔
      key ∈ (test.reads configuration).map IndicatorSeries.key ∨
        ∃ parent, graph.HearsKey configuration key parent ∧ graph.Flow parent test.node := by
  constructor
  · rintro ⟨other, ⟨states, hears⟩, reads⟩
    rcases hears_iff.1 hears with same | ⟨⟨parent, further, flow⟩, _⟩
    · rw [states.eq here same] at reads
      exact Or.inl reads
    · exact Or.inr ⟨parent, ⟨other, ⟨states, further⟩, reads⟩, flow⟩
  · rintro (reads | ⟨parent, ⟨other, ⟨states, hears⟩, reads⟩, flow⟩)
    · exact ⟨test, ⟨here, .refl⟩, reads⟩
    · exact ⟨other, ⟨states, hears_iff.2 (Or.inr ⟨⟨parent, hears, flow⟩, stays⟩)⟩, reads⟩

/-- What flows in reads what is heard at the nodes that flow in. -/
theorem readsKey_inputs_iff
    {graph : Graph}
    {configuration : Configuration}
    {key : String}
    {id : NodeId}
    {inputs : List Signal}
    (each : List.Forall₂ (fun parent input =>
      (input.predicate configuration).ReadsKey key ↔ graph.HearsKey configuration key parent)
      (graph.flowParents id) inputs) :
    (∃ part ∈ Signal.predicates configuration inputs, part.ReadsKey key) ↔
      ∃ parent, graph.HearsKey configuration key parent ∧ graph.Flow parent id := by
  rw [← exists_input_iff each, Signal.predicates_eq_map]
  simp only [List.mem_map, exists_exists_and_eq_and]

/-- Of what flows in, predicates read what tests do if they do so for each signal. -/
theorem distinctSeries_inputs
    {graph : Graph}
    {configuration : Configuration}
    {id : NodeId}
    {inputs : List Signal}
    (feeds : graph.FeedsAction id)
    (each : List.Forall₂ (fun parent input => graph.FeedsAction parent ->
      distinctSeries (input.predicate configuration).series =
        distinctSeries (input.tests.flatMap (Test.reads configuration)))
      (graph.flowParents id) inputs) :
    distinctSeries ((Signal.predicates configuration inputs).flatMap Predicate.series) =
      distinctSeries ((Signal.testsOf inputs).flatMap (Test.reads configuration)) := by
  rw [Signal.predicates_eq_map, List.flatMap_map, Signal.testsOf_eq_flatMap, List.flatMap_assoc]
  refine distinctSeries_flatMap_congr (List.forall₂_same.2 fun input listed => ?_)
  obtain ⟨parent, isParent, same⟩ := Outcome.exists_item_of_forall₂ each listed
  exact same (feeds.of_flow (mem_flowParents_iff.1 isParent))

section

variable
  {graph : Graph}
  {configuration : Configuration}
  {id : NodeId}
  {inputs : List Signal}
  (wellFormed : graph.WellFormed)

include wellFormed

theorem unconditional_iff_of_and (isGate : graph.kind? id = some (.gate .and)) :
    graph.Unconditional id ↔ ∀ parent, graph.Flow parent id -> graph.Unconditional parent := by
  have single {gate : Gate} (isOther : ⟨id, .gate gate⟩ ∈ graph.nodes) : gate = .and := by
    cases isGate.symm.trans ((kind_eq_some_iff wellFormed.distinct).2 isOther)
    rfl
  constructor
  · intro unconditional
    cases unconditional with
    | conjunction _ inputs => exact inputs
    | vacuous isOther _ => cases single isOther
    | disjunction isOther _ _ => cases single isOther
  · exact .conjunction ((kind_eq_some_iff wellFormed.distinct).1 isGate)

theorem unconditional_iff_of_or (isGate : graph.kind? id = some (.gate .or)) :
    graph.Unconditional id ↔
      (∀ parent, ¬ graph.Flow parent id) ∨
        ∃ parent, graph.Unconditional parent ∧ graph.Flow parent id := by
  have isNode := (kind_eq_some_iff wellFormed.distinct).1 isGate
  constructor
  · intro unconditional
    cases unconditional with
    | conjunction isOther _ =>
        cases isGate.symm.trans ((kind_eq_some_iff wellFormed.distinct).2 isOther)
    | vacuous _ noInput => exact Or.inl noInput
    | disjunction _ flow input => exact Or.inr ⟨_, input, flow⟩
  · rintro (noInput | ⟨parent, input, flow⟩)
    · exact .vacuous isNode noInput
    · exact .disjunction isNode flow input

/-- Conditions and negations impose a constraint. -/
theorem Unconditional.kind (unconditional : graph.Unconditional id) :
    graph.kind? id = some (.gate .and) ∨ graph.kind? id = some (.gate .or) := by
  cases unconditional with
  | conjunction isGate _ => exact Or.inl ((kind_eq_some_iff wellFormed.distinct).2 isGate)
  | vacuous isGate _ => exact Or.inr ((kind_eq_some_iff wellFormed.distinct).2 isGate)
  | disjunction isGate _ _ => exact Or.inr ((kind_eq_some_iff wellFormed.distinct).2 isGate)

/-- The predicate of a signal imposes no constraint exactly if its node does not. -/
theorem isAlways_signal_iff
    (configuration : Configuration)
    {path : List NodeId}
    {signal : Signal}
    (unfolded : graph.signal path id = .ok signal) :
    (signal.predicate configuration).isAlways = true ↔ graph.Unconditional id := by
  refine unfolding_induction
    (motive := fun id signal =>
      (signal.predicate configuration).isAlways = true ↔ graph.Unconditional id)
    ?gated ?all ?any ?negation unfolded
  case gated =>
    intro id subject condition operand parents isCondition _ _
    rw [Signal.predicate, Predicate.isAlways_conjunction, List.all_cons, Test.isAlways_predicate]
    refine iff_of_false (by simp) fun unconditional => ?_
    rcases unconditional.kind wellFormed with isGate | isGate <;>
      cases isCondition.symm.trans isGate
  case all =>
    intro id inputs isGate each
    rw [Signal.predicate, Predicate.isAlways_conjunction, Signal.predicates_eq_map,
      List.all_map, List.all_eq_true, unconditional_iff_of_and wellFormed isGate]
    exact forall_input_iff each
  case any =>
    intro id inputs isGate each
    rw [Signal.predicate, Predicate.isAlways_disjunction, Signal.predicates_eq_map,
      Bool.or_eq_true, List.isEmpty_map, List.any_map, List.any_eq_true,
      unconditional_iff_of_or wellFormed isGate, isEmpty_inputs_iff each]
    exact or_congr_right (exists_input_iff each)
  case negation =>
    intro id parent input isGate _ _
    refine iff_of_false Bool.false_ne_true fun unconditional => ?_
    rcases unconditional.kind wellFormed with isOther | isOther <;>
      cases isGate.symm.trans isOther

/-- A disjunction keeps what its inputs read unless it collapses. -/
theorem series_any
    (configuration : Configuration)
    {path : List NodeId}
    (unfolded : graph.signal path id = .ok (.any inputs))
    (isGate : graph.kind? id = some (.gate .or)) :
    (graph.Collapses id ∧ ((Signal.any inputs).predicate configuration).series = []) ∨
      ¬ graph.Collapses id ∧ ((Signal.any inputs).predicate configuration).series =
        (Signal.predicates configuration inputs).flatMap Predicate.series := by
  have always := isAlways_signal_iff wellFormed configuration unfolded
  have isNode := (kind_eq_some_iff wellFormed.distinct).1 isGate
  rw [Signal.predicate, Predicate.isAlways_disjunction] at always
  rw [Signal.predicate, Predicate.series_disjunction]
  split
  next collapses => exact Or.inl ⟨⟨isNode, always.1 collapses⟩, rfl⟩
  next constrains =>
    exact Or.inr ⟨fun collapses => constrains (always.2 collapses.2), rfl⟩

theorem not_collapses_of_kind
    {kind : NodeKind}
    (isKind : graph.kind? id = some kind)
    (other : kind ≠ .gate .or) :
    ¬ graph.Collapses id := by
  rintro ⟨isNode, _⟩
  exact other (Option.some.inj
    (isKind.symm.trans ((kind_eq_some_iff wellFormed.distinct).2 isNode)))

/-- The predicate of a signal reads what the conditions do that are heard at its node. -/
theorem readsKey_signal_iff
    (configuration : Configuration)
    (key : String)
    {path : List NodeId}
    {signal : Signal}
    (unfolded : graph.signal path id = .ok signal) :
    (signal.predicate configuration).ReadsKey key ↔ graph.HearsKey configuration key id := by
  refine signal_induction
    (motive := fun id signal =>
      (signal.predicate configuration).ReadsKey key ↔ graph.HearsKey configuration key id)
    ?gated ?all ?any ?negation unfolded
  case gated =>
    intro path id subject condition operand parents _ isCondition found each
    have stays := not_collapses_of_kind wellFormed isCondition (by simp)
    have here : graph.States { node := id, subject, condition, operand } := ⟨isCondition, found⟩
    rw [Signal.predicate, Predicate.readsKey_conjunction_iff, List.exists_mem_cons_iff,
      readsKey_inputs_iff each, here.hearsKey_iff stays, Predicate.ReadsKey,
      mem_keys_iff_of_distinctSeries (Test.distinctSeries_predicate configuration _)]
  case all =>
    intro path id inputs _ isGate each
    have stays := not_collapses_of_kind wellFormed isGate (by simp)
    rw [Signal.predicate, Predicate.readsKey_conjunction_iff, readsKey_inputs_iff each,
      hearsKey_iff fun _ states => states.not_gate isGate, and_iff_left stays]
  case any =>
    intro path id inputs unfolded isGate each
    rw [hearsKey_iff fun _ states => states.not_gate isGate, ← readsKey_inputs_iff each]
    rcases series_any wellFormed configuration unfolded isGate with
      ⟨collapses, nothing⟩ | ⟨stays, everything⟩
    · rw [Predicate.ReadsKey, nothing]
      exact iff_of_false List.not_mem_nil fun hears => hears.2 collapses
    · rw [and_iff_left stays, Predicate.ReadsKey, everything, List.map_flatMap, List.mem_flatMap]
      rfl
  case negation =>
    intro path id parent input _ isGate single inner
    have stays := not_collapses_of_kind wellFormed isGate (by simp)
    have onlyFlow (source : NodeId) : graph.Flow source id ↔ source = parent := by
      rw [← mem_flowParents_iff, single, List.mem_singleton]
    rw [hearsKey_iff fun _ states => states.not_gate isGate, and_iff_left stays]
    simp only [onlyFlow, exists_eq_right]
    exact inner

/-- The rule of an action reads what is heard at its node. -/
theorem readsKey_rule_iff
    {node : Node}
    {action : PlannedAction}
    {rule : ActionRule}
    (isAction : node ∈ graph.actions)
    (isPlan : graph.PlansAction node action)
    (ruled : action.rule configuration = .ok rule)
    (key : String) :
    rule.predicate.ReadsKey key ↔ graph.HearsKey configuration key node.id := by
  obtain ⟨_, sizing, _, rfl⟩ := PlannedAction.rule_eq_ok_iff.1 ruled
  have isNode : ⟨node.id, node.kind⟩ ∈ graph.nodes := List.mem_of_mem_filter isAction
  have stays : ¬ graph.Collapses node.id := by
    refine not_collapses_of_kind wellFormed ((kind_eq_some_iff wellFormed.distinct).2 isNode) ?_
    rw [isPlan.kind]
    simp
  have each := isPlan.inputs.imp fun parent input unfolded =>
    readsKey_signal_iff wellFormed configuration key unfolded
  rw [Predicate.readsKey_conjunction_iff, readsKey_inputs_iff each,
    hearsKey_iff fun _ states => states.not_action wellFormed.distinct isAction,
    and_iff_left stays]

/-- The series that some conditions observe are those that their tests read. -/
theorem observesSeries_iff {conditions : NodeId -> Prop} {series : IndicatorSeries} :
    graph.ObservesSeries configuration conditions series ↔
      ∃ test, (graph.States test ∧ conditions test.node) ∧
        series ∈ test.reads configuration := by
  constructor
  · rintro ⟨id, line, given, condition, isNode, among, rfl⟩
    obtain ⟨test, states, observes⟩ :=
      (exists_observing_test_iff wellFormed).2 ⟨⟨condition, isNode⟩, among⟩
    exact ⟨test, states, (test.mem_reads_iff configuration _).2 ⟨id, _, observes, rfl⟩⟩
  · rintro ⟨test, states, reads⟩
    obtain ⟨id, subject, observes, found⟩ := (test.mem_reads_iff configuration series).1 reads
    obtain ⟨⟨condition, isNode⟩, among⟩ :=
      (exists_observing_test_iff wellFormed).1 ⟨test, states, observes⟩
    cases subject with
    | indicator line given =>
        exact ⟨id, line, given, condition, isNode, among, (Option.some.inj found).symm⟩
    | price column => cases found
    | value constant => cases found

/-- Where no indicator is swallowed, the predicate of a signal reads what its tests do, the
first series of each key. -/
theorem distinctSeries_signal
    (nothing : ∀ series, ¬ graph.Swallows configuration series)
    (feeds : graph.FeedsAction id)
    {path : List NodeId}
    {signal : Signal}
    (unfolded : graph.signal path id = .ok signal) :
    distinctSeries (signal.predicate configuration).series =
      distinctSeries (signal.tests.flatMap (Test.reads configuration)) := by
  refine signal_induction
    (motive := fun id signal => graph.FeedsAction id ->
      distinctSeries (signal.predicate configuration).series =
        distinctSeries (signal.tests.flatMap (Test.reads configuration)))
    ?gated ?all ?any ?negation unfolded feeds
  case gated =>
    intro path id subject condition operand parents _ _ _ each feeds
    rw [Signal.predicate, Predicate.series_conjunction, List.flatMap_cons, Signal.tests,
      List.flatMap_cons]
    exact distinctSeries_append_congr (Test.distinctSeries_predicate configuration _)
      (distinctSeries_inputs feeds each)
  case all =>
    intro path id inputs _ _ each feeds
    rw [Signal.predicate, Predicate.series_conjunction, Signal.tests]
    exact distinctSeries_inputs feeds each
  case any =>
    intro path id inputs unfolded isGate each feeds
    rcases series_any wellFormed configuration unfolded isGate with
      ⟨collapses, none⟩ | ⟨_, everything⟩
    · -- Whatever the tests of a collapsed gate read is swallowed, so they read nothing.
      have silent : (Signal.any inputs).tests.flatMap (Test.reads configuration) = [] := by
        refine List.eq_nil_iff_forall_not_mem.2 fun series listed => ?_
        obtain ⟨test, inside, reads⟩ := List.mem_flatMap.1 listed
        have states := (mem_tests_iff unfolded test).1 inside
        exact nothing series ⟨id, collapses, feeds,
          (observesSeries_iff wellFormed).2 ⟨test, states, reads⟩⟩
      rw [none, silent]
    · rw [everything, Signal.tests]
      exact distinctSeries_inputs feeds each
  case negation =>
    intro path id parent input _ _ single inner feeds
    have flow : graph.Flow parent id := mem_flowParents_iff.1 (single ▸ List.mem_singleton_self _)
    exact inner (feeds.of_flow flow)

end

end Graph
end StrategyGraph
