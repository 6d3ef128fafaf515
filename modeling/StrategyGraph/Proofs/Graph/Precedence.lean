import StrategyGraph.Proofs.Graph.WellFormed

/-!
# Which fault is reported

A graph is checked in stages, and an error says at which stage the graph was refused.
Roles and compare inputs are two stages of the documented order but are checked edge by
edge in one pass. So the error names the first stage that the graph fails, except when
a compare input is repeated in front of the first edge that its role does not allow.
-/

namespace StrategyGraph

/-- What a graph is checked for. -/
inductive Stage where
  | identities
  | actions
  | endpoints
  | roles
  | compareInputs
  | cycles
  | negations
  | parameters
  deriving DecidableEq, Repr

namespace Stage

/-- Place of a stage in the documented order. -/
def rank : Stage -> Nat
  | .identities => 0
  | .actions => 1
  | .endpoints => 2
  | .roles => 3
  | .compareInputs => 4
  | .cycles => 5
  | .negations => 6
  | .parameters => 7

theorem rank_injective : Function.Injective rank := by
  intro stage other same
  cases stage <;> cases other <;> first | rfl | cases same

end Stage

namespace GraphError

/-- The stage at which a graph is refused with an error. Unknown nodes are met by later
look-ups only, at no stage of the checks. -/
def stage? : GraphError -> Option Stage
  | .duplicateNode _ => some .identities
  | .noActionNodes => some .actions
  | .danglingEdge _ => some .endpoints
  | .invalidEdge _ _ => some .roles
  | .duplicateCompareInput _ => some .compareInputs
  | .cycleDetected _ => some .cycles
  | .notArity _ _ => some .negations
  | .invalidSizing _ _ | .invalidExit _ _ | .invalidParameter _ _ _ => some .parameters
  | .unknownNode _ => none

end GraphError

namespace Graph

/-- The nodes that an edge touches have the kinds that its role needs. -/
def Places (graph : Graph) (edge : Edge) : Prop :=
  (∀ node ∈ graph.nodes, node.isExit = true ->
    edge.source ≠ node.id ∧ edge.target ≠ node.id) ∧
  (edge.role = .flow ->
    ∀ node ∈ graph.nodes, node.isAction = true -> edge.source ≠ node.id) ∧
  (edge.role = .compareInput ->
    ∀ node ∈ graph.nodes, edge.source = node.id ∨ edge.target = node.id ->
      node.isCondition = true)

instance (graph : Graph) : DecidablePred graph.Places := fun _ =>
  inferInstanceAs (Decidable (_ ∧ _ ∧ _))

/-- What a graph has to satisfy to pass a stage, whatever it does at the others. -/
def Passes (graph : Graph) : Stage -> Prop
  | .identities => graph.nodeIds.Nodup
  | .actions => ∃ node ∈ graph.nodes, node.isAction = true
  | .endpoints => ∀ edge ∈ graph.edges,
      edge.source ∈ graph.nodeIds ∧ edge.target ∈ graph.nodeIds
  | .roles => ∀ edge ∈ graph.edges, graph.Places edge
  | .compareInputs => (compareTargets graph.edges).Nodup
  | .cycles => ∀ id, graph.FeedsAction id -> ¬ graph.OnFlowCycle id
  | .negations => ∀ node ∈ graph.nodes, node.kind = .gate .not ->
      (graph.edges.filter fun edge => edge.role = .flow ∧ edge.target = node.id).length = 1
  | .parameters => ∀ node ∈ graph.nodes, node.InRange

/-- A graph passes all stages before one. -/
def PassesBefore (graph : Graph) (stage : Stage) : Prop :=
  ∀ earlier : Stage, earlier.rank < stage.rank -> graph.Passes earlier

/-- The edges in front of the first one that its role does not allow. -/
def leadingEdges (graph : Graph) : List Edge :=
  graph.edges.takeWhile fun edge => graph.Places edge

/-- Identities, actions and end points are in order, but some edge is not allowed, and a
compare input is repeated in front of the first such edge. -/
structure Overtaken (graph : Graph) : Prop where
  identities : graph.Passes .identities
  actions : graph.Passes .actions
  endpoints : graph.Passes .endpoints
  misplaced : ¬ graph.Passes .roles
  repeated : ¬ (compareTargets graph.leadingEdges).Nodup

/-- How the stage that an error names is related to what the graph fails. -/
structure NamesFailure (graph : Graph) (error : GraphError) (stage : Stage) : Prop where
  named : error.stage? = some stage
  /-- The graph is at fault at that stage. -/
  fails : ¬ graph.Passes stage
  /-- It is the first such stage, unless a repeated compare input has overtaken it. -/
  first : graph.PassesBefore stage ↔ ¬ graph.Overtaken
  /-- Then the repetition is what is named. -/
  overtaken : graph.Overtaken -> stage = .compareInputs

variable {graph : Graph} {error : GraphError}

/-! ## Errors of single checks -/

theorem stage_of_checkIdentities (failed : graph.checkIdentities = .error error) :
    error.stage? = some .identities := by
  unfold checkIdentities at failed
  split at failed
  next id _ =>
    cases failed
    rfl
  next => cases failed

theorem stage_of_checkActions (failed : graph.checkActions = .error error) :
    error.stage? = some .actions := by
  unfold checkActions at failed
  split at failed
  next => cases failed
  next =>
    cases failed
    rfl

theorem stage_of_checkEndpoints (failed : graph.checkEndpoints = .error error) :
    error.stage? = some .endpoints := by
  obtain ⟨edge, _, dangles⟩ := Outcome.exists_error_of_forM failed
  split at dangles
  next => cases dangles
  next =>
    cases dangles
    rfl

theorem stage_of_checkCycles (failed : graph.checkCycles = .error error) :
    error.stage? = some .cycles := by
  unfold checkCycles at failed
  split at failed
  next => cases failed
  next =>
    cases failed
    rfl

theorem stage_of_checkNegations (failed : graph.checkNegations = .error error) :
    error.stage? = some .negations := by
  obtain ⟨node, _, refused⟩ := Outcome.exists_error_of_forM failed
  split at refused
  next =>
    dsimp only at refused
    split at refused
    next => cases refused
    next =>
      cases refused
      rfl
  next => cases refused

theorem stage_of_checkCondition
    {condition : Condition}
    {node : NodeId}
    (failed : condition.check node = .error error) :
    error.stage? = some .parameters := by
  unfold Condition.check at failed
  grind [GraphError.stage?]

theorem stage_of_checkSubject
    {subject : Subject}
    {node : NodeId}
    (failed : subject.check node = .error error) :
    error.stage? = some .parameters := by
  unfold Subject.check at failed
  grind [GraphError.stage?]

theorem stage_of_checkNodes (failed : graph.checkNodes = .error error) :
    error.stage? = some .parameters := by
  obtain ⟨node, _, refused⟩ := Outcome.exists_error_of_forM failed
  unfold Node.check at refused
  split at refused
  next subject condition _ =>
    rcases Outcome.bind_eq_error_iff.1 refused with ofCondition | ⟨_, _, ofSubject⟩
    · exact stage_of_checkCondition ofCondition
    · exact stage_of_checkSubject ofSubject
  next => cases refused
  next =>
    split at refused
    next =>
      cases refused
      rfl
    next => cases refused
  next =>
    split at refused
    next =>
      cases refused
      rfl
    next => cases refused

/-- The edges in front of the one that is refused pass on their own, and that edge is not
allowed or repeats a compare input. -/
theorem exists_refused_edge
    {compared : List NodeId}
    {edges : List Edge}
    (ends : ∀ edge ∈ edges, edge.source ∈ graph.nodeIds ∧ edge.target ∈ graph.nodeIds)
    (failed : graph.checkEdges compared edges = .error error) :
    ∃ before edge after, edges = before ++ edge :: after ∧
      graph.checkEdges compared before = .ok () ∧
      (¬ graph.AllowsEdge edge ∧ (∃ fault, error = .invalidEdge edge.id fault) ∨
        graph.AllowsEdge edge ∧ edge.role = .compareInput ∧
          (edge.target ∈ compared ∨ edge.target ∈ compareTargets before) ∧
          error = .duplicateCompareInput edge.target) := by
  induction edges generalizing compared with
  | nil => cases failed
  | cons edge edges hypothesis =>
      obtain ⟨here, later⟩ := List.forall_mem_cons.1 ends
      obtain ⟨source, sourceFound⟩ := Option.isSome_iff_exists.1 (isSome_node_iff.2 here.1)
      obtain ⟨target, targetFound⟩ := Option.isSome_iff_exists.1 (isSome_node_iff.2 here.2)
      rw [checkEdges, sourceFound, targetFound] at failed
      dsimp only at failed
      split at failed
      next fault faulty =>
        have forbidden : ¬ graph.AllowsEdge edge := by
          rintro ⟨_, _, isSource, isTarget, faultless⟩
          cases isSource.symm.trans sourceFound
          cases isTarget.symm.trans targetFound
          cases faulty.symm.trans faultless
        cases failed
        exact ⟨[], edge, edges, rfl, rfl, Or.inl ⟨forbidden, fault, rfl⟩⟩
      next faultless =>
        have allowed : graph.AllowsEdge edge :=
          ⟨source, target, sourceFound, targetFound, faultless⟩
        split at failed
        next flows =>
          obtain ⟨before, refused, after, rfl, passed, why⟩ := hypothesis later failed
          refine ⟨edge :: before, refused, after, rfl, ?_, ?_⟩
          · exact checkEdges_cons_eq_ok_iff.2 ⟨allowed, Or.inl ⟨flows, passed⟩⟩
          · rwa [compareTargets_of_flow flows]
        next compares =>
          split at failed
          next again =>
            cases failed
            exact ⟨[], edge, edges, rfl, rfl,
              Or.inr ⟨allowed, compares, Or.inl again, rfl⟩⟩
          next fresh =>
            obtain ⟨before, refused, after, rfl, passed, why⟩ := hypothesis later failed
            refine ⟨edge :: before, refused, after, rfl, ?_, why.imp_right ?_⟩
            · exact checkEdges_cons_eq_ok_iff.2
                ⟨allowed, Or.inr ⟨compares, fresh, passed⟩⟩
            · rintro ⟨isAllowed, alsoCompares, seen, equal⟩
              refine ⟨isAllowed, alsoCompares, ?_, equal⟩
              rw [compareTargets_of_compare compares, List.mem_cons]
              rw [List.mem_cons] at seen
              tauto

/-! ## Precedence -/

/-- Behind edges that are allowed one that is not comes first. -/
theorem leadingEdges_of_misplaced
    {before after : List Edge}
    {edge : Edge}
    (edges : graph.edges = before ++ edge :: after)
    (placed : ∀ earlier ∈ before, graph.Places earlier)
    (misplaced : ¬ graph.Places edge) :
    graph.leadingEdges = before := by
  have all : ∀ earlier ∈ before, decide (graph.Places earlier) = true :=
    fun earlier member => decide_eq_true (placed earlier member)
  rw [leadingEdges, edges, List.takeWhile_append_of_pos all,
    List.takeWhile_cons_of_neg (by simpa using misplaced), List.append_nil]

/-- Edges that are allowed lead if nothing else stands before them. -/
theorem leadingEdges_of_placed
    {before after : List Edge}
    (edges : graph.edges = before ++ after)
    (placed : ∀ earlier ∈ before, graph.Places earlier) :
    ∃ further, graph.leadingEdges = before ++ further := by
  have all : ∀ earlier ∈ before, decide (graph.Places earlier) = true :=
    fun earlier member => decide_eq_true (placed earlier member)
  exact ⟨_, by rw [leadingEdges, edges, List.takeWhile_append_of_pos all]⟩

theorem compareTargets_append (before after : List Edge) :
    compareTargets (before ++ after) = compareTargets before ++ compareTargets after := by
  simp [compareTargets]

/-- Between nodes, edges are allowed exactly where their roles place them. -/
theorem allowsEdge_iff_places
    (identities : graph.Passes .identities)
    (endpoints : graph.Passes .endpoints)
    {edge : Edge}
    (member : edge ∈ graph.edges) :
    graph.AllowsEdge edge ↔ graph.Places edge :=
  allowsEdge_iff identities (endpoints edge member)

section

variable {stage following : Stage}

theorem passesBefore_identities : graph.PassesBefore .identities :=
  fun earlier before => absurd before (Nat.not_lt_zero earlier.rank)

theorem PassesBefore.next
    (before : graph.PassesBefore stage)
    (passes : graph.Passes stage)
    (follows : following.rank = stage.rank + 1) :
    graph.PassesBefore following := by
  intro earlier isBefore
  rw [follows] at isBefore
  rcases Nat.lt_succ_iff_lt_or_eq.1 isBefore with less | same
  · exact before earlier less
  · exact Stage.rank_injective same ▸ passes

/-- A failure at a stage is the first one if all stages before are passed. -/
theorem namesFailure_of_passesBefore
    (named : error.stage? = some stage)
    (fails : ¬ graph.Passes stage)
    (before : graph.PassesBefore stage)
    (inTurn : ¬ graph.Overtaken) :
    graph.NamesFailure error stage :=
  ⟨named, fails, iff_of_true before inTurn, fun overtaken => absurd overtaken inTurn⟩

/-- When checks fail, the first one names a failure or it has passed and the others fail. -/
theorem namesFailure_of_check
    {check : Except GraphError Value}
    {others : Value -> Except GraphError Result}
    (named : check = .error error -> error.stage? = some stage)
    (passed : (∃ value, check = .ok value) ↔ graph.Passes stage)
    (before : graph.PassesBefore stage)
    (inTurn : ¬ graph.Passes stage -> ¬ graph.Overtaken)
    (failed : (check >>= others) = .error error) :
    graph.NamesFailure error stage ∨
      graph.Passes stage ∧ ∃ value, check = .ok value ∧ others value = .error error := by
  rcases Outcome.bind_eq_error_iff.1 failed with refused | ⟨value, checked, later⟩
  · have fails : ¬ graph.Passes stage := fun passes => by
      obtain ⟨value, checked⟩ := passed.2 passes
      cases refused.symm.trans checked
    exact Or.inl (namesFailure_of_passesBefore (named refused) fails before (inTurn fails))
  · exact Or.inr ⟨passed.1 ⟨value, checked⟩, value, checked, later⟩

end

theorem checkNegations_eq_ok_iff_passes :
    graph.checkNegations = .ok () ↔ graph.Passes .negations := by
  rw [checkNegations_eq_ok_iff]
  simp only [Passes, flowParents_eq_map, List.length_map]

/-- The pass over the edges names the first failure unless a repeated compare input
overtakes an edge that is not allowed. -/
theorem exists_namesFailure_of_checkEdges
    (before : graph.PassesBefore .roles)
    (failed : graph.checkEdges [] graph.edges = .error error) :
    ∃ stage, graph.NamesFailure error stage := by
  have identities := before .identities (by decide)
  have endpoints := before .endpoints (by decide)
  obtain ⟨leading, edge, after, edges, passed, why⟩ := exists_refused_edge endpoints failed
  have isEdge : edge ∈ graph.edges := by simp [edges]
  obtain ⟨allowed, distinct, _⟩ := checkEdges_eq_ok_iff.1 passed
  have placed : ∀ earlier ∈ leading, graph.Places earlier := by
    intro earlier member
    have isEarlier : earlier ∈ graph.edges := by simp [edges, member]
    exact (allowsEdge_iff_places identities endpoints isEarlier).1 (allowed earlier member)
  have places := allowsEdge_iff_places identities endpoints isEdge
  rcases why with ⟨forbidden, fault, rfl⟩ | ⟨allowsEdge, compares, seen, rfl⟩
  · have misplaced : ¬ graph.Places edge := fun isPlaced => forbidden (places.2 isPlaced)
    refine ⟨.roles, namesFailure_of_passesBefore rfl
      (fun passes => misplaced (passes edge isEdge)) before fun overtaken => ?_⟩
    have repeated := overtaken.repeated
    rw [leadingEdges_of_misplaced edges placed misplaced] at repeated
    exact repeated distinct
  · have again : edge.target ∈ compareTargets leading := seen.resolve_left List.not_mem_nil
    have repeats (further : List Edge) :
        ¬ (compareTargets (leading ++ edge :: further)).Nodup := by
      rw [compareTargets_append, compareTargets_of_compare compares]
      intro once
      exact (List.nodup_append.1 once).2.2 _ again _ List.mem_cons_self rfl
    have overtakes (misplaced : ¬ graph.Passes .roles) : graph.Overtaken := by
      refine ⟨identities, before .actions (by decide), endpoints, misplaced, ?_⟩
      have placedToo : ∀ earlier ∈ leading ++ [edge], graph.Places earlier := by
        simpa [or_imp, forall_and] using ⟨placed, places.1 allowsEdge⟩
      have split : graph.edges = (leading ++ [edge]) ++ after := by simp [edges]
      obtain ⟨further, equal⟩ := leadingEdges_of_placed split placedToo
      rw [equal, List.append_assoc]
      exact repeats further
    have fails : ¬ graph.Passes .compareInputs := by
      rw [Passes, edges]
      exact repeats after
    refine ⟨.compareInputs, rfl, fails, ?_, fun _ => rfl⟩
    constructor
    · exact fun first overtaken => overtaken.misplaced (first .roles (by decide))
    · exact fun inTurn =>
        before.next (Classical.byContradiction fun misplaced => inTurn (overtakes misplaced)) rfl

/-- Validation fails with the error of its checks. -/
theorem validate_eq_error_iff : graph.validate = .error error ↔ graph.check = .error error := by
  unfold validate
  split
  next reachable checked => simp [checked]
  next other refused => simp [refused]

/-- The error of a refused graph names a stage that the graph fails. In the documented order
it is the first one that the graph fails, unless a compare input is repeated in front of an
edge that its role does not allow and nothing else comes first; then, and only then, the
repetition is named before its turn. -/
theorem refusal_names_failure (refused : graph.validate = .error error) :
    ∃ stage, graph.NamesFailure error stage := by
  have failed := validate_eq_error_iff.1 refused
  unfold check at failed
  rcases namesFailure_of_check stage_of_checkIdentities
      (Unique.exists_iff.trans checkIdentities_eq_ok_iff) passesBefore_identities
      (fun fails overtaken => fails overtaken.identities) failed with
    names | ⟨identities, _, _, failed⟩
  · exact ⟨_, names⟩
  have before : graph.PassesBefore .actions := passesBefore_identities.next identities rfl
  rcases namesFailure_of_check stage_of_checkActions
      (Unique.exists_iff.trans checkActions_eq_ok_iff) before
      (fun fails overtaken => fails overtaken.actions) failed with
    names | ⟨actions, _, _, failed⟩
  · exact ⟨_, names⟩
  have before : graph.PassesBefore .endpoints := before.next actions rfl
  rcases namesFailure_of_check stage_of_checkEndpoints
      (Unique.exists_iff.trans checkEndpoints_eq_ok_iff) before
      (fun fails overtaken => fails overtaken.endpoints) failed with
    names | ⟨endpoints, _, _, failed⟩
  · exact ⟨_, names⟩
  have before : graph.PassesBefore .roles := before.next endpoints rfl
  -- The stages of roles and compare inputs are one check, with an order of its own.
  rcases Outcome.check_then_eq_error_iff.1 failed with refusedEdge | ⟨edges, failed⟩
  · exact exists_namesFailure_of_checkEdges before refusedEdge
  obtain ⟨allowed, once, _⟩ := checkEdges_eq_ok_iff.1 edges
  have roles : graph.Passes .roles := fun edge member =>
    (allowsEdge_iff_places identities endpoints member).1 (allowed edge member)
  have inTurn : ¬ graph.Overtaken := fun overtaken => overtaken.misplaced roles
  have before : graph.PassesBefore .compareInputs := before.next roles rfl
  have before : graph.PassesBefore .cycles := before.next once rfl
  rcases namesFailure_of_check stage_of_checkCycles
      ((exists_congr fun _ => checkCycles_eq_ok_iff).trans
        (ancestors_ok_iff (flowFromNodes_of_endpoints endpoints)))
      before (fun _ => inTurn) failed with
    names | ⟨acyclic, _, _, failed⟩
  · exact ⟨_, names⟩
  have before : graph.PassesBefore .negations := before.next acyclic rfl
  rcases namesFailure_of_check stage_of_checkNegations
      (Unique.exists_iff.trans checkNegations_eq_ok_iff_passes) before
      (fun _ => inTurn) failed with
    names | ⟨negations, _, _, failed⟩
  · exact ⟨_, names⟩
  have before : graph.PassesBefore .parameters := before.next negations rfl
  rcases namesFailure_of_check stage_of_checkNodes
      (Unique.exists_iff.trans checkNodes_eq_ok_iff) before
      (fun _ => inTurn) failed with
    names | ⟨_, _, _, returned⟩
  · exact ⟨_, names⟩
  · cases returned

/-- A purchase beside three prices, of which two are compared with the third. -/
def comparedTwice (edges : List Edge) : Graph where
  nodes := [
    ⟨"open", .condition (.price .opening) ⟨.greater, some 1, 0, 0⟩⟩,
    ⟨"high", .condition (.price .high) ⟨.greater, some 1, 0, 0⟩⟩,
    ⟨"close", .condition (.price .close) ⟨.greater, some 1, 0, 0⟩⟩,
    ⟨"enter", .action .buy .allAvailable none⟩]
  edges := edges

/-- An edge that leaves the action in front of a repeated compare input. -/
def misplacedFirst : Graph :=
  comparedTwice [
    ⟨"3", "enter", "close", .flow⟩,
    ⟨"1", "open", "close", .compareInput⟩,
    ⟨"2", "high", "close", .compareInput⟩]

/-- The same edges with the repeated compare input in front. -/
def repeatedFirst : Graph :=
  comparedTwice [
    ⟨"1", "open", "close", .compareInput⟩,
    ⟨"2", "high", "close", .compareInput⟩,
    ⟨"3", "enter", "close", .flow⟩]

theorem refusal_names_failure_misplacedFirst :
    misplacedFirst.validate = .error (.invalidEdge "3" (.leavesAction "enter")) ∧
      misplacedFirst.NamesFailure (.invalidEdge "3" (.leavesAction "enter")) .roles := by
  have refused : misplacedFirst.validate = .error (.invalidEdge "3" (.leavesAction "enter")) :=
    validate_eq_error_iff.2 (by cbv)
  obtain ⟨stage, names⟩ := refusal_names_failure refused
  have isRoles : .roles = stage := Option.some.inj names.named
  exact ⟨refused, isRoles ▸ names⟩

/-- The repetition is named before its turn: all stages before that of the roles are passed,
that one is not, and still it is not the one that is named. -/
theorem repetition_named_before_its_turn :
    repeatedFirst.validate = .error (.duplicateCompareInput "close") ∧
      repeatedFirst.PassesBefore .roles ∧ ¬ repeatedFirst.Passes .roles := by
  refine ⟨validate_eq_error_iff.2 (by cbv), ?_, ?_⟩
  · have identities : repeatedFirst.nodeIds.Nodup := by decide
    have actions : ∃ node ∈ repeatedFirst.nodes, node.isAction = true := by decide
    have endpoints : ∀ edge ∈ repeatedFirst.edges,
        edge.source ∈ repeatedFirst.nodeIds ∧ edge.target ∈ repeatedFirst.nodeIds := by
      decide
    have beforeActions : repeatedFirst.PassesBefore .actions :=
      passesBefore_identities.next identities rfl
    have beforeEndpoints : repeatedFirst.PassesBefore .endpoints := beforeActions.next actions rfl
    exact beforeEndpoints.next endpoints rfl
  · have misplaced : ¬ ∀ edge ∈ repeatedFirst.edges, repeatedFirst.Places edge := by decide
    exact misplaced

end Graph
end StrategyGraph
