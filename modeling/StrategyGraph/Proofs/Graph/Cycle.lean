import StrategyGraph.Proofs.Graph.WellFormed

/-!
# The cycle check

The check of a graph for cycles fails exactly when a node that feeds an action lies on a flow
cycle. If it fails, it names such a node. If it succeeds, it returns every node that feeds an
action once, however many branches share it: a search leaves alone the nodes that are
finished, and it never finishes a node of the path it stands on.
-/

namespace StrategyGraph
namespace Graph

variable {graph : Graph} {path finished found : List NodeId}

/-- What a search may add to the finished nodes: every node once, and no node of the path that
the search stands on. -/
structure Extends (path finished found : List NodeId) : Prop where
  distinct : finished.Nodup -> found.Nodup
  apart : ∀ id ∈ path, id ∉ finished -> id ∉ found

theorem Extends.refl : Extends path finished finished :=
  ⟨fun distinct => distinct, fun _ _ unfinished => unfinished⟩

theorem Extends.trans
    {between : List NodeId}
    (first : Extends path finished between)
    (rest : Extends path between found) :
    Extends path finished found :=
  ⟨fun distinct => rest.distinct (first.distinct distinct),
    fun id onPath unfinished => rest.apart id onPath (first.apart id onPath unfinished)⟩

/-- A node off the path is finished once the search has stood on it. -/
theorem Extends.cons
    {id : NodeId}
    (fresh : id ∉ finished)
    (offPath : id ∉ path)
    (extended : Extends (id :: path) finished found) :
    Extends path finished (id :: found) := by
  constructor
  · intro distinct
    apply List.Nodup.cons
    · exact extended.apart id List.mem_cons_self fresh
    · exact extended.distinct distinct
  · intro other onPath unfinished finishedNow
    rcases List.mem_cons.1 finishedNow with equal | before
    · exact offPath (equal ▸ onPath)
    · exact extended.apart other (List.mem_cons_of_mem id onPath) unfinished before

/-- Searches from several nodes extend the finished ones if each of them does. -/
theorem extends_of_foldlM
    {step : List NodeId -> NodeId -> Except NodeId (List NodeId)}
    {targets : List NodeId}
    (extend : ∀ target before after, step before target = .ok after -> Extends path before after)
    (folded : targets.foldlM step finished = .ok found) :
    Extends path finished found := by
  induction targets generalizing finished with
  | nil =>
      cases folded
      exact .refl
  | cons target targets hypothesis =>
      rw [List.foldlM_cons] at folded
      obtain ⟨between, stepped, remaining⟩ := Outcome.bind_eq_ok_iff.1 folded
      exact (extend target finished between stepped).trans (hypothesis remaining)

/-- The nodes of the path are those in progress: a search that succeeds has finished none of
them, and it finishes every other node once. -/
theorem extends_of_search
    {id : NodeId}
    (searched : graph.search path finished id = .ok found) :
    Extends path finished found := by
  induction path, finished, id using Graph.search.induct graph generalizing found with
  | case1 path finished id done =>
      rw [search, if_pos done] at searched
      cases searched
      exact .refl
  | case2 path finished id fresh onPath =>
      rw [search, if_neg fresh, dif_pos onPath] at searched
      cases searched
  | case3 path finished id fresh offPath isNode _ hypothesis =>
      rw [search, if_neg fresh, dif_neg offPath, dif_pos isNode] at searched
      obtain ⟨between, folded, equal⟩ := Outcome.bind_eq_ok_iff.1 searched
      cases equal
      apply Extends.cons fresh offPath
      apply extends_of_foldlM _ folded
      intro parent before after stepped
      exact hypothesis before parent stepped
  | case4 path finished id fresh offPath notNode =>
      rw [search, if_neg fresh, dif_neg offPath, dif_neg notNode] at searched
      cases searched
      exact .refl

/-- A node is found once, also if it feeds several actions or feeds one along several paths. -/
theorem nodup_of_ancestors
    {ancestors : List NodeId}
    (searched : graph.ancestors = .ok ancestors) :
    ancestors.Nodup := by
  rw [ancestors_eq_foldlM] at searched
  have extended : Extends [] [] ancestors :=
    extends_of_foldlM (fun _ _ _ stepped => extends_of_search stepped) searched
  exact extended.distinct List.nodup_nil

theorem checkCycles_eq_error_iff {error : GraphError} :
    graph.checkCycles = .error error ↔
      ∃ culprit, graph.ancestors = .error culprit ∧ .cycleDetected culprit = error := by
  unfold checkCycles
  cases graph.ancestors <;> simp

/-- Between edges that connect nodes the cycle check is exact: it succeeds if and only if no
node that feeds an action lies on a flow cycle. A failure names a node that lies on a flow
cycle and feeds an action; a success returns the nodes that feed an action, each once. -/
theorem cycle_check_exact
    (resolves : ∀ edge ∈ graph.edges,
      edge.source ∈ graph.nodeIds ∧ edge.target ∈ graph.nodeIds) :
    ((∃ ancestors, graph.checkCycles = .ok ancestors) ↔
      ∀ id, graph.FeedsAction id -> ¬ graph.OnFlowCycle id) ∧
    (∀ error, graph.checkCycles = .error error ->
      ∃ culprit, error = .cycleDetected culprit ∧
        graph.OnFlowCycle culprit ∧ graph.FeedsAction culprit) ∧
    ∀ ancestors, graph.checkCycles = .ok ancestors ->
      ancestors.Nodup ∧ ∀ id, id ∈ ancestors ↔ graph.FeedsAction id := by
  have inside := flowFromNodes_of_endpoints resolves
  refine ⟨?_, fun error failed => ?_, fun ancestors succeeded => ?_⟩
  · simp only [checkCycles_eq_ok_iff]
    exact ancestors_ok_iff inside
  · obtain ⟨culprit, searched, named⟩ := checkCycles_eq_error_iff.1 failed
    exact ⟨culprit, named.symm, feedsAction_of_ancestors searched⟩
  · have searched := checkCycles_eq_ok_iff.1 succeeded
    exact ⟨nodup_of_ancestors searched, (settled_ancestors inside searched).2⟩

/-- Two actions fed by one gate along parallel edges, a cycle apart from them, and a gate that
flows into itself. -/
def looping (loop : NodeId) : Graph where
  nodes := [
    ⟨"enter", .action .buy .allAvailable none⟩,
    ⟨"leave", .action .sell .allAvailable none⟩,
    ⟨"both", .gate .and⟩,
    ⟨"left", .gate .or⟩,
    ⟨"right", .gate .or⟩]
  edges := [
    ⟨"1", "both", "enter", .flow⟩,
    ⟨"2", "both", "enter", .flow⟩,
    ⟨"3", "both", "leave", .flow⟩,
    ⟨"4", "left", "right", .flow⟩,
    ⟨"5", "right", "left", .flow⟩,
    ⟨"6", loop, loop, .flow⟩]

theorem cycle_check_exact_looping :
    (looping "left").checkCycles = .ok ["leave", "enter", "both"] ∧
      ["leave", "enter", "both"].Nodup ∧
      (∀ id, (looping "left").FeedsAction id -> ¬ (looping "left").OnFlowCycle id) ∧
      (looping "both").checkCycles = .error (.cycleDetected "both") ∧
      (looping "both").OnFlowCycle "both" ∧ (looping "both").FeedsAction "both" := by
  have resolves : ∀ loop, loop = "left" ∨ loop = "both" -> ∀ edge ∈ (looping loop).edges,
      edge.source ∈ (looping loop).nodeIds ∧ edge.target ∈ (looping loop).nodeIds := by
    rintro loop (rfl | rfl)
    · decide
    · decide
  have succeeds : (looping "left").checkCycles = .ok ["leave", "enter", "both"] := by
    decide +kernel
  have fails : (looping "both").checkCycles = .error (.cycleDetected "both") := by
    decide +kernel
  obtain ⟨accepts, _, distinct⟩ := cycle_check_exact (resolves "left" (Or.inl rfl))
  obtain ⟨_, named, _⟩ := cycle_check_exact (resolves "both" (Or.inr rfl))
  obtain ⟨culprit, equal, cycle, feeds⟩ := named _ fails
  cases equal
  exact ⟨succeeds, (distinct _ succeeds).1, accepts.1 ⟨_, succeeds⟩, fails, cycle, feeds⟩

end Graph
end StrategyGraph
