import StrategyGraph.Proofs.Compile.Meaning
import StrategyGraph.Proofs.Compile.Tests

/-!
# Lookback windows

A condition with a window holds if its comparison does at one of the bars of the window.
Its predicate is compiled for a single bar all the same: shifts of the window are added to
the offsets of what it compares, so that the operand moves along with the subject.

The main result: such a predicate holds at a bar exactly when the predicate of the same
condition without a window holds at that bar or at one of the bars before it, as far as the
window and the data reach. Constants are not moved by a shift, but what they make true
behind the first bar is true at every bar.
-/

namespace StrategyGraph

section

variable [Quantity Value]
variable {configuration : Configuration} {set : SeriesSet Value} {bar shift : Nat}

/-! ## Shifted reading -/

/-- Looking further back from a bar is looking back from an earlier bar. -/
theorem SeriesSet.numberBack_add
    (set : SeriesSet Value)
    (key : String)
    (back : Nat)
    (reached : shift <= bar) :
    set.numberBack? key bar (back + shift) = set.numberBack? key (bar - shift) back := by
  have within : back + shift <= bar ↔ back <= bar - shift := by omega
  have same : bar - (back + shift) = bar - shift - back := by omega
  rw [numberBack?, numberBack?, same]
  simp only [within]

/-- A subject with a number behind the first bar has this number everywhere. -/
theorem Subject.numberBack_of_lt
    {subject : Subject}
    {back : Nat}
    {number : Value}
    (behind : bar < back)
    (found : subject.numberBack? configuration set bar back = some number)
    (otherBar otherBack : Nat) :
    subject.numberBack? configuration set otherBar otherBack = some number := by
  have nothing (key : String) : set.numberBack? key bar back = none :=
    if_neg (Nat.not_le_of_lt behind)
  cases subject with
  | value constant => exact found
  | price column => cases (nothing column.key).symm.trans found
  | indicator line parameters => cases (nothing _).symm.trans found

theorem Subject.value_expression_add
    (subject : Subject)
    (back : Nat)
    (reached : shift <= bar) :
    (subject.expression configuration (back + shift)).value? set bar =
      (subject.expression configuration back).value? set (bar - shift) := by
  rw [value_expression, value_expression]
  cases subject with
  | value constant => rfl
  | price column => exact set.numberBack_add column.key back reached
  | indicator line parameters => exact set.numberBack_add _ back reached

theorem Operand.value_expression_add
    (operand : Operand)
    (back : Nat)
    (reached : shift <= bar) :
    (operand.expression configuration (back + shift)).value? set bar =
      (operand.expression configuration back).value? set (bar - shift) := by
  cases operand with
  | source node subject => exact subject.value_expression_add back reached
  | literal constant => rfl
  | missing => rfl

theorem Subject.value_expression_of_lt
    {subject : Subject}
    {back : Nat}
    {number : Value}
    (behind : bar < back)
    (found : (subject.expression configuration back).value? set bar = some number)
    (otherBar otherBack : Nat) :
    (subject.expression configuration otherBack).value? set otherBar = some number := by
  rw [value_expression] at found ⊢
  exact numberBack_of_lt behind found otherBar otherBack

theorem Operand.value_expression_of_lt
    {operand : Operand}
    {back : Nat}
    {number : Value}
    (behind : bar < back)
    (found : (operand.expression configuration back).value? set bar = some number)
    (otherBar otherBack : Nat) :
    (operand.expression configuration otherBack).value? set otherBar = some number := by
  cases operand with
  | source node subject => exact Subject.value_expression_of_lt behind found otherBar otherBack
  | literal constant => exact found
  | missing => exact found

/-! ## Shifted comparisons -/

namespace Test

variable {test : Test}

theorem holds_relationAt_add
    (relation : Relation)
    (back : Nat)
    (reached : shift <= bar) :
    (test.relationAt configuration relation (back + shift)).holds set bar =
      (test.relationAt configuration relation back).holds set (bar - shift) := by
  rw [relationAt, relationAt, Predicate.holds, Predicate.holds, Predicate.compareHolds,
    Predicate.compareHolds, test.subject.value_expression_add back reached,
    test.operand.value_expression_add back reached]

/-- A relation that holds behind the first bar is one of constants and holds everywhere. -/
theorem holds_relationAt_of_lt
    {relation : Relation}
    {back : Nat}
    (behind : bar < back)
    (holds : (test.relationAt configuration relation back).holds set bar = true)
    (otherBar otherBack : Nat) :
    (test.relationAt configuration relation otherBack).holds set otherBar = true := by
  rw [relationAt, Predicate.holds, Predicate.compareHolds] at holds ⊢
  split at holds
  next left right isLeft isRight =>
    rw [Subject.value_expression_of_lt behind isLeft otherBar otherBack,
      Operand.value_expression_of_lt behind isRight otherBar otherBack]
    exact holds
  next => cases holds

/-- A shift that the data reach moves a comparison to an earlier bar, both bars of a
crossing alike. -/
theorem holds_comparisonAt_of_le (reached : shift <= bar) :
    (test.comparisonAt configuration shift).holds set bar =
      (test.comparisonAt configuration 0).holds set (bar - shift) := by
  have moved (relation : Relation) (back : Nat) :
      (test.relationAt configuration relation (back + shift)).holds set bar =
        (test.relationAt configuration relation back).holds set (bar - shift) :=
    holds_relationAt_add relation back reached
  have previous : test.condition.offset + shift + 1 = test.condition.offset + 1 + shift :=
    Nat.add_right_comm _ _ _
  unfold comparisonAt
  cases Relation.ofComparison? test.condition.comparison with
  | some relation => exact moved relation test.condition.offset
  | none => simp [previous, moved]

/-- A shift behind the first bar adds no truth of its own. -/
theorem holds_comparisonAt_of_lt
    (behind : bar < shift)
    (holds : (test.comparisonAt configuration shift).holds set bar = true) :
    (test.comparisonAt configuration 0).holds set bar = true := by
  have constant {relation : Relation} {back : Nat} (further : shift <= back)
      (holds : (test.relationAt configuration relation back).holds set bar = true)
      (otherBack : Nat) :
      (test.relationAt configuration relation otherBack).holds set bar = true :=
    holds_relationAt_of_lt (Nat.lt_of_lt_of_le behind further) holds bar otherBack
  unfold comparisonAt at holds ⊢
  cases plain : Relation.ofComparison? test.condition.comparison with
  | some relation =>
      rw [plain] at holds
      exact constant (Nat.le_add_left _ _) holds _
  | none =>
      rw [plain] at holds
      simp only [Predicate.holds_conjunction, List.all_cons, List.all_nil, Bool.and_true,
        Bool.and_eq_true] at holds ⊢
      exact ⟨constant (by omega) holds.1 _, constant (by omega) holds.2 _⟩

/-- The same test at a single bar. -/
def withoutWindow (test : Test) : Test :=
  { test with condition := { test.condition with lookback := 0 } }

theorem predicate_withoutWindow (test : Test) :
    test.withoutWindow.predicate configuration = test.comparisonAt configuration 0 := rfl

/-- A window looks at the bar itself and at those before it. -/
theorem holds_predicate_iff (window : 1 <= test.condition.lookback) :
    (test.predicate configuration).holds set bar = true ↔
      ∃ shift < test.condition.lookback, shift <= bar ∧
        (test.withoutWindow.predicate configuration).holds set (bar - shift) = true := by
  rw [holds_predicate_eq_any, Nat.max_eq_left window, List.any_eq_true]
  simp only [List.mem_range, predicate_withoutWindow]
  constructor
  · rintro ⟨shift, inWindow, holds⟩
    rcases Nat.lt_or_ge bar shift with behind | reached
    · exact ⟨0, window, Nat.zero_le bar, holds_comparisonAt_of_lt behind holds⟩
    · exact ⟨shift, inWindow, reached, (holds_comparisonAt_of_le reached).symm.trans holds⟩
  · rintro ⟨shift, inWindow, reached, holds⟩
    exact ⟨shift, inWindow, (holds_comparisonAt_of_le reached).trans holds⟩

end Test

end

/-! ## Windows in graphs -/

/-- The node with its condition at a single bar. -/
def Node.withoutWindow (node : Node) : Node :=
  match node.kind with
  | .condition subject condition =>
      { node with kind := .condition subject { condition with lookback := 0 } }
  | _ => node

namespace Graph

/-- The graph in which a node looks at a single bar. -/
def withoutWindow (graph : Graph) (id : NodeId) : Graph :=
  { graph with
    nodes := graph.nodes.map fun node => if node.id = id then node.withoutWindow else node }

variable {graph : Graph} {id : NodeId}

@[simp] theorem id_withoutWindow (node : Node) : node.withoutWindow.id = node.id := by
  unfold Node.withoutWindow
  split <;> rfl

@[simp] theorem subject_withoutWindow (node : Node) :
    node.withoutWindow.subject? = node.subject? := by
  unfold Node.withoutWindow
  split
  next subject condition kind => rw [Node.subject?, Node.subject?, kind]
  next => rfl

@[simp] theorem kindName_withoutWindow (node : Node) :
    node.withoutWindow.kindName = node.kindName := by
  unfold Node.withoutWindow
  split
  next subject condition kind => rw [Node.kindName, Node.kindName, kind]
  next => rfl

theorem node_withoutWindow (graph : Graph) (id other : NodeId) :
    (graph.withoutWindow id).node? other =
      (graph.node? other).map fun node =>
        if node.id = id then node.withoutWindow else node := by
  unfold node? withoutWindow
  rw [List.find?_map]
  refine congrArg _ (congrArg (graph.nodes.find? ·) (funext fun node => ?_))
  rw [Function.comp_apply]
  split <;> simp

/-- A window does not change how a node is refused. -/
theorem ofNode_withoutWindow (other : NodeId) (expected : String) :
    LookupFault.ofNode? other expected ((graph.withoutWindow id).node? other) =
      LookupFault.ofNode? other expected (graph.node? other) := by
  rw [node_withoutWindow]
  cases graph.node? other with
  | none => rfl
  | some node =>
      rw [Option.map_some, LookupFault.ofNode?, LookupFault.ofNode?]
      split <;> simp

theorem nodeIds_withoutWindow (graph : Graph) (id : NodeId) :
    (graph.withoutWindow id).nodeIds = graph.nodeIds := by
  unfold nodeIds withoutWindow
  rw [List.map_map]
  refine List.map_congr_left fun node _ => ?_
  rw [Function.comp_apply]
  split <;> simp

/-- The kind of every other node stays. -/
theorem kind_withoutWindow_of_ne {other : NodeId} (different : other ≠ id) :
    ((graph.withoutWindow id).node? other).map Node.kind =
      (graph.node? other).map Node.kind := by
  rw [node_withoutWindow, Option.map_map]
  refine Option.map_congr fun node found => ?_
  have named := (mem_of_node found).2
  rw [Function.comp_apply, if_neg fun same => different (named ▸ same)]

/-- Operands do not depend on windows. -/
theorem operand_withoutWindow (other : NodeId) (condition : Condition) :
    (graph.withoutWindow id).operand other condition = graph.operand other condition := by
  have subjects (source : NodeId) :
      ((graph.withoutWindow id).node? source).bind Node.subject? =
        (graph.node? source).bind Node.subject? := by
    rw [node_withoutWindow, Option.bind_map]
    refine Option.bind_congr fun node _ => ?_
    rw [Function.comp_apply]
    split <;> simp
  unfold operand
  simp only [subjects, ofNode_withoutWindow]
  rfl

/-- Along a path that has passed the node, other nodes send the same signals. -/
theorem signal_withoutWindow_of_mem
    {path : List NodeId}
    (passed : id ∈ path)
    (other : NodeId) :
    (graph.withoutWindow id).signal path other = graph.signal path other := by
  have sameIds := nodeIds_withoutWindow graph id
  -- The path only grows, so the node in which the graphs differ is not unfolded again.
  have differs {other : NodeId} {path : List NodeId} (passed : id ∈ path)
      (offPath : other ∉ path) : other ≠ id := fun same => offPath (same ▸ passed)
  induction path, other using Graph.signal.induct graph with
  | case1 path other met => rw [Graph.signal, Graph.signal, dif_pos met, dif_pos met]
  | case2 path other offPath isNode _ subject condition isCondition hypothesis =>
      have parents parent := hypothesis parent (List.mem_cons_of_mem other passed)
      rw [Graph.signal, Graph.signal, dif_neg offPath, dif_neg offPath, dif_pos isNode,
        dif_pos (sameIds ▸ isNode)]
      dsimp only
      rw [kind_withoutWindow_of_ne (differs passed offPath), isCondition]
      simp only [operand_withoutWindow, parents]
      rfl
  | case3 path other offPath isNode _ gate isGate hypothesis =>
      have parents parent := hypothesis parent (List.mem_cons_of_mem other passed)
      rw [Graph.signal, Graph.signal, dif_neg offPath, dif_neg offPath, dif_pos isNode,
        dif_pos (sameIds ▸ isNode)]
      dsimp only
      rw [kind_withoutWindow_of_ne (differs passed offPath), isGate]
      simp only [parents]
      rfl
  | case4 path other offPath isNode _ notCondition notGate =>
      rw [Graph.signal, Graph.signal, dif_neg offPath, dif_neg offPath, dif_pos isNode,
        dif_pos (sameIds ▸ isNode)]
      dsimp only
      rw [kind_withoutWindow_of_ne (differs passed offPath)]
      split
      next subject condition isCondition => exact (notCondition _ _ isCondition).elim
      next gate isGate => exact (notGate _ isGate).elim
      next => rw [ofNode_withoutWindow]
  | case5 path other offPath notNode =>
      rw [Graph.signal, Graph.signal, dif_neg offPath, dif_neg offPath, dif_neg notNode,
        dif_neg (sameIds ▸ notNode)]

/-- The node itself sends the same signal but for its window. -/
theorem signal_withoutWindow
    {subject : Subject}
    {condition : Condition}
    {signal : Signal}
    (kind : graph.kind? id = some (.condition subject condition))
    (unfolded : graph.signal [] id = .ok signal) :
    ∃ operand parents,
      signal = .gated { node := id, subject, condition, operand } parents ∧
        (graph.withoutWindow id).signal [] id =
          .ok (.gated (Test.withoutWindow { node := id, subject, condition, operand })
            parents) := by
  obtain ⟨operand, parents, found, related, shape⟩ := signal_of_condition kind unfolded
  refine ⟨operand, parents, shape, ?_⟩
  obtain ⟨node, isNode, isCondition⟩ := Option.map_eq_some_iff.1 kind
  have listed : id ∈ (graph.withoutWindow id).nodeIds := by
    rw [nodeIds_withoutWindow, ← isSome_node_iff, isNode, Option.isSome_some]
  have single : ((graph.withoutWindow id).node? id).map Node.kind =
      some (.condition subject { condition with lookback := 0 }) := by
    rw [node_withoutWindow, isNode, Option.map_some, if_pos (mem_of_node isNode).2,
      Option.map_some, Node.withoutWindow, isCondition]
  have operandSame : (graph.withoutWindow id).operand id { condition with lookback := 0 } =
      .ok operand := by
    rw [operand_withoutWindow, ← found]
    rfl
  have parentsSame : ((graph.withoutWindow id).flowParents id).mapM
      ((graph.withoutWindow id).signal [id]) = .ok parents := by
    rw [funext (signal_withoutWindow_of_mem (List.mem_singleton_self id))]
    exact Outcome.mapM_eq_ok_iff.2 related
  rw [Graph.signal, dif_neg List.not_mem_nil, dif_pos listed]
  dsimp only
  rw [single]
  dsimp only
  exact Outcome.bind_eq_ok_iff.2 ⟨operand, operandSame,
    Outcome.bind_eq_ok_iff.2 ⟨parents, parentsSame, rfl⟩⟩

/-- A lookback window is a shift in time. A condition of an accepted graph that feeds an
action states a test, and without its window the node states the same test of a single bar
with the same signals flowing in. With a window the test holds at a bar exactly when
without one it holds at that bar or at one before it that the window reaches. -/
theorem window_shifts_in_time
    [Quantity Value]
    {graph : Graph}
    {configuration : Configuration}
    {compilation : Compilation}
    (accepted : graph.compile configuration = .ok compilation)
    {id : NodeId}
    {subject : Subject}
    {condition : Condition}
    (isNode : ⟨id, .condition subject condition⟩ ∈ graph.nodes)
    (feeds : graph.FeedsAction id)
    (window : 1 <= condition.lookback) :
    ∃ test plain parents,
      graph.signal [] id = .ok (.gated test parents) ∧
      (graph.withoutWindow id).signal [] id = .ok (.gated plain parents) ∧
      test.condition = condition ∧
      plain.condition = { condition with lookback := 0 } ∧
      ∀ (set : SeriesSet Value) (bar : Nat),
        (test.predicate configuration).holds set bar = true ↔
          ∃ shift < condition.lookback, shift <= bar ∧
            (plain.predicate configuration).holds set (bar - shift) = true := by
  obtain ⟨reachable, valid, _⟩ := check_of_compile accepted
  have wellFormed := wellFormed_of_check valid
  have kind := (kind_eq_some_iff wellFormed.distinct).2 isNode
  have sends : ∃ target, graph.Flow id target := by
    obtain ⟨operand, states⟩ := exists_states wellFormed isNode
    obtain ⟨action, isAction, reaches⟩ := feeds
    rcases reaches.cases_head with same | ⟨target, flow, _⟩
    · exact absurd same (states.not_action wellFormed.distinct isAction)
    · exact ⟨target, flow⟩
  obtain ⟨signal, unfolded⟩ := wellFormed.exists_signal sends feeds
    fun later none => absurd none List.not_mem_nil
  obtain ⟨operand, parents, rfl, plain⟩ := signal_withoutWindow kind unfolded
  exact ⟨_, _, parents, unfolded, plain, rfl, rfl, fun set bar => Test.holds_predicate_iff window⟩

/-- Five bars on which the close rises above the open at the third one. -/
def risingOnce : SeriesSet Float :=
  ⟨[("close", #[9, 9, 12, 12, 12]), ("open", #[10, 10, 10, 10, 10])]⟩

theorem window_shifts_in_time_crossing :
    ∃ test plain parents,
      crossing.signal [] "cross" = .ok (.gated test parents) ∧
      (crossing.withoutWindow "cross").signal [] "cross" = .ok (.gated plain parents) ∧
      (plain.predicate .default).holds risingOnce 4 = false ∧
      (plain.predicate .default).holds risingOnce 3 = true ∧
      (test.predicate .default).holds risingOnce 4 = true := by
  obtain ⟨compilation, compiled⟩ := exists_compile_crossing
  have isNode : ⟨"cross", .condition (.price .close) ⟨.crossesAbove, none, 1, 2⟩⟩ ∈
      crossing.nodes := by
    decide
  have feeds : crossing.FeedsAction "cross" := by
    have toGate : crossing.Flow "cross" "either" := mem_flowParents_iff.1 (by decide)
    have toAction : crossing.Flow "either" "enter" := mem_flowParents_iff.1 (by decide)
    exact ⟨⟨"enter", .action .buy .allAvailable none⟩, by decide,
      toGate.reaches.trans toAction.reaches⟩
  obtain ⟨test, plain, parents, unfolded, single, _, _, shifts⟩ :=
    @window_shifts_in_time Float _ _ _ _ compiled _ _ _ isNode feeds (by decide)
  have plainFound : (crossing.withoutWindow "cross").signal [] "cross" =
      .ok (.gated ⟨"cross", .price .close, ⟨.crossesAbove, none, 1, 0⟩,
        .source "fall" (.price .opening)⟩ []) := by
    cbv
  cases single.symm.trans plainFound
  have now : (Test.predicate .default ⟨"cross", .price .close, ⟨.crossesAbove, none, 1, 0⟩,
      .source "fall" (.price .opening)⟩).holds risingOnce 4 = false := by
    decide +kernel
  have before : (Test.predicate .default ⟨"cross", .price .close, ⟨.crossesAbove, none, 1, 0⟩,
      .source "fall" (.price .opening)⟩).holds risingOnce 3 = true := by
    decide +kernel
  exact ⟨test, _, _, unfolded, single, now, before,
    (shifts risingOnce 4).2 ⟨1, by decide, by decide, before⟩⟩

end Graph
end StrategyGraph
