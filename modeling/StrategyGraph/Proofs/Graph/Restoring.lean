import StrategyGraph.Graph.Datum
import StrategyGraph.Proofs.Data.Restoring

/-!
# Graphs that are restored

The written form of a condition, a node, an edge and a graph is read back to what it was
written from. A node is one flat record, so its identity and the name of its kind are taken
out before the fields of that kind are read.
-/

namespace StrategyGraph

open Datum (Faithful Writable)

/-! ## Names -/

namespace Datum

theorem faithful_optionalNumber : Faithful (nullable? number?) (ofOption .number) :=
  faithful_number.nullable fun _ => nofun

theorem faithful_optionalCount : Faithful (nullable? count?) (ofOption ofNat) :=
  faithful_count.nullable fun _ => nofun

end Datum

section

variable {standing : Standing}

theorem Comparison.faithful : Faithful ofDatum? fun comparison => .text (name comparison) :=
  Datum.faithful_choice fun comparison => by cases comparison <;> rfl

theorem Column.faithful :
    Faithful (Datum.choice? standing ofKey?) fun column => .text (key column) :=
  Datum.faithful_choice ofKey?_key

theorem Indicator.faithful :
    Faithful (Datum.choice? standing ofName?) fun indicator => .text (name indicator) :=
  Datum.faithful_choice ofName?_name

theorem Gate.faithful :
    Faithful (Datum.choice? standing names.find?) fun gate => .text (name gate) :=
  Datum.faithful_choice fun gate => by cases gate <;> rfl

theorem Side.faithful :
    Faithful (Datum.choice? standing names.find?) fun side => .text (name side) :=
  Datum.faithful_choice fun side => by cases side <;> rfl

theorem SizingMode.faithful :
    Faithful (Datum.choice? standing names.find?) fun mode => .text (name mode) :=
  Datum.faithful_choice fun mode => by cases mode <;> rfl

theorem ExitKind.faithful :
    Faithful (Datum.choice? standing names.find?) fun kind => .text (name kind) :=
  Datum.faithful_choice fun kind => by cases kind <;> rfl

theorem ExitBasis.faithful :
    Faithful (Datum.choice? standing names.find?) fun basis => .text (name basis) :=
  Datum.faithful_choice fun basis => by cases basis <;> rfl

theorem EdgeRole.faithful :
    Faithful (Datum.choice? standing names.find?) fun role => .text (name role) :=
  Datum.faithful_choice fun role => by cases role <;> rfl

end

/-! ## Conditions -/

namespace Condition

theorem restores
    {condition : Condition}
    {depth : Nat}
    (writable : Writable depth condition.toDatum) :
    ofDatum? condition.toDatum = some condition := by
  rw [toDatum] at writable ⊢
  cases writable with
  | record each =>
      simp only [List.forall_mem_cons, List.not_mem_nil, false_implies, implies_true,
        and_true] at each
      obtain ⟨comparison, compareValue, offset, lookback⟩ := each
      have readsComparison := Comparison.faithful.restores comparison
      have readsCompareValue := Datum.faithful_optionalNumber.restores compareValue
      have readsOffset := Datum.faithful_count.restores offset
      have readsLookback := Datum.faithful_count.restores lookback
      simp [ofDatum?, Datum.structure?_record, readsComparison, readsCompareValue, readsOffset,
        readsLookback]

end Condition

/-! ## Nodes -/

namespace NodeKind

/-- Name that a kind of node has in written graphs. -/
def tag : NodeKind -> NodeTag
  | .condition (.price _) _ => .price
  | .condition (.indicator _ _) _ => .indicator
  | .condition (.value _) _ => .value
  | .gate _ => .logic
  | .action _ _ _ => .action
  | .exit _ _ _ _ => .exit

/-- The fields behind the name of a kind of node are read back. -/
theorem restores
    {kind : NodeKind}
    {depth : Nat}
    (writable : ∀ member ∈ kind.toMembers, Writable depth member.2) :
    ofFields? kind.tag (.named kind.toMembers.tail) = some kind := by
  cases kind with
  | condition subject condition =>
      cases subject with
      | price column =>
          simp only [toMembers, List.forall_mem_cons] at writable
          obtain ⟨_, field, test, _⟩ := writable
          have readsField : Datum.choice? .inner Column.ofKey? (.text column.key) = some column :=
            Column.faithful.restores field
          have readsCondition := Condition.restores test
          simp [toMembers, tag, ofFields?, Datum.fields?_named, readsField, readsCondition]
      | indicator line parameters =>
          simp only [toMembers, List.forall_mem_cons] at writable
          obtain ⟨_, name, params, test, _⟩ := writable
          have readsName : Datum.choice? .inner Indicator.ofName? (.text line.name) = some line :=
            Indicator.faithful.restores name
          have readsParams := Datum.faithful_number.dictionary.restores params
          have readsCondition := Condition.restores test
          simp [toMembers, tag, ofFields?, Datum.fields?_named, readsName, readsParams,
            readsCondition]
      | value constant =>
          simp only [toMembers, List.forall_mem_cons] at writable
          obtain ⟨_, number, test, _⟩ := writable
          have readsNumber := Datum.faithful_number.restores number
          have readsCondition := Condition.restores test
          simp [toMembers, tag, ofFields?, Datum.fields?_named, readsNumber, readsCondition]
  | gate operator =>
      simp only [toMembers, List.forall_mem_cons] at writable
      obtain ⟨_, op, _⟩ := writable
      have readsOp : Datum.choice? .inner Gate.names.find? (.text operator.name) = some operator :=
        Gate.faithful.restores op
      simp [toMembers, tag, ofFields?, Datum.fields?_named, readsOp]
  | action side mode amount =>
      simp only [toMembers, List.forall_mem_cons] at writable
      obtain ⟨_, sideText, sizing, number, _⟩ := writable
      have readsSide : Datum.choice? .inner Side.names.find? (.text side.name) = some side :=
        Side.faithful.restores sideText
      have readsMode : Datum.choice? .inner SizingMode.names.find? (.text mode.name) = some mode :=
        SizingMode.faithful.restores sizing
      have readsAmount := Datum.faithful_optionalNumber.restores number
      simp [toMembers, tag, ofFields?, Datum.fields?_named, readsSide, readsMode, readsAmount]
  | exit kind basis magnitude atrPeriod =>
      simp only [toMembers, List.forall_mem_cons] at writable
      obtain ⟨_, exit, basisText, number, period, _⟩ := writable
      have readsKind : Datum.choice? .inner ExitKind.names.find? (.text kind.name) = some kind :=
        ExitKind.faithful.restores exit
      have readsBasis : Datum.choice? .inner ExitBasis.names.find? (.text basis.name) =
          some basis :=
        ExitBasis.faithful.restores basisText
      have readsMagnitude := Datum.faithful_number.restores number
      have readsPeriod := Datum.faithful_optionalCount.restores period
      simp [toMembers, tag, ofFields?, Datum.fields?_named, readsKind, readsBasis, readsMagnitude,
        readsPeriod]

end NodeKind

namespace Node

theorem restores
    {node : Node}
    {depth : Nat}
    (writable : Writable depth node.toDatum) :
    ofDatum? node.toDatum = some node := by
  have readable := writable.isReadable
  obtain ⟨id, kind⟩ := node
  cases writable with
  | record each =>
      have reads := NodeKind.restores (List.forall_mem_cons.1 each).2
      rw [ofDatum?, Datum.whole?, if_pos readable, toDatum]
      cases kind with
      | condition subject condition =>
          cases subject <;>
            simp only [NodeKind.toMembers, NodeKind.tag, List.tail_cons] at reads <;>
            simp [Fields.ofRecord?, NodeKind.toMembers, Datum.text?, NodeTag.names, reads]
      | _ =>
          simp only [NodeKind.toMembers, NodeKind.tag, List.tail_cons] at reads
          simp [Fields.ofRecord?, NodeKind.toMembers, Datum.text?, NodeTag.names, reads]

end Node

/-! ## Graphs -/

theorem Edge.faithful : Faithful Edge.ofDatum? Edge.toDatum := by
  refine ⟨fun {depth edge} writable => ?_, fun {depth datum edge} finite reads => ?_⟩
  · rw [toDatum] at writable ⊢
    cases writable with
    | record each =>
        simp only [List.forall_mem_cons] at each
        obtain ⟨_, _, _, role, _⟩ := each
        have readsRole : Datum.choice? .outer EdgeRole.names.find? (.text edge.role.name) =
            some edge.role :=
          EdgeRole.faithful.restores role
        simp [ofDatum?, Datum.structure?_record, Datum.text?, readsRole]
  · obtain ⟨inner, fields, rfl, _⟩ := Fields.slots_of_structure? finite reads
    exact .record (by simp [Writable.text])

theorem Graph.restores
    {graph : Graph}
    {depth : Nat}
    (writable : Writable depth graph.toDatum) :
    ofDatum? graph.toDatum = some graph := by
  rw [toDatum] at writable ⊢
  cases writable with
  | record each =>
      simp only [List.forall_mem_cons] at each
      obtain ⟨nodes, edges, _⟩ := each
      have readsNodes : Datum.listOf? Node.ofDatum? (.list (graph.nodes.map Node.toDatum)) =
          some graph.nodes := by
        cases nodes with
        | list each =>
            exact Datum.listOf?_map fun node member =>
              Node.restores (each _ (List.mem_map_of_mem member))
      have readsEdges := Edge.faithful.list.restores edges
      simp [ofDatum?, Datum.structure?_record, readsNodes, readsEdges]

end StrategyGraph
