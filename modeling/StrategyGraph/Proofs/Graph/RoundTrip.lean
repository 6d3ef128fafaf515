import StrategyGraph.Proofs.Data.Json.Finite
import StrategyGraph.Proofs.Data.Json.Value
import StrategyGraph.Proofs.Graph.Restoring

/-!
# Round trips of graphs

A graph with finite numbers is read back from its JSON text, and every graph that is read
off a text, whichever way its numbers are rounded, has finite numbers. Settings that were
left out and names that stand for others are settled when a graph is read for the first
time: the text that is written of it names every setting.

Main result: `Graph.json_round_trip`.
-/

namespace StrategyGraph

open Datum (Writable)

namespace Condition

/-- The literal of a condition is finite. -/
def IsFinite (condition : Condition) : Prop :=
  ∀ value ∈ condition.compareValue, value.isFinite = true

/-- The counts of a condition are machine words. -/
def FitsWords (condition : Condition) : Prop :=
  condition.offset <= Binary64.largestCount ∧ condition.lookback <= Binary64.largestCount

end Condition

/-- The numbers that a subject is given with are finite. -/
def Subject.IsFinite : Subject -> Prop
  | .price _ => True
  | .indicator _ parameters => ∀ entry ∈ parameters.entries, entry.2.isFinite = true
  | .value constant => constant.isFinite = true

namespace NodeKind

/-- The numbers of a kind of node are finite. -/
def IsFinite : NodeKind -> Prop
  | .condition subject test => subject.IsFinite ∧ test.IsFinite
  | .gate _ => True
  | .action _ _ amount => ∀ value ∈ amount, value.isFinite = true
  | .exit _ _ magnitude _ => magnitude.isFinite = true

/-- The counts of a kind of node are machine words. -/
def FitsWords : NodeKind -> Prop
  | .condition _ test => test.FitsWords
  | .exit _ _ _ atrPeriod => ∀ period ∈ atrPeriod, period <= Binary64.largestCount
  | _ => True

end NodeKind

namespace Graph

/-- The numbers of a graph are finite. -/
def IsFinite (graph : Graph) : Prop :=
  ∀ node ∈ graph.nodes, node.kind.IsFinite

/-- The counts of a graph are machine words. -/
def FitsWords (graph : Graph) : Prop :=
  ∀ node ∈ graph.nodes, node.kind.FitsWords

end Graph

/-! ## Finite graphs are written without loss -/

theorem Condition.writable
    {condition : Condition}
    (finite : condition.IsFinite)
    (fits : condition.FitsWords) :
    Writable 1 condition.toDatum := by
  refine .record ?_
  simp only [List.forall_mem_cons, Datum.writable_ofOption_iff, Datum.writable_number_iff,
    Datum.writable_ofNat_iff]
  exact ⟨.text, finite, fits.1, fits.2, List.forall_mem_nil _⟩

theorem Node.writable
    {node : Node}
    (finite : node.kind.IsFinite)
    (fits : node.kind.FitsWords) :
    Writable 3 node.toDatum := by
  refine .record (List.forall_mem_cons.2 ⟨.text, ?_⟩)
  obtain ⟨id, kind⟩ := node
  cases kind with
  | condition subject condition =>
      have written : Writable 2 condition.toDatum :=
        (Condition.writable finite.2 fits).of_nesting_le
          ((Condition.writable finite.2 fits).nesting_le.trans (by decide))
      cases subject with
      | price column => simp [NodeKind.toMembers, Writable.text, written]
      | indicator line parameters =>
          have values := finite.1
          simp only [Subject.IsFinite] at values
          simpa [NodeKind.toMembers, Writable.text, written] using values
      | value constant =>
          have value := finite.1
          simp only [Subject.IsFinite] at value
          simp [NodeKind.toMembers, Writable.text, written, value]
  | gate operator => simp [NodeKind.toMembers, Writable.text]
  | action side mode amount =>
      simp only [NodeKind.IsFinite] at finite
      simpa [NodeKind.toMembers, Writable.text] using finite
  | exit kind basis magnitude atrPeriod =>
      simp only [NodeKind.IsFinite] at finite
      simp only [NodeKind.FitsWords] at fits
      simpa [NodeKind.toMembers, Writable.text, finite] using fits

namespace Graph

theorem writable
    {graph : Graph}
    (finite : graph.IsFinite)
    (fits : graph.FitsWords) :
    Writable 5 graph.toDatum := by
  have edges : ∀ edge : Edge, Writable 3 edge.toDatum := fun edge =>
    .record (by simp [Writable.text])
  refine .record ?_
  simp only [List.forall_mem_cons]
  refine ⟨.list ?_, .list ?_, List.forall_mem_nil _⟩
  · intro item member
    obtain ⟨node, listed, rfl⟩ := List.mem_map.1 member
    exact Node.writable (finite node listed) (fits node listed)
  · intro item member
    obtain ⟨edge, _, rfl⟩ := List.mem_map.1 member
    exact edges edge

/-- The text of a graph with finite numbers stands for its written form. -/
theorem parse_toJson
    {graph : Graph}
    (finite : graph.IsFinite)
    (fits : graph.FitsWords) :
    Json.parse .nearest graph.toJson = some graph.toDatum := by
  have written := writable finite fits
  have levels : 5 <= Json.deepest := by decide
  have shallow := written.of_nesting_le (written.nesting_le.trans levels)
  rw [toJson, Json.parse_compact written, shallow.truncate_eq]

/-- A graph with finite numbers is read back from its text. -/
theorem ofJson?_toJson
    {graph : Graph}
    (finite : graph.IsFinite)
    (fits : graph.FitsWords) :
    ofJson? .nearest graph.toJson = some graph := by
  rw [ofJson?, parse_toJson finite fits, Option.bind_some, restores (writable finite fits)]

end Graph

/-! ## Graphs that are read are finite -/

variable {depth : Nat} {datum : Datum}

theorem Condition.isFinite_of_ofDatum?
    {condition : Condition}
    (finite : datum.Finite depth)
    (reads : ofDatum? datum = some condition) :
    condition.IsFinite ∧ condition.FitsWords := by
  obtain ⟨inner, fields, rfl, isFinite, reads⟩ := Fields.slots_of_structure? finite reads
  obtain ⟨comparison, _, reads⟩ := Option.bind_eq_some_iff.1 reads
  obtain ⟨compareValue, readsCompareValue, reads⟩ := Option.bind_eq_some_iff.1 reads
  obtain ⟨offset, readsOffset, reads⟩ := Option.bind_eq_some_iff.1 reads
  obtain ⟨lookback, readsLookback, reads⟩ := Option.bind_eq_some_iff.1 reads
  cases reads
  have value := Fields.Finite.writable_optional Datum.faithful_optionalNumber isFinite .null
    readsCompareValue
  have back := Fields.Finite.writable_optional Datum.faithful_count isFinite
    (Datum.writable_ofNat_iff.2 (Nat.zero_le _)) readsOffset
  have window := Fields.Finite.writable_optional Datum.faithful_count isFinite
    (Datum.writable_ofNat_iff.2 (Nat.zero_le _)) readsLookback
  simp only [Datum.writable_ofOption_iff, Datum.writable_number_iff,
    Datum.writable_ofNat_iff] at value back window
  exact ⟨value, back, window⟩

theorem Condition.isFinite_default : default.IsFinite ∧ default.FitsWords :=
  ⟨nofun, Nat.zero_le _, Nat.zero_le _⟩

/-- The condition of a node is finite, given or filled in. -/
theorem Condition.isFinite_of_slot
    {fields : Fields}
    {layout : List String}
    {condition : Condition}
    (finite : fields.Finite depth)
    (reads : (fields.slot layout "condition").optional .default ofDatum? = some condition) :
    condition.IsFinite ∧ condition.FitsWords := by
  rcases finite.cases_of_optional reads with rfl | ⟨datum, isFinite, found⟩
  · exact Condition.isFinite_default
  · exact Condition.isFinite_of_ofDatum? isFinite found

theorem NodeKind.isFinite_of_ofFields?
    {tag : NodeTag}
    {fields : Fields}
    {kind : NodeKind}
    (finite : fields.Finite depth)
    (reads : ofFields? tag fields = some kind) :
    kind.IsFinite ∧ kind.FitsWords := by
  cases tag with
  | price =>
      rw [ofFields?] at reads
      replace reads := Fields.slots_of_fields? reads
      obtain ⟨column, _, reads⟩ := Option.bind_eq_some_iff.1 reads
      obtain ⟨test, readsTest, reads⟩ := Option.bind_eq_some_iff.1 reads
      cases reads
      obtain ⟨isFinite, fits⟩ := Condition.isFinite_of_slot finite readsTest
      exact ⟨⟨trivial, isFinite⟩, fits⟩
  | indicator =>
      rw [ofFields?] at reads
      replace reads := Fields.slots_of_fields? reads
      obtain ⟨line, _, reads⟩ := Option.bind_eq_some_iff.1 reads
      obtain ⟨parameters, readsParameters, reads⟩ := Option.bind_eq_some_iff.1 reads
      obtain ⟨test, readsTest, reads⟩ := Option.bind_eq_some_iff.1 reads
      cases reads
      obtain ⟨isFinite, fits⟩ := Condition.isFinite_of_slot finite readsTest
      refine ⟨⟨?_, isFinite⟩, fits⟩
      rcases finite.cases_of_optional readsParameters with rfl | ⟨datum, isGiven, found⟩
      · exact fun entry member => absurd member List.not_mem_nil
      · have written := Datum.faithful_number.dictionary.retains isGiven found
        cases written with
        | record each =>
            intro entry member
            exact Datum.writable_number_iff.1 (each _ (List.mem_map_of_mem member))
  | value =>
      rw [ofFields?] at reads
      replace reads := Fields.slots_of_fields? reads
      obtain ⟨constant, readsConstant, reads⟩ := Option.bind_eq_some_iff.1 reads
      obtain ⟨test, readsTest, reads⟩ := Option.bind_eq_some_iff.1 reads
      cases reads
      obtain ⟨isFinite, fits⟩ := Condition.isFinite_of_slot finite readsTest
      have value := Fields.Finite.writable_required Datum.faithful_number finite readsConstant
      exact ⟨⟨Datum.writable_number_iff.1 value, isFinite⟩, fits⟩
  | logic =>
      rw [ofFields?] at reads
      replace reads := Fields.slots_of_fields? reads
      obtain ⟨gate, _, reads⟩ := Option.bind_eq_some_iff.1 reads
      cases reads
      exact ⟨trivial, trivial⟩
  | action =>
      rw [ofFields?] at reads
      replace reads := Fields.slots_of_fields? reads
      obtain ⟨side, _, reads⟩ := Option.bind_eq_some_iff.1 reads
      obtain ⟨mode, _, reads⟩ := Option.bind_eq_some_iff.1 reads
      obtain ⟨amount, readsAmount, reads⟩ := Option.bind_eq_some_iff.1 reads
      cases reads
      have value := Fields.Finite.writable_optional Datum.faithful_optionalNumber finite .null
        readsAmount
      simp only [Datum.writable_ofOption_iff, Datum.writable_number_iff] at value
      exact ⟨value, trivial⟩
  | exit =>
      rw [ofFields?] at reads
      replace reads := Fields.slots_of_fields? reads
      obtain ⟨kind, _, reads⟩ := Option.bind_eq_some_iff.1 reads
      obtain ⟨basis, _, reads⟩ := Option.bind_eq_some_iff.1 reads
      obtain ⟨magnitude, readsMagnitude, reads⟩ := Option.bind_eq_some_iff.1 reads
      obtain ⟨atrPeriod, readsPeriod, reads⟩ := Option.bind_eq_some_iff.1 reads
      cases reads
      have value := Fields.Finite.writable_required Datum.faithful_number finite readsMagnitude
      have period := Fields.Finite.writable_optional Datum.faithful_optionalCount finite .null
        readsPeriod
      simp only [Datum.writable_ofOption_iff, Datum.writable_ofNat_iff] at period
      exact ⟨Datum.writable_number_iff.1 value, period⟩

theorem Node.isFinite_of_ofDatum?
    {node : Node}
    (finite : datum.Finite depth)
    (reads : ofDatum? datum = some node) :
    node.kind.IsFinite ∧ node.kind.FitsWords := by
  rw [ofDatum?, Datum.whole?] at reads
  split at reads
  next =>
    obtain ⟨fields, isRecord, reads⟩ := Option.bind_eq_some_iff.1 reads
    obtain ⟨⟨idDatum, kindFields⟩, taggedId, reads⟩ := Option.bind_eq_some_iff.1 reads
    obtain ⟨id, _, reads⟩ := Option.bind_eq_some_iff.1 reads
    obtain ⟨⟨tagDatum, remaining⟩, taggedKind, reads⟩ := Option.bind_eq_some_iff.1 reads
    obtain ⟨tag, _, reads⟩ := Option.bind_eq_some_iff.1 reads
    obtain ⟨kind, readsKind, reads⟩ := Option.bind_eq_some_iff.1 reads
    cases reads
    obtain ⟨inner, rfl, isFinite⟩ := Fields.finite_of_ofRecord? finite isRecord
    exact NodeKind.isFinite_of_ofFields? ((isFinite.tagged taggedId).tagged taggedKind) readsKind
  next => cases reads

namespace Graph

theorem isFinite_of_ofDatum?
    {graph : Graph}
    (finite : datum.Finite depth)
    (reads : ofDatum? datum = some graph) :
    graph.IsFinite ∧ graph.FitsWords := by
  obtain ⟨inner, fields, rfl, isFinite, reads⟩ := Fields.slots_of_structure? finite reads
  obtain ⟨nodes, readsNodes, reads⟩ := Option.bind_eq_some_iff.1 reads
  obtain ⟨edges, _, reads⟩ := Option.bind_eq_some_iff.1 reads
  cases reads
  obtain ⟨datum, isGiven, found⟩ := isFinite.exists_of_required readsNodes
  obtain ⟨inner, rfl, sources⟩ := Datum.exists_of_listOf? isGiven found
  have each : ∀ node ∈ nodes, node.kind.IsFinite ∧ node.kind.FitsWords := by
    intro node member
    obtain ⟨source, isSource, read⟩ := sources node member
    exact Node.isFinite_of_ofDatum? isSource read
  exact ⟨fun node member => (each node member).1, fun node member => (each node member).2⟩

/-- Graphs that are read have finite numbers. -/
theorem isFinite_of_ofJson?
    {rounding : Rounding}
    {text : String}
    {graph : Graph}
    (reads : ofJson? rounding text = some graph) :
    graph.IsFinite ∧ graph.FitsWords := by
  obtain ⟨datum, parsed, found⟩ := Option.bind_eq_some_iff.1 reads
  exact isFinite_of_ofDatum? (Json.finite_parse parsed) found

end Graph

/-! ## What is written -/

/-- Names of the members of a record, in their order. -/
def Datum.memberNames : Datum -> List String
  | .record members => members.map Prod.fst
  | _ => []

/-- The record of a condition names every setting, and the comparison by the first of its
names. -/
def Condition.NamesComparison (condition : Condition) : Prop :=
  condition.toDatum.memberNames = layout ∧
    ∃ rest, condition.toDatum =
      .record (("comparison", .text condition.comparison.name) :: rest) ∧
        List.find? (fun entry => entry.2 == condition.comparison) Comparison.names =
          some (condition.comparison.name, condition.comparison)

/-- Names of all fields of a kind of node. -/
def NodeTag.fieldNames : NodeTag -> List String
  | .price => ["field", "condition"]
  | .indicator => ["indicator", "params", "condition"]
  | .value => ["value", "condition"]
  | .logic => ["op"]
  | .action => ["side", "sizing", "amount"]
  | .exit => ["exit", "basis", "magnitude", "atr_period"]

/-- The written form of a graph leaves nothing to be filled in: every record names all of
its fields, and comparisons go by their first name. -/
structure Graph.WrittenInFull (graph : Graph) : Prop where
  whole : graph.toDatum.memberNames = ["nodes", "edges"]
  nodes : ∀ node ∈ graph.nodes,
    node.toDatum.memberNames = "id" :: "kind" :: node.kind.tag.fieldNames
  conditions : ∀ node ∈ graph.nodes, ∀ condition ∈ node.condition?,
    ("condition", condition.toDatum) ∈ node.kind.toMembers ∧ condition.NamesComparison
  edges : ∀ edge ∈ graph.edges, edge.toDatum.memberNames = Edge.layout

theorem Condition.namesComparison (condition : Condition) : condition.NamesComparison := by
  refine ⟨rfl, _, rfl, ?_⟩
  cases condition.comparison <;> decide

namespace Graph

theorem writtenInFull (graph : Graph) : graph.WrittenInFull := by
  refine ⟨rfl, fun node _ => ?_, fun node _ condition states => ?_, fun edge _ => rfl⟩
  · obtain ⟨id, kind⟩ := node
    cases kind with
    | condition subject test => cases subject <;> rfl
    | _ => rfl
  · obtain ⟨id, kind⟩ := node
    cases kind with
    | condition subject test =>
        cases states
        refine ⟨?_, condition.namesComparison⟩
        cases subject <;> simp [NodeKind.toMembers]
    | gate operator => cases states
    | action side mode amount => cases states
    | exit kind basis magnitude atrPeriod => cases states

/-- Graphs survive their JSON text. A graph with finite numbers, such as every graph that is
read off a text, is read back from its own text to the same graph, so that it is written
the same way again. What was left out or named otherwise is settled by the first reading:
the text stands for a written form that names every setting. -/
theorem json_round_trip :
    (∀ graph : Graph, graph.IsFinite -> graph.FitsWords ->
      ofJson? .nearest graph.toJson = some graph) ∧
    ∀ (rounding : Rounding) (text : String) (graph : Graph),
      ofJson? rounding text = some graph ->
        ofJson? .nearest graph.toJson = some graph ∧
          (ofJson? .nearest graph.toJson).map toJson = some graph.toJson ∧
            Json.parse .nearest graph.toJson = some graph.toDatum ∧ graph.WrittenInFull := by
  refine ⟨fun graph finite fits => ofJson?_toJson finite fits, fun rounding text graph reads => ?_⟩
  obtain ⟨finite, fits⟩ := isFinite_of_ofJson? reads
  have restored := ofJson?_toJson finite fits
  exact ⟨restored, by rw [restored, Option.map_some], parse_toJson finite fits,
    writtenInFull graph⟩

/-- A graph file that leaves settings out and calls a comparison by its second name. -/
def crossingText : String :=
  "\x7b\"nodes\": [\x7b\"kind\": \"value\", \"value\": 0.1, \"id\": \"a\", \"condition\":" ++
    " \x7b\"comparison\": \"CrossesAbove\", \"compare_value\": 3\x7d\x7d]," ++
    " \"edges\": [\x7b\"id\": \"e\", \"source\": \"a\", \"target\": \"b\"\x7d]\x7d"

/-- The graph of that file. -/
def crossingGraph : Graph where
  nodes := [{
    id := "a"
    kind := .condition (.value 0.1) {
      comparison := .crossesAbove
      compareValue := some 3
      offset := 0
      lookback := 0 } }]
  edges := [{ id := "e", source := "a", target := "b", role := .flow }]

theorem json_round_trip_crossing :
    crossingGraph.IsFinite ∧ crossingGraph.FitsWords ∧
      ofJson? .nearest crossingGraph.toJson = some crossingGraph ∧
        ofJson? .stepwise crossingText = some crossingGraph ∧
          (ofJson? .nearest crossingGraph.toJson).map toJson = some crossingGraph.toJson ∧
            crossingGraph.toJson ≠ crossingText := by
  have finite : crossingGraph.IsFinite := by
    refine List.forall_mem_singleton.2 ⟨?_, ?_⟩
    · rw [Subject.IsFinite]
      decide +kernel
    · intro value given
      cases given
      decide +kernel
  have fits : crossingGraph.FitsWords :=
    List.forall_mem_singleton.2 ⟨Nat.zero_le _, Nat.zero_le _⟩
  have reads : ofJson? .stepwise crossingText = some crossingGraph := by decide +kernel
  exact ⟨finite, fits, json_round_trip.1 crossingGraph finite fits, reads,
    (json_round_trip.2 .stepwise crossingText crossingGraph reads).2.1, by decide +kernel⟩

end Graph
end StrategyGraph
