import StrategyGraph.Data.Fields
import StrategyGraph.Data.Json.Reader
import StrategyGraph.Data.Json.Writer
import StrategyGraph.Graph.Basic

/-!
# Structured form of a graph

Graphs are exchanged as records. A node is one flat record: its identity, the
name of its kind and the fields of that kind. Settings that were left out are
filled in when a graph is read, so the written form always has all of them.
-/

namespace StrategyGraph

/-- Names of a finite set of values, in files. -/
abbrev Names (Value : Type) := List (String × Value)

namespace Names

/-- The value of a name. -/
def find? (names : Names Value) (name : String) : Option Value :=
  names.lookup name

end Names

namespace Comparison

/-- Name in written graphs. -/
def name : Comparison -> String
  | .greater => ">"
  | .less => "<"
  | .equal => "=="
  | .atLeast => ">="
  | .atMost => "<="
  | .crossesAbove => "crosses_above"
  | .crossesBelow => "crosses_below"

/-- Names that are read; crossings have two. -/
def names : Names Comparison := [
  (">", .greater), ("<", .less), ("==", .equal), (">=", .atLeast), ("<=", .atMost),
  ("crosses_above", .crossesAbove), ("CrossesAbove", .crossesAbove),
  ("crosses_below", .crossesBelow), ("CrossesBelow", .crossesBelow)]

/-- Read a comparison. -/
def ofDatum? : Datum -> Option Comparison :=
  Datum.choice? .inner names.find?

end Comparison

namespace Condition

/-- Names of the settings, in the order in which a list gives them. -/
def layout : List String := ["comparison", "compare_value", "offset", "lookback"]

/-- Read the settings of a condition. -/
def ofDatum? : Datum -> Option Condition :=
  Datum.structure? layout fun slot => do
    let comparison <- (slot "comparison").optional default.comparison
      Comparison.ofDatum?
    let compareValue <- (slot "compare_value").optional default.compareValue
      (Datum.nullable? Datum.number?)
    let offset <- (slot "offset").optional default.offset Datum.count?
    let lookback <- (slot "lookback").optional default.lookback Datum.count?
    return { comparison, compareValue, offset, lookback }

/-- Written form of the settings of a condition. -/
def toDatum (condition : Condition) : Datum :=
  .record [
    ("comparison", .text condition.comparison.name),
    ("compare_value", .ofOption .number condition.compareValue),
    ("offset", .ofNat condition.offset),
    ("lookback", .ofNat condition.lookback)]

end Condition

namespace Gate

/-- Names of gates. -/
def names : Names Gate := [("and", .and), ("or", .or), ("not", .not)]

/-- Name in written graphs. -/
def name : Gate -> String
  | .and => "and"
  | .or => "or"
  | .not => "not"

end Gate

namespace Side

/-- Names of order sides. -/
def names : Names Side := [("buy", .buy), ("sell", .sell)]

end Side

namespace SizingMode

/-- Names of sizing modes. -/
def names : Names SizingMode := [
  ("all_available", .allAvailable), ("fixed_cash", .fixedCash),
  ("fixed_shares", .fixedShares), ("percent_of_equity", .percentOfEquity)]

/-- Name in written graphs. -/
def name : SizingMode -> String
  | .allAvailable => "all_available"
  | .fixedCash => "fixed_cash"
  | .fixedShares => "fixed_shares"
  | .percentOfEquity => "percent_of_equity"

end SizingMode

namespace ExitKind

/-- Names of kinds of risk exits. -/
def names : Names ExitKind := [
  ("stop_loss", .stopLoss), ("take_profit", .takeProfit),
  ("trailing_stop", .trailingStop)]

/-- Name in written graphs and strategies. -/
def name : ExitKind -> String
  | .stopLoss => "stop_loss"
  | .takeProfit => "take_profit"
  | .trailingStop => "trailing_stop"

end ExitKind

namespace ExitBasis

/-- Names of exit bases. -/
def names : Names ExitBasis := [
  ("percent", .percent), ("fixed_amount", .fixedAmount),
  ("atr_multiple", .atrMultiple)]

/-- Name in written graphs and strategies. -/
def name : ExitBasis -> String
  | .percent => "percent"
  | .fixedAmount => "fixed_amount"
  | .atrMultiple => "atr_multiple"

end ExitBasis

/-- Kinds of nodes, by the names they have in written graphs. -/
inductive NodeTag where
  | price
  | indicator
  | value
  | logic
  | action
  | exit

namespace NodeTag

/-- Names of kinds of nodes. -/
def names : Names NodeTag := [
  ("price", .price), ("indicator", .indicator), ("value", .value),
  ("logic", .logic), ("action", .action), ("exit", .exit)]

end NodeTag

namespace NodeKind

/-- Read the fields of a kind of node. -/
def ofFields? (tag : NodeTag) (fields : Fields) : Option NodeKind :=
  match tag with
  | .price =>
      fields |> Datum.fields? ["field", "condition"] fun slot => do
        let column <- (slot "field").required (Datum.choice? .inner Column.ofKey?)
        let test <- (slot "condition").optional .default Condition.ofDatum?
        return .condition (.price column) test
  | .indicator =>
      fields |> Datum.fields? ["indicator", "params", "condition"] fun slot => do
        let line <- (slot "indicator").required (Datum.choice? .inner Indicator.ofName?)
        let parameters <- (slot "params").optional .empty
          (Datum.dictionaryOf? Datum.number?)
        let test <- (slot "condition").optional .default Condition.ofDatum?
        return .condition (.indicator line parameters) test
  | .value =>
      fields |> Datum.fields? ["value", "condition"] fun slot => do
        let constant <- (slot "value").required Datum.number?
        let test <- (slot "condition").optional .default Condition.ofDatum?
        return .condition (.value constant) test
  | .logic =>
      fields |> Datum.fields? ["op"] fun slot => do
        let gate <- (slot "op").required (Datum.choice? .inner Gate.names.find?)
        return .gate gate
  | .action =>
      fields |> Datum.fields? ["side", "sizing", "amount"] fun slot => do
        let side <- (slot "side").required (Datum.choice? .inner Side.names.find?)
        let mode <- (slot "sizing").required (Datum.choice? .inner SizingMode.names.find?)
        let amount <- (slot "amount").optional none (Datum.nullable? Datum.number?)
        return .action side mode amount
  | .exit =>
      fields |> Datum.fields? ["exit", "basis", "magnitude", "atr_period"] fun slot => do
        let kind <- (slot "exit").required (Datum.choice? .inner ExitKind.names.find?)
        let basis <- (slot "basis").required (Datum.choice? .inner ExitBasis.names.find?)
        let magnitude <- (slot "magnitude").required Datum.number?
        let atrPeriod <- (slot "atr_period").optional none
          (Datum.nullable? Datum.count?)
        return .exit kind basis magnitude atrPeriod

/-- Written fields of a kind of node, its name first. -/
def toMembers : NodeKind -> List (String × Datum)
  | .condition (.price column) test => [
      ("kind", .text "price"), ("field", .text column.key),
      ("condition", test.toDatum)]
  | .condition (.indicator line parameters) test => [
      ("kind", .text "indicator"), ("indicator", .text line.name),
      ("params", Datum.ofDictionary .number parameters),
      ("condition", test.toDatum)]
  | .condition (.value constant) test => [
      ("kind", .text "value"), ("value", .number constant),
      ("condition", test.toDatum)]
  | .gate operator => [("kind", .text "logic"), ("op", .text operator.name)]
  | .action side mode amount => [
      ("kind", .text "action"), ("side", .text side.name), ("sizing", .text mode.name),
      ("amount", .ofOption .number amount)]
  | .exit kind basis magnitude atrPeriod => [
      ("kind", .text "exit"), ("exit", .text kind.name), ("basis", .text basis.name),
      ("magnitude", .number magnitude), ("atr_period", .ofOption .ofNat atrPeriod)]

end NodeKind

namespace Node

/-- Read a node, which is a record. -/
def ofDatum? : Datum -> Option Node :=
  Datum.whole? fun datum => do
    let fields <- Fields.ofRecord? datum
    let (idDatum, kindFields) <- fields.tagged? "id"
    let id <- idDatum.text?
    let (tagDatum, remaining) <- kindFields.tagged? "kind"
    let tag <- Datum.tag? .inner NodeTag.names tagDatum
    let kind <- NodeKind.ofFields? tag remaining
    return { id, kind }

/-- Written form of a node. -/
def toDatum (node : Node) : Datum :=
  .record (("id", .text node.id) :: node.kind.toMembers)

end Node

namespace EdgeRole

/-- Names of edge roles. -/
def names : Names EdgeRole := [("flow", .flow), ("compare_input", .compareInput)]

/-- Name in written graphs. -/
def name : EdgeRole -> String
  | .flow => "flow"
  | .compareInput => "compare_input"

end EdgeRole

namespace Edge

/-- Names of the fields, in the order in which a list gives them. -/
def layout : List String := ["id", "source", "target", "role"]

/-- Read an edge. -/
def ofDatum? : Datum -> Option Edge :=
  Datum.structure? layout fun slot => do
    let id <- (slot "id").required Datum.text?
    let source <- (slot "source").required Datum.text?
    let target <- (slot "target").required Datum.text?
    let role <- (slot "role").optional .flow (Datum.choice? .outer EdgeRole.names.find?)
    return { id, source, target, role }

/-- Written form of an edge. -/
def toDatum (edge : Edge) : Datum :=
  .record [
    ("id", .text edge.id),
    ("source", .text edge.source),
    ("target", .text edge.target),
    ("role", .text edge.role.name)]

end Edge

namespace Graph

/-- Read a graph. -/
def ofDatum? : Datum -> Option Graph :=
  Datum.structure? ["nodes", "edges"] fun slot => do
    let nodes <- (slot "nodes").required (Datum.listOf? Node.ofDatum?)
    let edges <- (slot "edges").optional [] (Datum.listOf? Edge.ofDatum?)
    return { nodes, edges }

/-- Written form of a graph. -/
def toDatum (graph : Graph) : Datum :=
  .record [
    ("nodes", .list (graph.nodes.map Node.toDatum)),
    ("edges", .list (graph.edges.map Edge.toDatum))]

/-- Read a graph from JSON. -/
def ofJson? (rounding : Rounding) (text : String) : Option Graph :=
  (Json.parse rounding text).bind ofDatum?

/-- A graph as JSON. -/
def toJson (graph : Graph) : String :=
  Json.compact graph.toDatum

end Graph
end StrategyGraph
