import StrategyGraph.Digest.Blake3
import StrategyGraph.Graph.Datum
import StrategyGraph.Strategy.Basic

/-!
# Structured form of a strategy

The written form of a compiled strategy is its interchange format, and the
digest of its compact JSON text identifies it. Variants are told apart by a tag
among their fields. Inside a tagged value, the tag of a nested one may also be
given by its position in the list of variants.
-/

namespace StrategyGraph

namespace IndicatorSeries

/-- Read an indicator series. -/
def ofDatum? (standing : Standing) : Datum -> Option IndicatorSeries :=
  Datum.structure? ["indicator", "params"] fun slot => do
    let indicator <- (slot "indicator").required
      (Datum.choice? standing Indicator.ofName?)
    let parameters <- (slot "params").required
      (Datum.dictionaryOf? Datum.number?)
    return { indicator, parameters }

/-- Written form of an indicator series. -/
def toDatum (series : IndicatorSeries) : Datum :=
  .record [
    ("indicator", .text series.indicator.name),
    ("params", Datum.ofDictionary .number series.parameters)]

end IndicatorSeries

/-- Variants of expressions. -/
inductive ExpressionTag where
  | price
  | indicator
  | literal

namespace Expression

/-- Names of the variants. -/
def tags : Names ExpressionTag :=
  [("price", .price), ("indicator", .indicator), ("literal", .literal)]

/-- Read the fields of a variant. -/
def ofFields? (tag : ExpressionTag) (fields : Fields) : Option Expression :=
  match tag with
  | .price =>
      fields |> Datum.fields? ["field", "offset"] fun slot => do
        let column <- (slot "field").required (Datum.choice? .inner Column.ofKey?)
        let offset <- (slot "offset").required Datum.count?
        return .price column offset
  | .indicator =>
      fields |> Datum.fields? ["spec", "offset"] fun slot => do
        let series <- (slot "spec").required (IndicatorSeries.ofDatum? .inner)
        let offset <- (slot "offset").required Datum.count?
        return .indicator series offset
  | .literal =>
      fields |> Datum.fields? ["value"] fun slot => do
        let constant <- (slot "value").required Datum.number?
        return .literal constant

/-- Read an expression, which stands inside a comparison. -/
def ofDatum? (datum : Datum) : Option Expression := do
  let fields <- Fields.ofDatum? datum
  let (tagDatum, remaining) <- fields.tagged? "type"
  let tag <- Datum.tag? .inner tags tagDatum
  ofFields? tag remaining

/-- Written form of an expression. -/
def toDatum : Expression -> Datum
  | .price column offset => .record [
      ("type", .text "price"), ("field", .text column.key), ("offset", .ofNat offset)]
  | .indicator series offset => .record [
      ("type", .text "indicator"), ("spec", series.toDatum), ("offset", .ofNat offset)]
  | .literal constant => .record [("type", .text "literal"), ("value", .number constant)]

end Expression

namespace Datum

mutual

/-- Levels of nesting in a datum. -/
def height : Datum -> Nat
  | .list items => heightOfItems items + 1
  | .record members => heightOfMembers members + 1
  | _ => 1

/-- Levels of nesting in the items of a list. -/
def heightOfItems : List Datum -> Nat
  | [] => 0
  | item :: items => max item.height (heightOfItems items)

/-- Levels of nesting in the members of a record. -/
def heightOfMembers : List (String × Datum) -> Nat
  | [] => 0
  | (_, value) :: members => max value.height (heightOfMembers members)

end

end Datum

/-- Variants of predicates. -/
inductive PredicateTag where
  | always
  | compare
  | all
  | any
  | negation

namespace Predicate

/-- Names of the variants. -/
def tags : Names PredicateTag := [
  ("always", .always), ("compare", .compare), ("all", .all), ("any", .any),
  ("not", .negation)]

/-- Read the fields of a variant, with a reader for nested predicates. -/
def ofFields?
    (nested : Datum -> Option Predicate)
    (tag : PredicateTag)
    (fields : Fields) : Option Predicate :=
  match tag with
  | .always =>
      match fields with
      | .positional (_ :: _) => none
      | _ => some .always
  | .compare =>
      fields |> Datum.fields? ["left", "op", "right"] fun slot => do
        let left <- (slot "left").required Expression.ofDatum?
        let relation <- (slot "op").required (Datum.choice? .inner Relation.ofSymbol?)
        let right <- (slot "right").required Expression.ofDatum?
        return .compare left relation right
  | .all =>
      fields |> Datum.fields? ["of"] fun slot => do
        let parts <- (slot "of").required (Datum.listOf? nested)
        return .all parts
  | .any =>
      fields |> Datum.fields? ["of"] fun slot => do
        let parts <- (slot "of").required (Datum.listOf? nested)
        return .any parts
  | .negation =>
      fields |> Datum.fields? ["of"] fun slot => do
        let inner <- (slot "of").required nested
        return .negation inner

/-- Read a predicate of bounded height. -/
def readBounded (standing : Standing) : Nat -> Datum -> Option Predicate
  | 0, _ => none
  | levels + 1, datum => do
      let fields <- Fields.ofDatum? datum
      let (tagDatum, remaining) <- fields.tagged? "type"
      let tag <- Datum.tag? standing tags tagDatum
      ofFields? (readBounded .inner levels) tag remaining

/-- Read a predicate. -/
def ofDatum? : Datum -> Option Predicate :=
  Datum.whole? fun datum => readBounded .outer datum.height datum

mutual

/-- Written form of a predicate. -/
def toDatum : Predicate -> Datum
  | .always => .record [("type", .text "always")]
  | .compare left relation right => .record [
      ("type", .text "compare"), ("left", left.toDatum),
      ("op", .text relation.symbol), ("right", right.toDatum)]
  | .all parts => .record [("type", .text "all"), ("of", .list (toData parts))]
  | .any parts => .record [("type", .text "any"), ("of", .list (toData parts))]
  | .negation inner => .record [("type", .text "not"), ("of", inner.toDatum)]

/-- Written forms of several predicates. -/
def toData : List Predicate -> List Datum
  | [] => []
  | part :: parts => part.toDatum :: toData parts

end

end Predicate

namespace Direction

/-- Names of directions. -/
def names : Names Direction := [("entry", .entry), ("exit", .exit)]

end Direction

namespace Sizing

/-- Read the fields of a sizing mode. -/
def ofFields? (mode : SizingMode) (fields : Fields) : Option Sizing :=
  match mode with
  | .allAvailable =>
      match fields with
      | .positional (_ :: _) => none
      | _ => some .allAvailable
  | .fixedCash =>
      fields |> Datum.fields? ["amount"] fun slot => do
        let amount <- (slot "amount").required Datum.number?
        return .fixedCash amount
  | .fixedShares =>
      fields |> Datum.fields? ["shares"] fun slot => do
        let shares <- (slot "shares").required Datum.number?
        return .fixedShares shares
  | .percentOfEquity =>
      fields |> Datum.fields? ["percent"] fun slot => do
        let percent <- (slot "percent").required Datum.number?
        return .percentOfEquity percent

/-- Read a sizing. -/
def ofDatum? : Datum -> Option Sizing :=
  Datum.whole? fun datum => do
    let fields <- Fields.ofDatum? datum
    let (tagDatum, remaining) <- fields.tagged? "mode"
    let mode <- Datum.tag? .outer SizingMode.names tagDatum
    ofFields? mode remaining

/-- Written form of a sizing. -/
def toDatum : Sizing -> Datum
  | .allAvailable => .record [("mode", .text "all_available")]
  | .fixedCash amount =>
      .record [("mode", .text "fixed_cash"), ("amount", .number amount)]
  | .fixedShares shares =>
      .record [("mode", .text "fixed_shares"), ("shares", .number shares)]
  | .percentOfEquity percent =>
      .record [("mode", .text "percent_of_equity"), ("percent", .number percent)]

end Sizing

namespace ActionRule

/-- Names of the fields, in the order in which a list gives them. -/
def layout : List String := ["node", "side", "direction", "predicate", "sizing"]

/-- Read an action rule. -/
def ofDatum? : Datum -> Option ActionRule :=
  Datum.structure? layout fun slot => do
    let node <- (slot "node").required Datum.text?
    let side <- (slot "side").required (Datum.choice? .outer Side.names.find?)
    let direction <- (slot "direction").required
      (Datum.choice? .outer Direction.names.find?)
    let predicate <- (slot "predicate").required Predicate.ofDatum?
    let sizing <- (slot "sizing").required Sizing.ofDatum?
    return { node, side, direction, predicate, sizing }

/-- Written form of an action rule. -/
def toDatum (rule : ActionRule) : Datum :=
  .record [
    ("node", .text rule.node),
    ("side", .text rule.side.name),
    ("direction", .text rule.direction.name),
    ("predicate", rule.predicate.toDatum),
    ("sizing", rule.sizing.toDatum)]

end ActionRule

namespace ExitRule

/-- Names of the fields, in the order in which a list gives them. -/
def layout : List String := ["node", "kind", "basis", "magnitude", "atr"]

/-- Read an exit rule. A record may leave out the range series. -/
def ofDatum? : Datum -> Option ExitRule :=
  Datum.structure? layout fun slot => do
    let node <- (slot "node").required Datum.text?
    let kind <- (slot "kind").required (Datum.choice? .outer ExitKind.names.find?)
    let basis <- (slot "basis").required (Datum.choice? .outer ExitBasis.names.find?)
    let magnitude <- (slot "magnitude").required Datum.number?
    let atr <- (slot "atr").omissible none
      (Datum.nullable? (IndicatorSeries.ofDatum? .outer))
    return { node, kind, basis, magnitude, atr }

/-- Written form of an exit rule. -/
def toDatum (rule : ExitRule) : Datum :=
  .record [
    ("node", .text rule.node),
    ("kind", .text rule.kind.name),
    ("basis", .text rule.basis.name),
    ("magnitude", .number rule.magnitude),
    ("atr", .ofOption IndicatorSeries.toDatum rule.atr)]

end ExitRule

/-- Variants of state slots. -/
inductive SlotTag where
  | entryPrice
  | trailingStop

namespace StateSlot

/-- Names of the variants. -/
def tags : Names SlotTag :=
  [("entry_price", .entryPrice), ("trailing_stop", .trailingStop)]

/-- Read the fields of a variant. -/
def ofFields? (tag : SlotTag) (fields : Fields) : Option StateSlot :=
  match tag with
  | .entryPrice =>
      match fields with
      | .positional (_ :: _) => none
      | _ => some .entryPrice
  | .trailingStop =>
      fields |> Datum.fields? ["rule"] fun slot => do
        let rule <- (slot "rule").required Datum.text?
        return .trailingStop rule

/-- Read a state slot. -/
def ofDatum? : Datum -> Option StateSlot :=
  Datum.whole? fun datum => do
    let fields <- Fields.ofDatum? datum
    let (tagDatum, remaining) <- fields.tagged? "slot"
    let tag <- Datum.tag? .outer tags tagDatum
    ofFields? tag remaining

/-- Written form of a state slot. -/
def toDatum : StateSlot -> Datum
  | .entryPrice => .record [("slot", .text "entry_price")]
  | .trailingStop rule => .record [("slot", .text "trailing_stop"), ("rule", .text rule)]

end StateSlot

namespace Strategy

/-- Names of the fields, in the order in which a list gives them. -/
def layout : List String := ["indicators", "actions", "exits", "state_slots"]

/-- Read a strategy. It is taken as it is: it may hold what no graph compiles
to. -/
def ofDatum? : Datum -> Option Strategy :=
  Datum.structure? layout fun slot => do
    let indicators <- (slot "indicators").required
      (Datum.listOf? (IndicatorSeries.ofDatum? .outer))
    let actions <- (slot "actions").required (Datum.listOf? ActionRule.ofDatum?)
    let exits <- (slot "exits").required (Datum.listOf? ExitRule.ofDatum?)
    let stateSlots <- (slot "state_slots").required (Datum.listOf? StateSlot.ofDatum?)
    return { indicators, actions, exits, stateSlots }

/-- Written form of a strategy. -/
def toDatum (strategy : Strategy) : Datum :=
  .record [
    ("indicators", .list (strategy.indicators.map IndicatorSeries.toDatum)),
    ("actions", .list (strategy.actions.map ActionRule.toDatum)),
    ("exits", .list (strategy.exits.map ExitRule.toDatum)),
    ("state_slots", .list (strategy.stateSlots.map StateSlot.toDatum))]

/-- Read a strategy from JSON. -/
def ofJson? (rounding : Rounding) (text : String) : Option Strategy :=
  (Json.parse rounding text).bind ofDatum?

/-- The canonical text of a strategy. -/
def toJson (strategy : Strategy) : String :=
  Json.compact strategy.toDatum

/-- Digest of the canonical text, which identifies a strategy. -/
def fingerprint (strategy : Strategy) : String :=
  Blake3.digest strategy.toJson.toUTF8

/-- First characters of a digest, for reports and file names. -/
def shortDigest (digest : String) : String :=
  String.ofList (digest.toList.take 12)

end Strategy
end StrategyGraph
