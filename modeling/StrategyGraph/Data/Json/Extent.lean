import StrategyGraph.Data.Json.Token

/-!
# Extents of nested values

`Json.skipNested` finds the end of a list or record without keeping any of it.
The brackets that are open are a list of their own, so the depth of nesting has
no bound.
-/

namespace StrategyGraph
namespace Json

/-- What encloses a place in a text. -/
inductive Enclosure where
  | list
  | record

/-- What a text has to go on with. -/
inductive Continuation where
  | value
  /-- The name of a member. -/
  | name
  /-- A comma or the closing bracket. -/
  | separator

/-- Skip up to the end of the outermost of some open lists and records. A step
uses up at least one character. -/
def skip : Nat -> Continuation -> List Enclosure -> List Char -> Option (List Char)
  | _, .separator, [], text => some text
  | 0, _, _, _ => none
  | steps + 1, .separator, .list :: outer, text =>
      match skipBlanks text with
      | ',' :: rest => skip steps .value (.list :: outer) rest
      | ']' :: rest => skip steps .separator outer rest
      | _ => none
  | steps + 1, .separator, .record :: outer, text =>
      match skipBlanks text with
      | ',' :: rest => skip steps .name (.record :: outer) rest
      | '\x7d' :: rest => skip steps .separator outer rest
      | _ => none
  | steps + 1, .name, outer, text =>
      match skipBlanks text with
      | '\"' :: rest =>
          match readText steps rest with
          | some (_, afterName) =>
              match skipBlanks afterName with
              | ':' :: afterColon => skip steps .value outer afterColon
              | _ => none
          | none => none
      | _ => none
  | steps + 1, .value, outer, text =>
      match skipBlanks text with
      | '[' :: rest =>
          match skipBlanks rest with
          | ']' :: remaining => skip steps .separator outer remaining
          | _ => skip steps .value (.list :: outer) rest
      | '\x7b' :: rest =>
          match skipBlanks rest with
          | '\x7d' :: remaining => skip steps .separator outer remaining
          | _ => skip steps .name (.record :: outer) rest
      | start =>
          match readScalar .stepwise steps start with
          | some (_, remaining) => skip steps .separator outer remaining
          | none => none

/-- Skip one value. -/
def skipNested (steps : Nat) (text : List Char) : Option (List Char) :=
  skip steps .value [] text

end Json
end StrategyGraph
