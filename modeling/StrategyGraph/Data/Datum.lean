import StrategyGraph.Data.Dictionary
import StrategyGraph.Number.Decimal

/-!
# Structured data

Graphs, strategies and configurations are exchanged as structured data: a tree
of records, lists and scalars. JSON and TOML are two notations for it. A record
keeps its members in written order, repeated names included, because readers of
a record decide what a repetition means.

Data may be well formed and still hold what no value can be made of, such as a
number beyond all doubles. Such a part is `unreadable`: it does no harm where it
is passed over, and no reader accepts it.
-/

namespace StrategyGraph

/-- A tree of records, lists and scalars. -/
inductive Datum where
  | null
  | boolean (value : Bool)
  | integer (value : Int)
  | number (value : Float)
  | text (value : String)
  | list (items : List Datum)
  | record (members : List (String × Datum))
  | unreadable
  deriving Inhabited

namespace Datum

/-- A natural number as a datum. -/
def ofNat (n : Nat) : Datum :=
  .integer (Int.ofNat n)

/-- An optional datum, with `null` for a missing one. -/
def ofOption (encode : Value -> Datum) : Option Value -> Datum
  | none => .null
  | some value => encode value

/-- A dictionary as a record. -/
def ofDictionary (encode : Value -> Datum) (dictionary : Dictionary Value) : Datum :=
  .record (dictionary.entries.map fun entry => (entry.1, encode entry.2))

mutual

/-- Whether no part of a datum is unreadable. -/
def isReadable : Datum -> Bool
  | .list items => areReadable items
  | .record members => areReadableMembers members
  | .unreadable => false
  | _ => true

/-- Whether every item of a list is readable. -/
def areReadable : List Datum -> Bool
  | [] => true
  | item :: items => item.isReadable && areReadable items

/-- Whether the value of every member of a record is readable. -/
def areReadableMembers : List (String × Datum) -> Bool
  | [] => true
  | (_, value) :: members => value.isReadable && areReadableMembers members

end

/-- Read a truth value. -/
def boolean? : Datum -> Option Bool
  | .boolean value => some value
  | _ => none

/-- Read a text. -/
def text? : Datum -> Option String
  | .text value => some value
  | _ => none

/-- Read a number; an integer stands for the nearest double, if that is finite. -/
def number? : Datum -> Option Float
  | .number value => some value
  | .integer value =>
      let nearest := Binary64.ofInt value
      if nearest.isFinite then some nearest else none
  | _ => none

/-- Read a count that fits a machine word. -/
def count? : Datum -> Option Nat
  | .integer (.ofNat value) =>
      if value <= Binary64.largestCount then some value else none
  | _ => none

/-- Read a list, each item with the given reader. -/
def listOf? (read : Datum -> Option Value) : Datum -> Option (List Value)
  | .list items => items.mapM read
  | _ => none

/-- Read a dictionary from a record; of members with one name the last counts. -/
def dictionaryOf? (read : Datum -> Option Value) : Datum -> Option (Dictionary Value)
  | .record members => do
      let entries <- members.mapM fun member => do
        let value <- read member.2
        return (member.1, value)
      return .ofList entries
  | _ => none

/-- Read an optional value; `null` stands for a missing one. -/
def nullable? (read : Datum -> Option Value) : Datum -> Option (Option Value)
  | .null => some none
  | datum => (read datum).map some

end Datum
end StrategyGraph
