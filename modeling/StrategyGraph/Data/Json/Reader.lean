import StrategyGraph.Data.Json.Extent

/-!
# Reading JSON

`Json.parse` reads one JSON value with blanks around it. Lists and records are
read down to `deepest` levels. What is nested more deeply has to be well formed
but is unreadable, and so is a record one of whose names is.

Readers take the characters that are left and give back what remains. The
mutually recursive ones also take a bound on the number of steps. Twice the
length of the text is enough, since of two steps one uses up a character.
-/

namespace StrategyGraph
namespace Json

/-- The deepest nesting of lists and records that is read. -/
def deepest : Nat := 127

/-- The record of some members, unless one of their names is unreadable. -/
def recordOf (members : List (Option String × Datum)) : Datum :=
  match members.mapM fun member => member.1.map fun name => (name, member.2) with
  | some members => .record members
  | none => .unreadable

mutual

/-- Read a value after optional blanks, with `depth` more levels of nesting
that are kept and numbers rounded as given. -/
def readValue (rounding : Rounding) :
    Nat -> Nat -> List Char -> Option (Datum × List Char)
  | 0, _, _ => none
  | steps + 1, depth, text =>
      match skipBlanks text with
      | '[' :: rest =>
          match depth with
          | 0 => (skipNested steps ('[' :: rest)).map fun remaining =>
              (.unreadable, remaining)
          | depth + 1 =>
              match skipBlanks rest with
              | ']' :: remaining => some (.list [], remaining)
              | _ => do
                  let (items, remaining) <- readItems rounding steps depth rest
                  return (.list items, remaining)
      | '\x7b' :: rest =>
          match depth with
          | 0 => (skipNested steps ('\x7b' :: rest)).map fun remaining =>
              (.unreadable, remaining)
          | depth + 1 =>
              match skipBlanks rest with
              | '\x7d' :: remaining => some (.record [], remaining)
              | _ => do
                  let (members, remaining) <- readMembers rounding steps depth rest
                  return (recordOf members, remaining)
      | start => readScalar rounding steps start

/-- Read the items of a list up to its closing bracket, at least one. -/
def readItems (rounding : Rounding) :
    Nat -> Nat -> List Char -> Option (List Datum × List Char)
  | 0, _, _ => none
  | steps + 1, depth, text => do
      let (item, afterItem) <- readValue rounding steps depth text
      match skipBlanks afterItem with
      | ',' :: rest =>
          let (items, remaining) <- readItems rounding steps depth rest
          return (item :: items, remaining)
      | ']' :: remaining => return ([item], remaining)
      | _ => none

/-- Read the members of a record up to its closing brace, at least one. -/
def readMembers (rounding : Rounding) :
    Nat -> Nat -> List Char -> Option (List (Option String × Datum) × List Char)
  | 0, _, _ => none
  | steps + 1, depth, text =>
      match skipBlanks text with
      | '\"' :: rest => do
          let (name, afterName) <- readText steps rest
          match skipBlanks afterName with
          | ':' :: afterColon =>
              let (value, afterValue) <- readValue rounding steps depth afterColon
              let member := (textOf? name, value)
              match skipBlanks afterValue with
              | ',' :: rest =>
                  let (members, remaining) <- readMembers rounding steps depth rest
                  return (member :: members, remaining)
              | '\x7d' :: remaining => return ([member], remaining)
              | _ => none
          | _ => none
      | _ => none

end

/-- Read a text that holds one JSON value and nothing else but blanks. -/
def parse (rounding : Rounding) (text : String) : Option Datum :=
  let characters := text.toList
  match readValue rounding (2 * characters.length + 1) deepest characters with
  | some (datum, rest) => if (skipBlanks rest).isEmpty then some datum else none
  | none => none

end Json
end StrategyGraph
