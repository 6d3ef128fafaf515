import StrategyGraph.Data.Datum
import StrategyGraph.Number.Text

/-!
# Writing JSON

Two layouts of the same data: `Json.compact` without any blanks and with the
members of records in their own order, and `Json.pretty`, indented by two
blanks a level, with the members of every record in the order of their names.
Only quotes, backslashes and control characters are escaped. What no value can
be made of is written as `null`.
-/

namespace StrategyGraph
namespace Json

/-- Hexadecimal digit of a number below sixteen. -/
def hexDigit (value : Nat) : Char :=
  Nat.digitChar value

/-- The written form of one character of a text. -/
def escapeCharacter (character : Char) : List Char :=
  if character = '\"' then ['\\', '\"']
  else if character = '\\' then ['\\', '\\']
  else if character = '\x08' then ['\\', 'b']
  else if character = '\x0c' then ['\\', 'f']
  else if character = '\n' then ['\\', 'n']
  else if character = '\r' then ['\\', 'r']
  else if character = '\t' then ['\\', 't']
  else if character.toNat < 0x20 then
    ['\\', 'u', '0', '0', hexDigit (character.toNat / 16),
      hexDigit (character.toNat % 16)]
  else [character]

/-- A text between quotes. -/
def quote (text : String) : String :=
  String.ofList ('\"' :: (text.toList.flatMap escapeCharacter ++ ['\"']))

/-- An integer in decimal digits. -/
def integerText (value : Int) : String :=
  String.ofList
    ((if value < 0 then ['-'] else []) ++ Decimal.digitsOf value.natAbs)

/-- A double; JSON has no form for special values, which become `null`. -/
def numberText (value : Float) : String :=
  if value.isFinite then NumberText.data value else "null"

/-- Opening and closing brace of a record. -/
def openBrace : String := "\x7b"

@[inherit_doc openBrace]
def closeBrace : String := "\x7d"

mutual

/-- Written form without blanks. -/
def compact : Datum -> String
  | .null => "null"
  | .boolean value => if value then "true" else "false"
  | .integer value => integerText value
  | .number value => numberText value
  | .text value => quote value
  | .list items => "[" ++ String.intercalate "," (compactItems items) ++ "]"
  | .record members =>
      openBrace ++ String.intercalate "," (compactMembers members) ++ closeBrace
  | .unreadable => "null"

/-- Written forms of the items of a list. -/
def compactItems : List Datum -> List String
  | [] => []
  | item :: items => compact item :: compactItems items

/-- Written forms of the members of a record. -/
def compactMembers : List (String × Datum) -> List String
  | [] => []
  | (name, value) :: members =>
      (quote name ++ ":" ++ compact value) :: compactMembers members

end

mutual

/-- The same data with the members of every record in the order of their names. -/
def sortMembers : Datum -> Datum
  | .list items => .list (sortItems items)
  | .record members =>
      .record ((sortValues members).mergeSort fun left right => left.1 <= right.1)
  | scalar => scalar

/-- `sortMembers` on each item. -/
def sortItems : List Datum -> List Datum
  | [] => []
  | item :: items => sortMembers item :: sortItems items

/-- `sortMembers` on the value of each member. -/
def sortValues : List (String × Datum) -> List (String × Datum)
  | [] => []
  | (name, value) :: members => (name, sortMembers value) :: sortValues members

end

/-- A line break and the indentation of a level. -/
def newLine (level : Nat) : String :=
  "\n" ++ String.ofList (List.replicate (2 * level) ' ')

mutual

/-- Indented form of a value that starts on a line of the given level. -/
def indented (level : Nat) : Datum -> String
  | .list [] => "[]"
  | .list items =>
      "[" ++ String.intercalate "," (indentedItems (level + 1) items) ++
        newLine level ++ "]"
  | .record [] => openBrace ++ closeBrace
  | .record members =>
      openBrace ++ String.intercalate "," (indentedMembers (level + 1) members) ++
        newLine level ++ closeBrace
  | scalar => compact scalar

/-- Indented forms of the items of a list, each after a line break. -/
def indentedItems (level : Nat) : List Datum -> List String
  | [] => []
  | item :: items => (newLine level ++ indented level item) :: indentedItems level items

/-- Indented forms of the members of a record, each after a line break. -/
def indentedMembers (level : Nat) : List (String × Datum) -> List String
  | [] => []
  | (name, value) :: members =>
      (newLine level ++ quote name ++ ": " ++ indented level value) ::
        indentedMembers level members

end

/-- Indented form with the members of records in the order of their names. -/
def pretty (datum : Datum) : String :=
  indented 0 (sortMembers datum)

end Json
end StrategyGraph
