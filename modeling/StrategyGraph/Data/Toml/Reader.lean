import StrategyGraph.Data.Toml.Moment
import StrategyGraph.Data.Toml.Scalar
import StrategyGraph.Data.Toml.Table

/-!
# Reading TOML

A document is a sequence of table headers and key-value lines. `Toml.parse`
gives it as a record. Keys may have less than `limit` parts, and lists and
inline tables may be nested less than `limit` times.

Readers take the characters that are left and give back what remains. The
recursive ones also take a bound on the number of steps, which is enough if it
is twice the number of characters.
-/

namespace StrategyGraph
namespace Toml

/-- Bound of the parts of a key and of the nesting of values. -/
def limit : Nat := 80

/-- Characters of a bare key. -/
def isBareKey (character : Char) : Bool :=
  ('a' <= character && character <= 'z') || ('A' <= character && character <= 'Z') ||
    isDigit character || character = '_' || character = '-'

/-- Read a bare or quoted key. -/
def readKey (text : List Char) : Option (String × List Char) := do
  match text with
  | mark :: rest =>
      if mark = '\"' then
        let (characters, remaining) <- readBasic text.length rest
        return (String.ofList characters, remaining)
      else if mark = apostrophe then
        let (characters, remaining) <- readLiteral rest
        return (String.ofList characters, remaining)
      else
        let (characters, remaining) := text.span isBareKey
        if characters.isEmpty then none
        else return (String.ofList characters, remaining)
  | [] => none

/-- Read keys separated by points, with blanks around each and no more of them
than given. -/
def readKeys : Nat -> List Char -> Option (List String × List Char)
  | 0, _ => none
  | count + 1, text => do
      let (key, afterKey) <- readKey (skipBlanks text)
      match skipBlanks afterKey with
      | '.' :: rest =>
          let (path, remaining) <- readKeys count rest
          return (key :: path, remaining)
      | remaining => return ([key], remaining)

/-- Read a dotted key. -/
def readPath (text : List Char) : Option (List String × List Char) :=
  readKeys (limit - 1) text

/-- Drop a comment, if one starts here. Its end is a line end or the end of the
text; control characters are refused. -/
def skipComment (text : List Char) : Option (List Char) :=
  match text with
  | '#' :: rest =>
      let body := rest.takeWhile fun character => !isControl character
      let remaining := rest.drop body.length
      if remaining.isEmpty || (splitLineEnd remaining).isSome then some remaining
      else none
  | _ => some text

/-- Drop blanks, comments and line ends. -/
def skipGaps : Nat -> List Char -> Option (List Char)
  | 0, _ => none
  | steps + 1, text => do
      let remaining <- skipComment (skipBlanks text)
      match splitLineEnd remaining with
      | some nextLine => skipGaps steps nextLine
      | none => return remaining

/-- Characters that end a bare word. -/
def endsWord (character : Char) : Bool :=
  isBlank character || character = ',' || character = ']' || character = '\x7d' ||
    character = '#' || character = '\n' || character = '\r'

/-- Read a moment, a truth value or a number. -/
def readBare (text : List Char) : Option (Datum × List Char) :=
  match readMoment text with
  | some moment => some moment
  | none =>
      let (word, remaining) := text.span fun character => !endsWord character
      (bareWord? word).map fun datum => (datum, remaining)

mutual

/-- Read a value that starts here, with `depth` more levels of nesting allowed. -/
def readValue : Nat -> Nat -> List Char -> Option (Datum × List Char)
  | 0, _, _ => none
  | steps + 1, depth, text =>
      match text with
      | '[' :: rest =>
          match depth with
          | 0 => none
          | depth + 1 => do
              let (items, remaining) <- readItems steps depth rest
              return (.list items, remaining)
      | '\x7b' :: rest =>
          match depth, skipBlanks rest with
          | 0, _ => none
          | _ + 1, '\x7d' :: remaining => some (.record [], remaining)
          | depth + 1, _ => do
              let (entries, remaining) <- readInline steps depth [] rest
              return (.record (entriesDatum entries), remaining)
      | mark :: _ =>
          if mark = '\"' || mark = apostrophe then do
            let (characters, remaining) <- readText text
            return (.text (String.ofList characters), remaining)
          else readBare text
      | [] => none

/-- Read the items of a list up to its closing bracket. A comma may follow the
last item. -/
def readItems : Nat -> Nat -> List Char -> Option (List Datum × List Char)
  | 0, _, _ => none
  | steps + 1, depth, text => do
      let start <- skipGaps (text.length + 1) text
      match start with
      | ']' :: remaining => return ([], remaining)
      | _ =>
          let (item, afterItem) <- readValue steps depth start
          let next <- skipGaps (afterItem.length + 1) afterItem
          match next with
          | ',' :: rest =>
              let (items, remaining) <- readItems steps depth rest
              return (item :: items, remaining)
          | ']' :: remaining => return ([item], remaining)
          | _ => none

/-- Read the entries of an inline table up to its closing brace. -/
def readInline :
    Nat -> Nat -> List (String × Item) -> List Char ->
      Option (List (String × Item) × List Char)
  | 0, _, _, _ => none
  | steps + 1, depth, entries, text => do
      let (path, afterPath) <- readPath text
      match afterPath with
      | '=' :: rest =>
          let (datum, afterValue) <- readValue steps depth (skipBlanks rest)
          let entries <- insertDotted datum true path entries
          match skipBlanks afterValue with
          | ',' :: more => readInline steps depth entries more
          | '\x7d' :: remaining => return (entries, remaining)
          | _ => none
      | _ => none

end

/-- Read what a line says, up to its end or a comment. -/
def readStatement (document : Document) (text : List Char) :
    Option (Document × List Char) := do
  match text with
  | '[' :: '[' :: rest =>
      let (path, afterPath) <- readPath rest
      match afterPath with
      | ']' :: ']' :: remaining =>
          let document <- document.openElement path
          return (document, remaining)
      | _ => none
  | '[' :: rest =>
      let (path, afterPath) <- readPath rest
      match afterPath with
      | ']' :: remaining =>
          let document <- document.openTable path
          return (document, remaining)
      | _ => none
  | _ =>
      let (path, afterPath) <- readPath text
      match afterPath with
      | '=' :: rest =>
          let (datum, remaining) <-
            readValue (2 * rest.length + 1) (limit - 1) (skipBlanks rest)
          let document <- document.insert path datum
          return (document, remaining)
      | _ => none

/-- Read lines until the text ends. -/
def readLines : Nat -> Document -> List Char -> Option Document
  | 0, _, _ => none
  | steps + 1, document, text => do
      let start <- skipGaps (text.length + 1) text
      if start.isEmpty then return document
      else
        let (document, afterStatement) <- readStatement document start
        let rest <- skipComment (skipBlanks afterStatement)
        match splitLineEnd rest with
        | some nextLine => readLines steps document nextLine
        | none => if rest.isEmpty then return document else none

/-- Read a whole document as a record. A byte-order mark at its start is
skipped. -/
def parse (text : String) : Option Datum := do
  let characters :=
    match text.toList with
    | '\ufeff' :: rest => rest
    | characters => characters
  let document <- readLines (characters.length + 1) .empty characters
  return document.toDatum

end Toml
end StrategyGraph
