import StrategyGraph.Data.Json.Token

/-!
# Scalars of TOML

Texts in their four written forms, and the bare words: truth values, integers
and floating-point numbers. Underscores may separate the digits of a number.

As in the JSON reader, readers take the characters that are left and give back
what remains.
-/

namespace StrategyGraph
namespace Toml

/-- Blanks within a line. -/
def isBlank (character : Char) : Bool :=
  character = ' ' || character = '\t'

/-- Drop blanks within a line. -/
def skipBlanks (text : List Char) : List Char :=
  text.dropWhile isBlank

/-- Control characters that may not be written literally; tabs may. -/
def isControl (character : Char) : Bool :=
  (character.toNat < 0x20 && character != '\t') || character.toNat = 0x7f

/-- Split off one line end. -/
def splitLineEnd : List Char -> Option (List Char)
  | '\n' :: rest => some rest
  | '\r' :: '\n' :: rest => some rest
  | _ => none

/-- The apostrophe, which encloses literal texts. -/
def apostrophe : Char := Char.ofNat 39

/-- The character of a code point, unless it is a surrogate or too large. -/
def ofCodePoint? (codePoint : Nat) : Option Char :=
  if codePoint < 0xD800 || (0xE000 <= codePoint && codePoint < 0x110000) then
    some (Char.ofNat codePoint)
  else none

/-- Read what follows a backslash in a basic text. -/
def readEscape : List Char -> Option (Char × List Char)
  | '\"' :: rest => some ('\"', rest)
  | '\\' :: rest => some ('\\', rest)
  | 'b' :: rest => some ('\x08', rest)
  | 'f' :: rest => some ('\x0c', rest)
  | 'n' :: rest => some ('\n', rest)
  | 'r' :: rest => some ('\r', rest)
  | 't' :: rest => some ('\t', rest)
  | 'u' :: rest => do
      let (unit, remaining) <- Json.readUnit rest
      let character <- ofCodePoint? unit
      return (character, remaining)
  | 'U' :: rest => do
      let (high, afterHigh) <- Json.readUnit rest
      let (low, remaining) <- Json.readUnit afterHigh
      let character <- ofCodePoint? (high * 0x10000 + low)
      return (character, remaining)
  | _ => none

/-- Read a basic text on one line, after its opening quote. -/
def readBasic : Nat -> List Char -> Option (List Char × List Char)
  | 0, _ => none
  | _ + 1, [] => none
  | steps + 1, character :: rest =>
      if character = '\"' then some ([], rest)
      else if character = '\\' then do
        let (escaped, afterEscape) <- readEscape rest
        let (characters, remaining) <- readBasic steps afterEscape
        return (escaped :: characters, remaining)
      else if isControl character then none
      else do
        let (characters, remaining) <- readBasic steps rest
        return (character :: characters, remaining)

/-- Read a literal text on one line, after its opening apostrophe. -/
def readLiteral : List Char -> Option (List Char × List Char)
  | [] => none
  | character :: rest =>
      if character = apostrophe then some ([], rest)
      else if isControl character then none
      else do
        let (characters, remaining) <- readLiteral rest
        return (character :: characters, remaining)

/-- Split off the end of a text over several lines: three closing marks, and
before them up to two marks that belong to the text. -/
def splitClosing (mark : Char) (text : List Char) : Option (List Char × List Char) :=
  let marks := (text.takeWhile (· = mark)).length
  if marks < 3 then none
  else
    let count := min marks 5
    some (List.replicate (count - 3) mark, text.drop count)

/-- Drop a line break that stands right after the opening marks. -/
def dropFirstLineEnd (text : List Char) : List Char :=
  (splitLineEnd text).getD text

/-- Drop blanks and line ends. -/
def skipLines : Nat -> List Char -> List Char
  | 0, text => text
  | steps + 1, text =>
      match splitLineEnd (skipBlanks text) with
      | some rest => skipLines steps rest
      | none => skipBlanks text

/-- Read a basic text over several lines. A backslash at the end of a line
joins it to the next text, without the blanks in between. -/
def readBasicLines : Nat -> List Char -> Option (List Char × List Char)
  | 0, _ => none
  | _ + 1, [] => none
  | steps + 1, character :: rest =>
      match splitClosing '\"' (character :: rest) with
      | some closing => some closing
      | none =>
          if character = '\\' then
            match splitLineEnd (skipBlanks rest) with
            | some nextLine => readBasicLines steps (skipLines nextLine.length nextLine)
            | none => do
                let (escaped, afterEscape) <- readEscape rest
                let (characters, remaining) <- readBasicLines steps afterEscape
                return (escaped :: characters, remaining)
          else
            match splitLineEnd (character :: rest) with
            | some nextLine => do
                let (characters, remaining) <- readBasicLines steps nextLine
                return ('\n' :: characters, remaining)
            | none =>
                if isControl character then none
                else do
                  let (characters, remaining) <- readBasicLines steps rest
                  return (character :: characters, remaining)

/-- Read a literal text over several lines. -/
def readLiteralLines : Nat -> List Char -> Option (List Char × List Char)
  | 0, _ => none
  | _ + 1, [] => none
  | steps + 1, character :: rest =>
      match splitClosing apostrophe (character :: rest) with
      | some closing => some closing
      | none =>
          match splitLineEnd (character :: rest) with
          | some nextLine => do
              let (characters, remaining) <- readLiteralLines steps nextLine
              return ('\n' :: characters, remaining)
          | none =>
              if isControl character then none
              else do
                let (characters, remaining) <- readLiteralLines steps rest
                return (character :: characters, remaining)

/-- Whether a text starts with a mark three times. -/
def startsTriple (mark : Char) (text : List Char) : Bool :=
  [mark, mark, mark].isPrefixOf text

/-- Read a text in any of its four forms, if one starts here. -/
def readText (text : List Char) : Option (List Char × List Char) :=
  if startsTriple '\"' text then
    readBasicLines text.length (dropFirstLineEnd (text.drop 3))
  else if startsTriple apostrophe text then
    readLiteralLines text.length (dropFirstLineEnd (text.drop 3))
  else
    match text with
    | mark :: rest =>
        if mark = '\"' then readBasic text.length rest
        else if mark = apostrophe then readLiteral rest
        else none
    | [] => none

/-- The digits of a number without its underscores. Each underscore has to
stand between two digits. -/
def plainDigits? (accepts : Char -> Bool) : List Char -> Option (List Char)
  | [] => none
  | [digit] => if accepts digit then some [digit] else none
  | digit :: '_' :: rest =>
      if accepts digit then (plainDigits? accepts rest).map (digit :: ·) else none
  | digit :: rest =>
      if accepts digit then (plainDigits? accepts rest).map (digit :: ·) else none

/-- Number written by digits of a base. -/
def natOfBase (base : Nat) (digits : List Char) : Option Nat :=
  digits.foldlM
    (fun total digit => do
      let value <- Json.hexValue? digit
      if value < base then return base * total + value else none)
    0

/-- Bound of the integers that fit a signed word of 64 bits: they lie from its
negative upwards and below it. -/
def integerBound : Int :=
  Int.ofNat (Nat.pow 2 63)

/-- An integer, if it fits a signed word of 64 bits. -/
def boundedInteger? (value : Int) : Option Datum :=
  if -integerBound <= value && value < integerBound then some (.integer value) else none

/-- Read a number in a base other than ten. -/
def basedInteger? (base : Nat) (digits : List Char) : Option Datum := do
  let plain <- plainDigits? (fun digit => (Json.hexValue? digit).isSome) digits
  let value <- natOfBase base plain
  boundedInteger? (Int.ofNat value)

/-- Read the rest of a bare word as a power of ten, which is zero if nothing is
left. -/
def power? : List Char -> Option Int
  | [] => some 0
  | letter :: rest => do
      if letter = 'e' || letter = 'E' then
        let (negative, digitText) := Decimal.splitSign rest
        let digits <- plainDigits? isDigit digitText
        let power := Int.ofNat (natOfDigits digits)
        return if negative then -power else power
      else none

/-- Read a bare word as a floating-point number. Positive numbers beyond the
largest double are refused. -/
def float? (negative : Bool) (unsigned : List Char) : Option Datum := do
  let (wholeText, afterWhole) :=
    unsigned.span fun character => isDigit character || character = '_'
  let whole <- plainDigits? isDigit wholeText
  if !Json.isPlainWhole whole then none
  else
    let (fractionText, afterFraction) :=
      match afterWhole with
      | '.' :: rest =>
          rest.span fun character => isDigit character || character = '_'
      | rest => (['0'], rest)
    let fraction <- plainDigits? isDigit fractionText
    let power <- power? afterFraction
    let value := (Decimal.ofParts negative whole fraction power).toFloat
    if value.isInf && !negative then none else some (.number value)

/-- Read a bare word as a truth value or a number. -/
def bareWord? (word : List Char) : Option Datum :=
  if word = "true".toList then some (.boolean true)
  else if word = "false".toList then some (.boolean false)
  else
    match word with
    | '0' :: 'x' :: digits => basedInteger? 16 digits
    | '0' :: 'o' :: digits => basedInteger? 8 digits
    | '0' :: 'b' :: digits => basedInteger? 2 digits
    | _ =>
        let (negative, unsigned) := Decimal.splitSign word
        if unsigned = "inf".toList then
          some (.number (Binary64.ofMagnitude negative Binary64.infinityBits))
        else if unsigned = "nan".toList then some (.number (0.0 / 0.0))
        else
          match plainDigits? isDigit unsigned with
          | some digits =>
              if Json.isPlainWhole digits then
                let magnitude := Int.ofNat (natOfDigits digits)
                boundedInteger? (if negative then -magnitude else magnitude)
              else none
          | none => float? negative unsigned

end Toml
end StrategyGraph
