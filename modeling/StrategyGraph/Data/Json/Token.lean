import StrategyGraph.Data.Datum
import StrategyGraph.Number.Rounding

/-!
# Tokens of JSON

Blanks, texts, numbers and fixed words. A text may escape half of a surrogate
pair and a number may lie beyond all doubles: both are well formed and
unreadable. Control characters in texts and superfluous zeros in numbers are
refused.

Readers take the characters that are left and give back what remains. Those of
texts also take a bound on the number of characters, and those of numbers how
they are rounded.
-/

namespace StrategyGraph
namespace Json

/-- Blank characters between tokens. -/
def isBlank (character : Char) : Bool :=
  character = ' ' || character = '\t' || character = '\n' || character = '\r'

/-- Drop leading blanks. -/
def skipBlanks (text : List Char) : List Char :=
  text.dropWhile isBlank

/-- Value of a hexadecimal digit in either case. -/
def hexValue? (character : Char) : Option Nat :=
  if isDigit character then some (digitValue character)
  else if 'a' <= character && character <= 'f' then
    some (character.toNat - 'a'.toNat + 10)
  else if 'A' <= character && character <= 'F' then
    some (character.toNat - 'A'.toNat + 10)
  else none

/-- Read four hexadecimal digits. -/
def readUnit : List Char -> Option (Nat × List Char)
  | first :: second :: third :: fourth :: rest => do
      let first <- hexValue? first
      let second <- hexValue? second
      let third <- hexValue? third
      let fourth <- hexValue? fourth
      return (((first * 16 + second) * 16 + third) * 16 + fourth, rest)
  | _ => none

/-- Read the second half of a surrogate pair, if it follows. -/
def readLowSurrogate? : List Char -> Option (Nat × List Char)
  | '\\' :: 'u' :: rest =>
      (readUnit rest).filter fun low => 0xDC00 <= low.1 && low.1 < 0xE000
  | _ => none

/-- Read the code units of one character after `\u`. Half of a surrogate pair is
no character. -/
def readCodePoint (text : List Char) : Option (Option Char × List Char) := do
  let (unit, rest) <- readUnit text
  if unit < 0xD800 || 0xE000 <= unit then return (some (Char.ofNat unit), rest)
  else if 0xDC00 <= unit then return (none, rest)
  else
    match readLowSurrogate? rest with
    | some (low, remaining) =>
        return (some (Char.ofNat (0x10000 + (unit - 0xD800) * 0x400 + (low - 0xDC00))),
          remaining)
    | none => return (none, rest)

/-- Read what follows a backslash in a text. -/
def readEscape : List Char -> Option (Option Char × List Char)
  | '\"' :: rest => some (some '\"', rest)
  | '\\' :: rest => some (some '\\', rest)
  | '/' :: rest => some (some '/', rest)
  | 'b' :: rest => some (some '\x08', rest)
  | 'f' :: rest => some (some '\x0c', rest)
  | 'n' :: rest => some (some '\n', rest)
  | 'r' :: rest => some (some '\r', rest)
  | 't' :: rest => some (some '\t', rest)
  | 'u' :: rest => readCodePoint rest
  | _ => none

/-- Read the characters of a text up to its closing quote. -/
def readText : Nat -> List Char -> Option (List (Option Char) × List Char)
  | 0, _ => none
  | _ + 1, [] => none
  | steps + 1, character :: rest =>
      if character = '\"' then some ([], rest)
      else if character = '\\' then do
        let (escaped, afterEscape) <- readEscape rest
        let (characters, remaining) <- readText steps afterEscape
        return (escaped :: characters, remaining)
      else if character.toNat < 0x20 then none
      else do
        let (characters, remaining) <- readText steps rest
        return (some character :: characters, remaining)

/-- The text of characters, if all of them are characters. -/
def textOf? (characters : List (Option Char)) : Option String :=
  (characters.mapM id).map String.ofList

/-- Read the digits after a decimal point; a point needs at least one. -/
def readFraction : List Char -> Option (List Char × List Char)
  | '.' :: rest =>
      let (fraction, remaining) := Decimal.splitDigits rest
      if fraction.isEmpty then none else some (fraction, remaining)
  | text => some ([], text)

/-- Whether a number goes on behind its digits, with a point or a power. -/
def continues : List Char -> Bool
  | character :: _ => character = '.' || character = 'e' || character = 'E'
  | [] => false

/-- Whether digits before the point are written without superfluous zeros. -/
def isPlainWhole : List Char -> Bool
  | [] => false
  | ['0'] => true
  | first :: _ => first != '0'

/-- A whole number. Negative zero is a double, since no integer is. -/
def integerOf (negative : Bool) (magnitude : Nat) : Datum :=
  if negative then
    if magnitude = 0 then .number (-0.0) else .integer (-Int.ofNat magnitude)
  else .integer (Int.ofNat magnitude)

/-- The number that a numeral stands for. Without point and power it is an integer
if it fits a machine word. Numbers beyond the largest double are unreadable. -/
def numberOf (rounding : Rounding) (isInteger : Bool) (numeral : Numeral) : Datum :=
  let (magnitude, skipped) := Numeral.appendFitting 0 numeral.whole
  if isInteger && skipped.isEmpty then integerOf numeral.negative magnitude
  else
    let value := numeral.toFloat rounding
    if value.isFinite then .number value else .unreadable

/-- Read a number. -/
def readNumber (rounding : Rounding) (text : List Char) :
    Option (Datum × List Char) := do
  let (negative, unsigned) :=
    match text with
    | '-' :: rest => (true, rest)
    | _ => (false, text)
  let (whole, afterWhole) := Decimal.splitDigits unsigned
  if !isPlainWhole whole then none
  else
    let (fraction, afterFraction) <- readFraction afterWhole
    let (power, remaining) <- Decimal.readPower afterFraction
    let numeral : Numeral := ⟨negative, whole, fraction, power⟩
    return (numberOf rounding (!continues afterWhole) numeral, remaining)

/-- Read a fixed word. -/
def readWord (word : List Char) (datum : Datum) (text : List Char) :
    Option (Datum × List Char) :=
  if word.isPrefixOf text then some (datum, text.drop word.length) else none

/-- Read a value that is neither a list nor a record. -/
def readScalar (rounding : Rounding) (steps : Nat) :
    List Char -> Option (Datum × List Char)
  | '\"' :: rest => do
      let (characters, remaining) <- readText steps rest
      return (((textOf? characters).map .text).getD .unreadable, remaining)
  | 't' :: rest => readWord "true".toList (.boolean true) ('t' :: rest)
  | 'f' :: rest => readWord "false".toList (.boolean false) ('f' :: rest)
  | 'n' :: rest => readWord "null".toList .null ('n' :: rest)
  | start => readNumber rounding start

end Json
end StrategyGraph
