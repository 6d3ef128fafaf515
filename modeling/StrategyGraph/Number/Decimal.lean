import StrategyGraph.Number.Binary64

/-!
# Decimal numbers

A decimal is a signed whole number of digits times a power of ten. Every
notation this library reads (graph and configuration files, market data)
yields decimals, and `Decimal.toFloat` gives the double nearest to one.
-/

namespace StrategyGraph

/-- A signed decimal, `digits * 10 ^ exponent`. -/
structure Decimal where
  negative : Bool
  digits : Nat
  exponent : Int
  deriving DecidableEq, Repr

namespace Decimal

/-- Decimal digits of a natural number, most significant first. -/
def digitsOf (n : Nat) : List Char :=
  Nat.toDigits 10 n

/-- Number of decimal digits of a natural number. -/
def digitCount (n : Nat) : Nat :=
  (digitsOf n).length

/-- Numerator and denominator of the magnitude. -/
def ratio (decimal : Decimal) : Nat × Nat :=
  if 0 <= decimal.exponent then
    (decimal.digits * Nat.pow 10 decimal.exponent.natAbs, 1)
  else
    (decimal.digits, Nat.pow 10 decimal.exponent.natAbs)

/-- Magnitude pattern of the nearest double. Decimals with more than 310
digits before the point are infinite, and those with at least 330 zeros after
it are zero, so no power of ten larger than the digits themselves is formed. -/
def nearestBits (decimal : Decimal) : Nat :=
  let magnitude := decimal.exponent + Int.ofNat (digitCount decimal.digits)
  if decimal.digits = 0 then 0
  else if 310 < magnitude then Binary64.infinityBits
  else if magnitude < -330 then 0
  else
    let (numerator, denominator) := decimal.ratio
    Binary64.nearestBits numerator denominator

/-- The double nearest to a decimal. -/
def toFloat (decimal : Decimal) : Float :=
  Binary64.ofMagnitude decimal.negative decimal.nearestBits

end Decimal

/-- A decimal digit, `0` to `9`. -/
def isDigit (character : Char) : Bool :=
  '0' <= character && character <= '9'

/-- Value of a decimal digit. -/
def digitValue (character : Char) : Nat :=
  character.toNat - '0'.toNat

/-- Number written by a list of decimal digits. -/
def natOfDigits (digits : List Char) : Nat :=
  digits.foldl (fun total digit => 10 * total + digitValue digit) 0

namespace Decimal

/-- The decimal written by its digits before the point, its digits after the
point and the power of ten that follows. -/
def ofParts
    (negative : Bool)
    (whole fraction : List Char)
    (power : Int) : Decimal where
  negative := negative
  digits := natOfDigits (whole ++ fraction)
  exponent := power - Int.ofNat fraction.length

/-- Split off an optional sign; the flag says whether it was a minus. -/
def splitSign : List Char -> Bool × List Char
  | '-' :: rest => (true, rest)
  | '+' :: rest => (false, rest)
  | rest => (false, rest)

/-- Split a text into its leading decimal digits and the rest. -/
def splitDigits (text : List Char) : List Char × List Char :=
  text.span isDigit

/-- Read an optional power of ten: `e` or `E`, an optional sign and at least
one digit. A text that does not start with the letter has power zero. -/
def readPower (text : List Char) : Option (Int × List Char) :=
  match text with
  | letter :: rest =>
      if letter = 'e' || letter = 'E' then
        let (negative, unsigned) := splitSign rest
        let (digits, remaining) := splitDigits unsigned
        if digits.isEmpty then none
        else
          let power := Int.ofNat (natOfDigits digits)
          some (if negative then -power else power, remaining)
      else some (0, text)
  | [] => some (0, [])

/-- Split off the digits after a decimal point, if there is a point. -/
def splitFraction : List Char -> List Char × List Char
  | '.' :: rest => splitDigits rest
  | text => ([], text)

/-- Read a whole text as a number: an optional sign, then `inf`, `infinity`
or `nan` in any case, or digits with an optional point and power of ten. At
least one digit stands before or after the point. -/
def readFloat (text : List Char) : Option Float :=
  let (negative, unsigned) := splitSign text
  let lower := unsigned.map Char.toLower
  if lower = "inf".toList || lower = "infinity".toList then
    some (Binary64.ofMagnitude negative Binary64.infinityBits)
  else if lower = "nan".toList then
    some (0.0 / 0.0)
  else
    let (whole, afterWhole) := splitDigits unsigned
    let (fraction, afterFraction) := splitFraction afterWhole
    if whole.isEmpty && fraction.isEmpty then none
    else
      match readPower afterFraction with
      | some (power, []) =>
          some (ofParts negative whole fraction power).toFloat
      | _ => none

end Decimal
end StrategyGraph
