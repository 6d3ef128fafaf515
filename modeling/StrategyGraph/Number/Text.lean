import StrategyGraph.Number.Shortest

/-!
# Texts of numbers

Two forms are written. The display form, used in series keys, reports and
messages, is always positional and has no fractional part when the number is
whole. The data form, used in JSON, keeps a fractional part and changes to a
power of ten for magnitudes below `10 ^ -5` or from `10 ^ 16` upwards.
-/

namespace StrategyGraph

/-- Decisions of a written form that do not follow from the number itself. -/
structure NumberFormat where
  /-- Rule for a value between two shortest candidates. -/
  tie : Tie
  /-- Whether a whole number ends in `.0`. -/
  keepsFraction : Bool
  /-- Decimal magnitudes written positionally: the position of the point
  relative to the first digit lies between these bounds. No bounds mean that
  every number is written positionally. -/
  positional : Option (Int × Int)

namespace NumberFormat

/-- The form of series keys, reports and messages. -/
def display : NumberFormat where
  tie := .up
  keepsFraction := false
  positional := none

/-- The form of JSON numbers. -/
def data : NumberFormat where
  tie := .even
  keepsFraction := true
  positional := some (-4, 16)

end NumberFormat

namespace NumberText

/-- A list of zeros. -/
def zeros (count : Nat) : List Char :=
  List.replicate count '0'

/-- Digits with a point after the first `point` of them, padded with zeros on
either side where the point lies outside the digits. -/
def positional (keepsFraction : Bool) (digits : List Char) (point : Int) : List Char :=
  let length := Int.ofNat digits.length
  if point <= 0 then
    '0' :: '.' :: (zeros point.natAbs ++ digits)
  else if length <= point then
    digits ++ zeros (point - length).natAbs ++
      (if keepsFraction then ['.', '0'] else [])
  else
    digits.take point.natAbs ++ '.' :: digits.drop point.natAbs

/-- Digits with a point after the first one, and the power of ten that the
point position stands for. -/
def scientific (digits : List Char) (point : Int) : List Char :=
  let power := point - 1
  let mantissa :=
    match digits with
    | first :: second :: rest => first :: '.' :: second :: rest
    | short => short
  mantissa ++
    'e' :: (if power < 0 then '-' else '+') :: Decimal.digitsOf power.natAbs

/-- Text of the magnitude of a decimal in a given form. -/
def ofMagnitude (format : NumberFormat) (decimal : Decimal) : List Char :=
  if decimal.digits = 0 then
    '0' :: (if format.keepsFraction then ['.', '0'] else [])
  else
    let digits := Decimal.digitsOf decimal.digits
    let point := Int.ofNat digits.length + decimal.exponent
    match format.positional with
    | none => positional format.keepsFraction digits point
    | some (low, high) =>
        if low <= point && point <= high then
          positional format.keepsFraction digits point
        else
          scientific digits point

/-- Text of a decimal in a given form, with a minus sign where needed. -/
def ofDecimal (format : NumberFormat) (decimal : Decimal) : List Char :=
  if decimal.negative then '-' :: ofMagnitude format decimal
  else ofMagnitude format decimal

/-- Text of a finite double in a given form. -/
def ofFinite (format : NumberFormat) (x : Float) : List Char :=
  ofDecimal format (Shortest.ofFloat format.tie x)

/-- Whole numbers below this bound are written digit by digit. -/
def wholeBound : Nat := Nat.pow 10 15

/-- Display form of a double: whole numbers without a fractional part, all
others with the fewest digits that read back, special values by name. -/
def display (x : Float) : String :=
  if x.isNaN then "NaN"
  else if !x.isFinite then
    if Binary64.isNegative x then "-inf" else "inf"
  else if Binary64.isWhole x && Binary64.integerPart x < wholeBound then
    String.ofList
      ((if Binary64.isNegative x then ['-'] else []) ++
        Decimal.digitsOf (Binary64.integerPart x))
  else
    String.ofList (ofFinite .display x)

/-- Data form of a finite double. -/
def data (x : Float) : String :=
  String.ofList (ofFinite .data x)

end NumberText
end StrategyGraph
