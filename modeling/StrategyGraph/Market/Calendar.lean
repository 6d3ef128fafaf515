import StrategyGraph.Number.Decimal

/-!
# Calendar dates

Dates of the proleptic Gregorian calendar. They are read as year, month and day
separated by hyphens, with up to four digits for an unsigned year and two for
month and day. A signed year may have more digits.
-/

namespace StrategyGraph

/-- A date of the proleptic Gregorian calendar. -/
structure Date where
  year : Int
  month : Nat
  day : Nat
  deriving DecidableEq, Repr, Inhabited

namespace Date

/-- First year that can be represented. -/
def firstYear : Int := -262143

/-- Last year that can be represented. -/
def lastYear : Int := 262142

/-- Whether a year has a 29th of February. -/
def isLeapYear (year : Int) : Bool :=
  year % 4 = 0 && (year % 100 != 0 || year % 400 = 0)

/-- Number of days in a month, zero for what is not a month. -/
def daysInMonth (year : Int) (month : Nat) : Nat :=
  match month with
  | 1 | 3 | 5 | 7 | 8 | 10 | 12 => 31
  | 4 | 6 | 9 | 11 => 30
  | 2 => if isLeapYear year then 29 else 28
  | _ => 0

/-- The date of a year, a month and a day, if the calendar has it. -/
def ofParts? (year : Int) (month day : Nat) : Option Date :=
  if firstYear <= year && year <= lastYear && 1 <= day && day <= daysInMonth year month
  then some { year, month, day }
  else none

/-- Whether a date is before another. -/
def isBefore (left right : Date) : Bool :=
  left.year < right.year ||
    (left.year = right.year &&
      (left.month < right.month ||
        (left.month = right.month && left.day < right.day)))

/-- Split off at least one and at most `width` digits. -/
def splitNumber (width : Nat) (text : List Char) : Option (Nat × List Char) :=
  let digits := (text.takeWhile isDigit).take width
  if digits.isEmpty then none
  else some (natOfDigits digits, text.drop digits.length)

/-- Read a year: a signed one of any length or up to four digits. -/
def readYear (text : List Char) : Option (Int × List Char) :=
  match text with
  | '-' :: rest =>
      (splitNumber rest.length rest).map fun (year, remaining) =>
        (-Int.ofNat year, remaining)
  | '+' :: rest =>
      (splitNumber rest.length rest).map fun (year, remaining) =>
        (Int.ofNat year, remaining)
  | _ =>
      (splitNumber 4 text).map fun (year, remaining) => (Int.ofNat year, remaining)

/-- Drop the white space given by a character class. -/
def skip (isBlank : Char -> Bool) (text : List Char) : List Char :=
  text.dropWhile isBlank

/-- Read a hyphen. -/
def readHyphen : List Char -> Option (List Char)
  | '-' :: rest => some rest
  | _ => none

/-- Read a whole text as a date. White space may stand before each number. -/
def read? (isBlank : Char -> Bool) (text : List Char) : Option Date := do
  let (year, afterYear) <- readYear (skip isBlank text)
  let beforeMonth <- readHyphen afterYear
  let (month, afterMonth) <- splitNumber 2 (skip isBlank beforeMonth)
  let beforeDay <- readHyphen afterMonth
  let (day, remaining) <- splitNumber 2 (skip isBlank beforeDay)
  if remaining.isEmpty then ofParts? year month day else none

/-- A number with zeros in front up to a width. -/
def padded (width : Nat) (n : Nat) : List Char :=
  let digits := Decimal.digitsOf n
  List.replicate (width - digits.length) '0' ++ digits

/-- Written form of a year: four digits, with a sign where it has another length
or is negative. -/
def yearText (year : Int) : List Char :=
  if 0 <= year && year <= 9999 then padded 4 year.natAbs
  else (if year < 0 then '-' else '+') :: padded 4 year.natAbs

/-- Written form of a date. -/
def text (date : Date) : String :=
  String.ofList
    (yearText date.year ++ '-' :: padded 2 date.month ++ '-' :: padded 2 date.day)

end Date
end StrategyGraph
