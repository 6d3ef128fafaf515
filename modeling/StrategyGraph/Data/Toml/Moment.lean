import StrategyGraph.Data.Datum
import StrategyGraph.Number.Decimal

/-!
# Moments in TOML

Dates, times and dates with times, the latter with an optional distance from
universal time. No setting is a moment, so only their form is checked. A moment
is held as a record of one member that no layout knows.
-/

namespace StrategyGraph
namespace Toml

/-- Read two digits whose value lies within bounds. -/
def readPair (low high : Nat) : List Char -> Option (Nat × List Char)
  | tens :: ones :: rest =>
      let value := natOfDigits [tens, ones]
      if isDigit tens && isDigit ones && low <= value && value <= high then
        some (value, rest)
      else none
  | _ => none

/-- Read a fixed character. -/
def readMark (mark : Char) : List Char -> Option (List Char)
  | character :: rest => if character = mark then some rest else none
  | [] => none

/-- Number of days of a month. -/
def daysOfMonth (year month : Nat) : Nat :=
  if month = 2 then
    if year % 4 = 0 && (year % 100 != 0 || year % 400 = 0) then 29 else 28
  else if [4, 6, 9, 11].contains month then 30
  else 31

/-- Read a date: year, month and day. -/
def readDate (text : List Char) : Option (List Char) := do
  let (century, afterCentury) <- readPair 0 99 text
  let (rest, afterYear) <- readPair 0 99 afterCentury
  let (month, afterMonth) <- readPair 1 12 (<- readMark '-' afterYear)
  let (_, remaining) <- readPair 1 (daysOfMonth (100 * century + rest) month)
    (<- readMark '-' afterMonth)
  return remaining

/-- Read an optional fraction of a second. -/
def readSecondFraction (text : List Char) : List Char :=
  match Decimal.splitFraction text with
  | ([], _) => text
  | (_, remaining) => remaining

/-- Read a time: hour, minute and second. A minute may have a leap second. -/
def readTime (text : List Char) : Option (List Char) := do
  let (_, afterHour) <- readPair 0 23 text
  let (_, afterMinute) <- readPair 0 59 (<- readMark ':' afterHour)
  let (_, afterSecond) <- readPair 0 60 (<- readMark ':' afterMinute)
  return readSecondFraction afterSecond

/-- Read an optional distance from universal time. -/
def readZone (text : List Char) : Option (List Char) :=
  match text with
  | [] => some []
  | mark :: rest =>
      if mark = 'Z' || mark = 'z' then some rest
      else if mark = '+' || mark = '-' then do
        let (_, afterHour) <- readPair 0 23 rest
        let (_, remaining) <- readPair 0 59 (<- readMark ':' afterHour)
        return remaining
      else some text

/-- Whether a character stands between a date and a time. -/
def dividesMoment (character : Char) : Bool :=
  character = 'T' || character = 't' || character = ' '

/-- Read a moment that starts with a date. What follows the date need not be a
time. -/
def readDatedMoment (text : List Char) : Option (List Char) := do
  let afterDate <- readDate text
  match afterDate with
  | [] => return []
  | divider :: rest =>
      if dividesMoment divider then
        match readTime rest with
        | some afterTime => readZone afterTime
        | none => return afterDate
      else return afterDate

/-- Read a moment, if one starts here. -/
def readMoment (text : List Char) : Option (Datum × List Char) :=
  let remaining? := readDatedMoment text <|> readTime text
  remaining?.map fun remaining =>
    let written := text.take (text.length - remaining.length)
    (.record [("moment", .text (String.ofList written))], remaining)

end Toml
end StrategyGraph
