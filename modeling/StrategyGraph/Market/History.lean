import StrategyGraph.Data.Csv
import StrategyGraph.Market.SeriesSet
import StrategyGraph.Number.Text

/-!
# Price histories

A history is read from a table with a header. The columns of a price history
are found by their names, in any order and case. Every other column holds the
values of an indicator series, with its header as key. Empty cells and `nan`
stand for missing numbers.

Rows are read one at a time and have to be in the order of their dates. The
first fault ends the reading.
-/

namespace StrategyGraph

/-- Bars with the series that a strategy runs on. -/
structure History where
  bars : List Bar
  series : SeriesSet Float

/-- Why a history cannot be read. -/
inductive HistoryError where
  /-- A record has another number of fields than the header. -/
  | unequalLengths (row : Nat) (location : Csv.Location) (expected found : Nat)
  /-- A text is not in UTF-8. Where it stands is not kept, so the wording names no place. -/
  | invalidText
  | missingColumn (name : String)
  | invalidValue (row : Nat) (column value : String)
  | unsorted (row : Nat) (date : Date)
  | empty
  deriving DecidableEq

namespace HistoryError

/-- Wording of a failure. -/
def message : HistoryError -> String
  | .unequalLengths row location expected found =>
      "CSV error: record " ++ row.repr ++ " (line: " ++ location.line.repr ++
        ", byte: " ++ location.byte.repr ++ "): found record with " ++ found.repr ++
        " fields, but the previous record has " ++ expected.repr ++ " fields"
  | .invalidText => "found a field that is not valid UTF-8"
  | .missingColumn name => "missing required column `" ++ name ++ "`"
  | .invalidValue row column value =>
      "row " ++ row.repr ++ ": column `" ++ column ++ "` has invalid value `" ++
        value ++ "`"
  | .unsorted row date =>
      "row " ++ row.repr ++ ": date " ++ date.text ++ " is not after the previous bar"
  | .empty => "no bars in input"

end HistoryError

namespace History

/-- Cells of a row or of the header, without blanks around them. -/
abbrev Cells := List (List Char)

/-- A letter case independent form of a name. -/
def foldCase (name : List Char) : List Char :=
  name.map Char.toLower

/-- Name of the column with the dates. -/
def dateName : String := "date"

/-- Position of the first column with a name. -/
def position? (header : Cells) (name : String) : Except HistoryError Nat :=
  match header.findIdx? fun cell => foldCase cell = foldCase name.toList with
  | some position => .ok position
  | none => .error (.missingColumn name)

/-- Where the header puts everything. -/
structure Layout where
  header : Cells
  date : Nat
  /-- Position of each price column. -/
  prices : List (Column × Nat)
  /-- Positions of all other columns. -/
  extras : List Nat

namespace Layout

/-- Find the columns that a header names. -/
def ofHeader (header : Cells) : Except HistoryError Layout := do
  let date <- position? header dateName
  let prices <- Column.all.mapM fun column => do
    let position <- position? header column.key
    return (column, position)
  let taken := date :: prices.map Prod.snd
  let extras := (List.range header.length).filter fun position =>
    !taken.contains position
  return { header, date, prices, extras }

/-- Name of the column at a position. -/
def nameAt (layout : Layout) (position : Nat) : String :=
  String.ofList (layout.header.getD position [])

end Layout

/-- What a row holds. -/
structure Row where
  bar : Bar
  /-- Values of the other columns, in their order. -/
  extras : List Float

/-- Read the number in a cell. -/
def readNumber (cell : List Char) : Option Float :=
  if cell.isEmpty || foldCase cell = "nan".toList then some (0.0 / 0.0)
  else Decimal.readFloat cell

/-- Read the number of a row at a position. -/
def numberAt (layout : Layout) (row : Nat) (cells : Cells) (position : Nat) :
    Except HistoryError Float :=
  let cell := cells.getD position []
  match readNumber cell with
  | some number => .ok number
  | none => .error (.invalidValue row (layout.nameAt position) (String.ofList cell))

/-- Read the date of a row, which has to be after the one before. -/
def dateAt (layout : Layout) (row : Nat) (previous : Option Date) (cells : Cells) :
    Except HistoryError Date :=
  let cell := cells.getD layout.date []
  match Date.read? Blank.isBlank cell with
  | none => .error (.invalidValue row (layout.nameAt layout.date) (String.ofList cell))
  | some date =>
      if previous.all fun earlier => earlier.isBefore date then .ok date
      else .error (.unsorted row date)

/-- The bar of a date with its numbers by column. -/
def barOf (date : Date) (numbers : List (Column × Float)) : Bar :=
  let number (column : Column) : Float := (numbers.lookup column).getD (0.0 / 0.0)
  { date
    opening := number .opening
    high := number .high
    low := number .low
    close := number .close
    volume := number .volume }

/-- Read the cells of a row. -/
def readCells (layout : Layout) (row : Nat) (previous : Option Date) (cells : Cells) :
    Except HistoryError Row := do
  let date <- dateAt layout row previous cells
  let numbers <- layout.prices.mapM fun entry => do
    let number <- numberAt layout row cells entry.2
    return (entry.1, number)
  let extras <- layout.extras.mapM (numberAt layout row cells)
  return { bar := barOf date numbers, extras }

/-- Cells of a record with as many fields as the header. -/
def cellsOf (layout : Layout) (row : Nat) (record : Csv.Record) :
    Except HistoryError Cells :=
  let expected := layout.header.length
  let found := record.fields.length
  if found = expected then
    match Csv.decode record.fields with
    | some cells => .ok cells
    | none => .error .invalidText
  else .error (.unequalLengths row record.location expected found)

/-- Read rows from records, the first of them in row `row`. -/
def readRows (layout : Layout) :
    Nat -> Option Date -> List Csv.Record -> Except HistoryError (List Row)
  | _, _, [] => .ok []
  | row, previous, record :: records => do
      let cells <- cellsOf layout row record
      let first <- readCells layout row previous cells
      let rest <- readRows layout (row + 1) (some first.bar.date) records
      return first :: rest

/-- Put the values of all other columns into the set of the price columns. Of
columns with one name the last counts. -/
def seriesOf (layout : Layout) (rows : List Row) : SeriesSet Float :=
  (layout.extras.mapIdx fun index position =>
    (layout.nameAt position,
      rows.map fun row => row.extras.getD index (0.0 / 0.0))).foldl
    (fun set entry => set.insert entry.1 entry.2.toArray)
    (.ofBars (rows.map Row.bar))

/-- Read a history from the records of a table, header first. -/
def ofRecords (records : List Csv.Record) : Except HistoryError History := do
  match Csv.decode ((records.head?.map Csv.Record.fields).getD []) with
  | none => .error .invalidText
  | some header =>
      let layout <- Layout.ofHeader header
      let rows <- readRows layout 1 none records.tail
      if rows.isEmpty then .error .empty
      else return { bars := rows.map Row.bar, series := seriesOf layout rows }

/-- Read a history from the bytes of a table. -/
def read (bytes : List Csv.Byte) : Except HistoryError History :=
  ofRecords (Csv.records bytes)

end History
end StrategyGraph
