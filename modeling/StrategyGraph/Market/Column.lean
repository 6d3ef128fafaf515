/-!
# Price columns

The five columns of a price history.
-/

namespace StrategyGraph

/-- A column of a price history. -/
inductive Column where
  | opening
  | high
  | low
  | close
  | volume
  deriving DecidableEq, Repr, Inhabited

namespace Column

/-- Every column, in the order of a price history. -/
def all : List Column := [.opening, .high, .low, .close, .volume]

/-- Key of the series that holds the column. -/
def key : Column -> String
  | .opening => "open"
  | .high => "high"
  | .low => "low"
  | .close => "close"
  | .volume => "volume"

/-- Label in rendered conditions. -/
def label : Column -> String
  | .opening => "Open"
  | .high => "High"
  | .low => "Low"
  | .close => "Close"
  | .volume => "Volume"

/-- The column of a key. -/
def ofKey? (key : String) : Option Column :=
  all.find? fun column => column.key == key

theorem mem_all (column : Column) : column ∈ all := by
  cases column <;> decide

/-- Keys identify columns. -/
theorem ofKey?_key (column : Column) : ofKey? column.key = some column := by
  cases column <;> decide

end Column
end StrategyGraph
