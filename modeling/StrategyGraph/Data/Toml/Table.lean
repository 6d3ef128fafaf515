import StrategyGraph.Data.Datum

/-!
# Tables of TOML

The tables of a document may be built up in several places, within limits: a
header may complete a table that was only mentioned before, dotted keys may
extend tables that dotted keys created, and inline tables are closed. No key is
given twice.

An entry that breaks these rules makes the whole document invalid, so every
change is optional.
-/

namespace StrategyGraph
namespace Toml

/-- How a table came to be. -/
inductive Origin where
  /-- Mentioned on the way to a deeper header. -/
  | mentioned
  /-- Created by a dotted key. -/
  | dotted
  /-- Opened by a header of its own. -/
  | header
  deriving DecidableEq

/-- An entry of a table under construction. -/
inductive Item where
  | value (datum : Datum)
  | table (origin : Origin) (entries : List (String × Item))
  | tables (elements : List (List (String × Item)))

mutual

/-- The finished form of an entry. -/
def Item.toDatum : Item -> Datum
  | .value datum => datum
  | .table _ entries => .record (entriesDatum entries)
  | .tables elements => .list (elementsDatum elements)

/-- The finished form of the entries of a table. -/
def entriesDatum : List (String × Item) -> List (String × Datum)
  | [] => []
  | (key, item) :: entries => (key, item.toDatum) :: entriesDatum entries

/-- The finished form of an array of tables. -/
def elementsDatum : List (List (String × Item)) -> List Datum
  | [] => []
  | entries :: elements => .record (entriesDatum entries) :: elementsDatum elements

end

/-- Change the entry of a key, or add one; the change sees the present entry. -/
def update (key : String) (change : Option Item -> Option Item) :
    List (String × Item) -> Option (List (String × Item))
  | [] => (change none).map fun item => [(key, item)]
  | entry :: rest =>
      if entry.1 = key then (change (some entry.2)).map fun item => (key, item) :: rest
      else (update key change rest).map (entry :: ·)

/-- Change the last element of a list. -/
def updateLast (change : Value -> Option Value) : List Value -> Option (List Value)
  | [] => none
  | [last] => (change last).map ([·])
  | first :: rest => (updateLast change rest).map (first :: ·)

/-- Add a value under a dotted key. New tables on the way count as created by the
dotted key. Tables that are there may not have been opened by a header, and a
value is put only into a table that dotted keys created. In an array of tables
the key leads into the last element. `accepts` says whether a value may be put
here. -/
def insertDotted (datum : Datum) :
    Bool -> List String -> List (String × Item) -> Option (List (String × Item))
  | _, [], _ => none
  | accepts, [key], entries =>
      update key
        (fun present => if accepts && present.isNone then some (.value datum) else none)
        entries
  | _, key :: path, entries =>
      update key
        (fun present =>
          match present with
          | none => (insertDotted datum true path []).map (.table .dotted)
          | some (.table .dotted inner) =>
              (insertDotted datum true path inner).map (.table .dotted)
          | some (.table .mentioned inner) =>
              (insertDotted datum false path inner).map (.table .mentioned)
          | some (.tables elements) =>
              (updateLast (insertDotted datum false path) elements).map .tables
          | some (.table .header _) | some (.value _) => none)
        entries

/-- Change the entry at the end of a path, mentioning tables on the way. In an
array of tables the path leads into the last element. -/
def updateAt (change : Option Item -> Option Item) :
    List String -> List (String × Item) -> Option (List (String × Item))
  | [], _ => none
  | [key], entries => update key change entries
  | key :: path, entries =>
      update key
        (fun present =>
          match present with
          | none => (updateAt change path []).map (.table .mentioned)
          | some (.table origin inner) =>
              (updateAt change path inner).map (.table origin)
          | some (.tables elements) =>
              (updateLast (updateAt change path) elements).map .tables
          | some (.value _) => none)
        entries

/-- Open the table of a header, which may only have been mentioned before. -/
def openTable : Option Item -> Option Item
  | none => some (.table .header [])
  | some (.table .mentioned entries) => some (.table .header entries)
  | _ => none

/-- Open a new element of an array of tables. -/
def openElement : Option Item -> Option Item
  | none => some (.tables [[]])
  | some (.tables elements) => some (.tables (elements ++ [[]]))
  | _ => none

/-- Add a value to the table that was opened last. -/
def insertInto (path : List String) (datum : Datum) : Option Item -> Option Item
  | some (.table origin entries) =>
      (insertDotted datum true path entries).map (.table origin)
  | some (.tables elements) =>
      (updateLast (insertDotted datum true path) elements).map .tables
  | _ => none

/-- A document in part: its entries and the path of the table that was opened
last. -/
structure Document where
  entries : List (String × Item)
  opened : List String

namespace Document

/-- The document without any entries. -/
def empty : Document := ⟨[], []⟩

/-- Add a value to the table opened last, or to the document itself. -/
def insert (document : Document) (path : List String) (datum : Datum) :
    Option Document := do
  let entries <-
    match document.opened with
    | [] => insertDotted datum true path document.entries
    | opened => updateAt (insertInto path datum) opened document.entries
  return { document with entries }

/-- Open the table or array element of a header. -/
def open? (document : Document) (change : Option Item -> Option Item)
    (path : List String) : Option Document := do
  let entries <- updateAt change path document.entries
  return ⟨entries, path⟩

/-- Open the table of a header. -/
def openTable (document : Document) (path : List String) : Option Document :=
  document.open? Toml.openTable path

/-- Open a new element of the array of tables of a header. -/
def openElement (document : Document) (path : List String) : Option Document :=
  document.open? Toml.openElement path

/-- The finished document, a record. -/
def toDatum (document : Document) : Datum :=
  .record (entriesDatum document.entries)

end Document

end Toml
end StrategyGraph
