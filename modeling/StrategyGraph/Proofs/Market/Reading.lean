import StrategyGraph.Market.History
import StrategyGraph.Proofs.Outcome

/-!
# Accepted tables

What it means that a table is read as a price history: the header puts every column at a
position, the first with its name in any case, and every record has in its cells the
numbers of its row.
-/

namespace StrategyGraph
namespace History

/-- Whether a cell of a header is a name, in any case. -/
def Names (cell : List Char) (name : String) : Prop :=
  foldCase cell = foldCase name.toList

instance {cell : List Char} {name : String} : Decidable (Names cell name) :=
  inferInstanceAs (Decidable (_ = _))

/-- The header of a table, if it is in UTF-8. -/
def header? (records : List Csv.Record) : Option Cells :=
  Csv.decode ((records.head?.map Csv.Record.fields).getD [])

/-! ## The header -/

/-- A name stands at a position of a header and nowhere before it. -/
structure FirstNamed (header : Cells) (name : String) (position : Nat) : Prop where
  names : ∃ cell, header[position]? = some cell ∧ Names cell name
  first : ∀ earlier < position, ∀ cell, header[earlier]? = some cell -> ¬ Names cell name

theorem position_eq_ok_iff {header : Cells} {name : String} {position : Nat} :
    position? header name = .ok position ↔ FirstNamed header name position := by
  have found : header.findIdx? (fun cell => decide (foldCase cell = foldCase name.toList)) =
      some position ↔ FirstNamed header name position := by
    rw [List.findIdx?_eq_some_iff_getElem]
    constructor
    · rintro ⟨bound, names, first⟩
      refine ⟨⟨header[position], List.getElem?_eq_getElem bound, of_decide_eq_true names⟩, ?_⟩
      intro earlier before cell isCell same
      obtain ⟨earlierBound, rfl⟩ := List.getElem?_eq_some_iff.1 isCell
      exact first earlier before (decide_eq_true same)
    · rintro ⟨⟨cell, isCell, names⟩, first⟩
      obtain ⟨bound, rfl⟩ := List.getElem?_eq_some_iff.1 isCell
      refine ⟨bound, decide_eq_true names, fun earlier before same => ?_⟩
      exact first earlier before _ (List.getElem?_eq_getElem _) (of_decide_eq_true same)
  rw [← found, position?]
  cases header.findIdx? (fun cell => decide (foldCase cell = foldCase name.toList)) with
  | none => simp
  | some other => simp

/-- What is known of the layout of an accepted header. -/
structure LaysOut (header : Cells) (layout : Layout) : Prop where
  header_eq : layout.header = header
  date : FirstNamed header dateName layout.date
  prices : List.Forall₂
    (fun column entry => entry.1 = column ∧ FirstNamed header column.key entry.2)
    Column.all layout.prices
  extras : layout.extras = (List.range header.length).filter fun position =>
    !(layout.date :: layout.prices.map Prod.snd).contains position

theorem laysOut_of_ofHeader
    {header : Cells}
    {layout : Layout}
    (found : Layout.ofHeader header = .ok layout) :
    LaysOut header layout := by
  obtain ⟨date, isDate, found⟩ := Outcome.bind_eq_ok_iff.1 found
  obtain ⟨prices, arePrices, found⟩ := Outcome.bind_eq_ok_iff.1 found
  obtain rfl := Except.ok.inj found
  refine ⟨rfl, position_eq_ok_iff.1 isDate, ?_, rfl⟩
  refine (Outcome.mapM_eq_ok_iff.1 arePrices).imp ?_
  intro column entry isEntry
  obtain ⟨position, isPosition, isEntry⟩ := Outcome.bind_eq_ok_iff.1 isEntry
  obtain rfl := Except.ok.inj isEntry
  exact ⟨rfl, position_eq_ok_iff.1 isPosition⟩

/-! ## Rows -/

/-- What the cells of a record say about its row: every number is that in its cell. -/
structure Shows (layout : Layout) (cells : Cells) (row : Row) : Prop where
  prices : ∀ entry ∈ layout.prices,
    readNumber (cells.getD entry.2 []) = some (row.bar.column entry.1)
  extras : List.Forall₂
    (fun position number => readNumber (cells.getD position []) = some number)
    layout.extras row.extras

section

variable {layout : Layout} {row position : Nat} {cells : Cells} {number : Float}

theorem numberAt_eq_ok_iff :
    numberAt layout row cells position = .ok number ↔
      readNumber (cells.getD position []) = some number := by
  rw [numberAt]
  cases readNumber (cells.getD position []) with
  | none => simp
  | some other => simp

/-- The bar of some numbers has the first number of each column. -/
theorem column_barOf (date : Date) (numbers : List (Column × Float)) (column : Column) :
    (barOf date numbers).column column = (numbers.lookup column).getD (0.0 / 0.0) := by
  cases column <;> rfl

/-- Entries with distinct columns find the numbers that stand beside them. -/
theorem exists_lookup_of_forall₂
    (related : Column × Nat -> Float -> Prop)
    {entries : List (Column × Nat)}
    {numbers : List (Column × Float)}
    (distinct : (entries.map Prod.fst).Nodup)
    (beside : List.Forall₂ (fun entry number => number.1 = entry.1 ∧ related entry number.2)
      entries numbers)
    {entry : Column × Nat}
    (member : entry ∈ entries) :
    ∃ number, numbers.lookup entry.1 = some number ∧ related entry number := by
  induction beside with
  | nil => cases member
  | @cons first number entries numbers isFirst _ hypothesis =>
      rw [List.map_cons, List.nodup_cons] at distinct
      rw [List.lookup_cons, isFirst.1]
      rcases List.mem_cons.1 member with rfl | later
      · exact ⟨number.2, by rw [beq_self_eq_true], isFirst.2⟩
      · have different : (entry.1 == first.1) = false := by
          rw [beq_eq_false_iff_ne]
          intro same
          exact distinct.1 (same ▸ List.mem_map_of_mem later)
        rw [different]
        exact hypothesis distinct.2 later

theorem shows_of_readCells
    {previous : Option Date}
    {result : Row}
    (distinct : (layout.prices.map Prod.fst).Nodup)
    (read : readCells layout row previous cells = .ok result) :
    Shows layout cells result := by
  obtain ⟨date, _, read⟩ := Outcome.bind_eq_ok_iff.1 read
  obtain ⟨numbers, areNumbers, read⟩ := Outcome.bind_eq_ok_iff.1 read
  obtain ⟨extras, areExtras, read⟩ := Outcome.bind_eq_ok_iff.1 read
  obtain rfl := Except.ok.inj read
  refine ⟨?_, (Outcome.mapM_eq_ok_iff.1 areExtras).imp fun _ _ => numberAt_eq_ok_iff.1⟩
  have beside : List.Forall₂ (fun entry number => number.1 = entry.1 ∧
      readNumber (cells.getD entry.2 []) = some number.2) layout.prices numbers := by
    refine (Outcome.mapM_eq_ok_iff.1 areNumbers).imp fun entry number isNumber => ?_
    obtain ⟨value, isValue, isNumber⟩ := Outcome.bind_eq_ok_iff.1 isNumber
    obtain rfl := Except.ok.inj isNumber
    exact ⟨rfl, numberAt_eq_ok_iff.1 isValue⟩
  intro entry member
  obtain ⟨number, found, isNumber⟩ := exists_lookup_of_forall₂
    (fun entry number => readNumber (cells.getD entry.2 []) = some number) distinct beside member
  rw [column_barOf, found]
  exact isNumber

theorem decode_of_cellsOf
    {record : Csv.Record}
    (areCells : cellsOf layout row record = .ok cells) :
    Csv.decode record.fields = some cells := by
  rw [cellsOf] at areCells
  split at areCells
  next =>
    split at areCells
    next decoded => exact Except.ok.inj areCells ▸ decoded
    next => cases areCells
  next => cases areCells

/-- Every row shows what is in the cells of its record. -/
theorem shows_of_readRows
    {previous : Option Date}
    {records : List Csv.Record}
    {rows : List Row}
    (distinct : (layout.prices.map Prod.fst).Nodup)
    (read : readRows layout row previous records = .ok rows) :
    List.Forall₂ (fun record result =>
        ∃ cells, Csv.decode record.fields = some cells ∧ Shows layout cells result)
      records rows := by
  induction records generalizing row previous rows with
  | nil =>
      obtain rfl := Except.ok.inj read
      exact .nil
  | cons record records hypothesis =>
      obtain ⟨cells, areCells, read⟩ := Outcome.bind_eq_ok_iff.1 read
      obtain ⟨first, isFirst, read⟩ := Outcome.bind_eq_ok_iff.1 read
      obtain ⟨rest, areRest, read⟩ := Outcome.bind_eq_ok_iff.1 read
      obtain rfl := Except.ok.inj read
      exact .cons ⟨cells, decode_of_cellsOf areCells, shows_of_readCells distinct isFirst⟩
        (hypothesis areRest)

end

/-! ## The whole table -/

/-- What is known of a table that is read as a history. -/
structure ReadsAs
    (bytes : List Csv.Byte)
    (header : Cells)
    (layout : Layout)
    (rows : List Row)
    (history : History) : Prop where
  isHeader : header? (Csv.records bytes) = some header
  lays : LaysOut header layout
  shows : List.Forall₂ (fun record row =>
      ∃ cells, Csv.decode record.fields = some cells ∧ Shows layout cells row)
    (Csv.records bytes).tail rows
  eq : history = { bars := rows.map Row.bar, series := seriesOf layout rows }

/-- The prices of a layout are listed by column, each column once. -/
theorem LaysOut.distinct {header : Cells} {layout : Layout} (lays : LaysOut header layout) :
    (layout.prices.map Prod.fst).Nodup := by
  have columns : Column.all = layout.prices.map Prod.fst := by
    have beside := lays.prices.imp fun _ _ (entry : _ ∧ _) => entry.1.symm
    rwa [← List.forall₂_map_right_iff, List.forall₂_eq_eq_eq] at beside
  rw [← columns]
  decide

/-- Once the header is accepted, a table is read by its rows. -/
theorem read_of_layout
    {bytes : List Csv.Byte}
    {header : Cells}
    {layout : Layout}
    (isHeader : header? (Csv.records bytes) = some header)
    (isLayout : Layout.ofHeader header = .ok layout) :
    read bytes = do
      let rows <- readRows layout 1 none (Csv.records bytes).tail
      if rows.isEmpty then .error .empty
      else return { bars := rows.map Row.bar, series := seriesOf layout rows } := by
  rw [header?] at isHeader
  rw [read, ofRecords, isHeader]
  dsimp only
  rw [isLayout]
  rfl

/-- The rows of an accepted table. -/
theorem exists_rows_of_read
    {bytes : List Csv.Byte}
    {history : History}
    (accepted : read bytes = .ok history) :
    ∃ header layout rows, header? (Csv.records bytes) = some header ∧
      Layout.ofHeader header = .ok layout ∧
      readRows layout 1 none (Csv.records bytes).tail = .ok rows ∧ rows ≠ [] ∧
      history = { bars := rows.map Row.bar, series := seriesOf layout rows } := by
  rw [read, ofRecords] at accepted
  split at accepted
  next => cases accepted
  next header isHeader =>
    obtain ⟨layout, isLayout, accepted⟩ := Outcome.bind_eq_ok_iff.1 accepted
    obtain ⟨rows, areRows, accepted⟩ := Outcome.bind_eq_ok_iff.1 accepted
    split at accepted
    next => cases accepted
    next some =>
      refine ⟨header, layout, rows, isHeader, isLayout, areRows, ?_,
        (Except.ok.inj accepted).symm⟩
      rintro rfl
      exact some rfl

theorem exists_readsAs
    {bytes : List Csv.Byte}
    {history : History}
    (accepted : read bytes = .ok history) :
    ∃ header layout rows, ReadsAs bytes header layout rows history := by
  obtain ⟨header, layout, rows, isHeader, isLayout, areRows, _, isHistory⟩ :=
    exists_rows_of_read accepted
  have lays := laysOut_of_ofHeader isLayout
  exact ⟨header, layout, rows, isHeader, lays, shows_of_readRows lays.distinct areRows, isHistory⟩

end History
end StrategyGraph
