import StrategyGraph.Proofs.Market.Reading

/-!
# Faults of tables

A record is checked for its shape, for the format and the order of its date, and then for
its numbers: those of the prices first, then those of the other columns from left to right.
Each check looks at the record alone, except that dates are compared with that of the
record in front.

Reading a table fails with the first fault of the first record that has one. The passes of
the reader are described by their faults, so that the faults of a record are those of its
checks, one after the other.
-/

namespace StrategyGraph
namespace History

/-- What a record is checked for. -/
inductive Check where
  /-- As many fields as the header, all of them texts. -/
  | shape
  | dateFormat
  | dateOrder
  /-- The number at a position. -/
  | number (position : Nat)
  deriving DecidableEq

/-- Text at a position of a record, empty if there is none. -/
def cellIn (record : Csv.Record) (position : Nat) : List Char :=
  ((Csv.decode record.fields).getD []).getD position []

namespace Layout

/-- The date in a record, if it has one. -/
def dateIn? (layout : Layout) (record : Csv.Record) : Option Date :=
  Date.read? Blank.isBlank (cellIn record layout.date)

/-- The checks of a record, in their order. -/
def checks (layout : Layout) : List Check :=
  [.shape, .dateFormat, .dateOrder] ++
    (layout.prices.map Prod.snd ++ layout.extras).map .number

/-- The fault of the text at a position of a record, behind some records. -/
def invalidAt
    (layout : Layout)
    (before : List Csv.Record)
    (record : Csv.Record)
    (position : Nat) : HistoryError :=
  .invalidValue (before.length + 1) (layout.nameAt position)
    (String.ofList (cellIn record position))

/-- What a check finds wrong with a record, behind some records. -/
def faultOf? (layout : Layout) (before : List Csv.Record) (record : Csv.Record) :
    Check -> Option HistoryError
  | .shape =>
      if record.fields.length ≠ layout.header.length then
        some (.unequalLengths (before.length + 1) record.location layout.header.length
          record.fields.length)
      else if Csv.decode record.fields = none then some .invalidText
      else none
  | .dateFormat =>
      if layout.dateIn? record = none then some (layout.invalidAt before record layout.date)
      else none
  | .dateOrder =>
      match before.getLast?.bind layout.dateIn?, layout.dateIn? record with
      | some earlier, some date =>
          if earlier.isBefore date then none else some (.unsorted (before.length + 1) date)
      | _, _ => none
  | .number position =>
      if readNumber (cellIn record position) = none then
        some (layout.invalidAt before record position)
      else none

/-- The first fault that the checks find in a record, behind some records. -/
def firstFault? (layout : Layout) (before : List Csv.Record) (record : Csv.Record) :
    Option HistoryError :=
  layout.checks.findSome? (layout.faultOf? before record)

end Layout

open Outcome

/-! ## One record -/

/-- Read a record as a row. -/
def readRecord (layout : Layout) (row : Nat) (previous : Option Date) (record : Csv.Record) :
    Except HistoryError Row := do
  let cells <- cellsOf layout row record
  readCells layout row previous cells

section

variable {layout : Layout} {row : Nat} {previous : Option Date} {record : Csv.Record}
  {before records : List Csv.Record} {cells : Cells}

theorem readRows_cons :
    readRows layout row previous (record :: records) = do
      let first <- readRecord layout row previous record
      let rest <- readRows layout (row + 1) (some first.bar.date) records
      return first :: rest := by
  rw [readRows, readRecord, bind_assoc]

theorem cellIn_of_cellsOf (areCells : cellsOf layout row record = .ok cells) (position : Nat) :
    cellIn record position = cells.getD position [] := by
  rw [cellIn, decode_of_cellsOf areCells, Option.getD_some]

theorem fault_cellsOf :
    fault? (cellsOf layout (before.length + 1) record) =
      layout.faultOf? before record .shape := by
  rw [cellsOf, Layout.faultOf?]
  split
  next same =>
    rw [if_neg (not_not_intro same)]
    cases Csv.decode record.fields <;> rfl
  next => rfl

/-- A row has the date of its record. -/
theorem date_of_readRecord
    {result : Row}
    (read : readRecord layout row previous record = .ok result) :
    layout.dateIn? record = some result.bar.date ∧
      ∀ earlier ∈ previous, earlier.isBefore result.bar.date = true := by
  obtain ⟨cells, areCells, read⟩ := bind_eq_ok_iff.1 read
  obtain ⟨date, isDate, read⟩ := bind_eq_ok_iff.1 read
  obtain ⟨numbers, _, read⟩ := bind_eq_ok_iff.1 read
  obtain ⟨extras, _, read⟩ := bind_eq_ok_iff.1 read
  obtain rfl := Except.ok.inj read
  rw [Layout.dateIn?, cellIn_of_cellsOf areCells]
  rw [dateAt] at isDate
  split at isDate
  next => cases isDate
  next found =>
    split at isDate
    next after =>
      cases isDate
      refine ⟨found, fun earlier isPrevious => ?_⟩
      rw [isPrevious] at after
      exact after
    next => cases isDate

theorem fault_dateAt
    (areCells : cellsOf layout (before.length + 1) record = .ok cells) :
    fault? (dateAt layout (before.length + 1) (before.getLast?.bind layout.dateIn?) cells) =
      (layout.faultOf? before record .dateFormat).or
        (layout.faultOf? before record .dateOrder) := by
  rw [dateAt, Layout.faultOf?, Layout.faultOf?, Layout.invalidAt, Layout.dateIn?,
    cellIn_of_cellsOf areCells]
  cases Date.read? Blank.isBlank (cells.getD layout.date []) with
  | none => rfl
  | some date =>
      cases before.getLast?.bind layout.dateIn? with
      | none => rfl
      | some earlier =>
          by_cases after : earlier.isBefore date = true
          · simp [after]
          · simp [after]

theorem fault_numberAt
    (areCells : cellsOf layout (before.length + 1) record = .ok cells)
    (position : Nat) :
    fault? (numberAt layout (before.length + 1) cells position) =
      layout.faultOf? before record (.number position) := by
  rw [numberAt, Layout.faultOf?, Layout.invalidAt, cellIn_of_cellsOf areCells]
  cases readNumber (cells.getD position []) <;> rfl

/-- Reading a record fails with the first fault that the checks find in it. -/
theorem fault_readRecord :
    fault? (readRecord layout (before.length + 1) (before.getLast?.bind layout.dateIn?) record) =
      layout.firstFault? before record := by
  have numbers : ∀ cells, cellsOf layout (before.length + 1) record = .ok cells ->
      fault? (readCells layout (before.length + 1) (before.getLast?.bind layout.dateIn?) cells) =
        ((layout.faultOf? before record .dateFormat).or
          (layout.faultOf? before record .dateOrder)).or
        ((layout.prices.findSome? fun entry => layout.faultOf? before record (.number entry.2)).or
          (layout.extras.findSome? fun position =>
            layout.faultOf? before record (.number position))) := by
    intro cells areCells
    rw [readCells, ← fault_dateAt areCells]
    refine fault_bind fun date _ => ?_
    have prices : fault? (layout.prices.mapM fun entry => do
          let number <- numberAt layout (before.length + 1) cells entry.2
          return (entry.1, number)) =
        layout.prices.findSome? fun entry =>
          layout.faultOf? before record (.number entry.2) := by
      simp only [fault_mapM, fault_bind_pure, fault_numberAt areCells]
    rw [← prices]
    refine fault_bind fun _ _ => ?_
    rw [fault_bind_pure, fault_mapM]
    simp only [fault_numberAt areCells]
  rw [readRecord, fault_bind numbers, fault_cellsOf, Layout.firstFault?, Layout.checks]
  simp only [List.cons_append, List.nil_append, List.findSome?_cons, List.map_append,
    List.findSome?_append, List.findSome?_map, List.map_map, Function.comp_def]
  cases layout.faultOf? before record .shape with
  | some fault => rfl
  | none =>
      cases layout.faultOf? before record .dateFormat with
      | some fault => rfl
      | none => cases layout.faultOf? before record .dateOrder <;> rfl

end

/-! ## All records -/

/-- Of some records that stand behind others, the first one that has a fault has this one
as its first. -/
def IsFirstFault
    (layout : Layout)
    (front records : List Csv.Record)
    (fault : HistoryError) : Prop :=
  ∃ before record behind, records = before ++ record :: behind ∧
    layout.firstFault? (front ++ before) record = some fault ∧
    ∀ earlier other later, before = earlier ++ other :: later ->
      layout.firstFault? (front ++ earlier) other = none

section

variable {layout : Layout} {record : Csv.Record} {front records : List Csv.Record}
  {fault : HistoryError}

theorem not_isFirstFault_nil : ¬ IsFirstFault layout front [] fault := by
  rintro ⟨before, record, behind, split, _⟩
  exact List.append_ne_nil_of_right_ne_nil before (List.cons_ne_nil record behind) split.symm

theorem isFirstFault_cons_iff :
    IsFirstFault layout front (record :: records) fault ↔
      layout.firstFault? front record = some fault ∨
        layout.firstFault? front record = none ∧
          IsFirstFault layout (front ++ [record]) records fault := by
  constructor
  · rintro ⟨before, other, behind, split, found, sound⟩
    cases before with
    | nil =>
        cases split
        rw [List.append_nil] at found
        exact Or.inl found
    | cons first before =>
        cases split
        have passes := sound [] record before rfl
        rw [List.append_nil] at passes
        rw [List.append_cons] at found
        refine Or.inr ⟨passes, before, other, behind, rfl, found, ?_⟩
        intro earlier another later same
        rw [← List.append_cons]
        exact sound (record :: earlier) another later (congrArg (record :: ·) same)
  · rintro (found | ⟨passes, before, other, behind, rfl, found, sound⟩)
    · refine ⟨[], record, records, rfl, ?_, fun earlier other later impossible => ?_⟩
      · rwa [List.append_nil]
      · exact absurd impossible.symm
          (List.append_ne_nil_of_right_ne_nil earlier (List.cons_ne_nil other later))
    · rw [← List.append_cons] at found
      refine ⟨record :: before, other, behind, rfl, found, fun earlier another later same => ?_⟩
      cases earlier with
      | nil =>
          cases same
          rwa [List.append_nil]
      | cons first earlier =>
          cases same
          rw [List.append_cons]
          exact sound earlier another later rfl

/-- Reading records fails with the first fault of the first record that has one. -/
theorem readRows_eq_error_iff :
    readRows layout (front.length + 1) (front.getLast?.bind layout.dateIn?) records =
        .error fault ↔
      IsFirstFault layout front records fault := by
  induction records generalizing front with
  | nil => exact iff_of_false (fun failed => by cases failed) not_isFirstFault_nil
  | cons record records hypothesis =>
      have read := @fault_readRecord layout record front
      -- Behind a sound record, the date to compare with is its own, now the last in front.
      have rest : ∀ first, readRecord layout (front.length + 1)
            (front.getLast?.bind layout.dateIn?) record = .ok first ->
          ((readRows layout (front.length + 1 + 1) (some first.bar.date) records >>= fun rest =>
            pure (first :: rest)) = .error fault ↔
          IsFirstFault layout (front ++ [record]) records fault) := by
        intro first isFirst
        rw [← hypothesis, List.length_append, List.length_singleton, List.getLast?_concat,
          Option.bind_some, (date_of_readRecord isFirst).1, ← fault_eq_some_iff, fault_bind_pure,
          fault_eq_some_iff]
      rw [readRows_cons, isFirstFault_cons_iff, ← read, fault_eq_some_iff, bind_eq_error_iff]
      refine or_congr_right ⟨?_, ?_⟩
      · rintro ⟨first, isFirst, failed⟩
        exact ⟨fault_eq_none_iff.2 ⟨first, isFirst⟩, (rest first isFirst).1 failed⟩
      · rintro ⟨passes, isFault⟩
        obtain ⟨first, isFirst⟩ := fault_eq_none_iff.1 passes
        exact ⟨first, isFirst, (rest first isFirst).2 isFault⟩

end

end History
end StrategyGraph
