import StrategyGraph.Proofs.Market.Insertion
import StrategyGraph.Proofs.Market.Reading

/-!
# Bars and series of a table

A table may have several columns of one price name. Its bars take their numbers from the
first of them, in any case of letters. All others are columns of an indicator under their
own names, and one whose name is exactly that of a price replaces the series of that
price.

The main result: the series of a price is the column of the bars, unless a column behind
the first one has exactly the name of the price. Then the last such column supplies the
series, while the bars stay with the first.
-/

namespace StrategyGraph
namespace History

/-- A column behind the first one of a price name has exactly that name. -/
structure Repeats (header : Cells) (column : Column) (position : Nat) : Prop where
  named : header[position]? = some column.key.toList
  behind : ∃ earlier < position, ∃ cell, header[earlier]? = some cell ∧ Names cell column.key

/-- The last of the columns that repeat a price name. -/
structure RepeatsLast (header : Cells) (column : Column) (position : Nat) : Prop where
  repeats : Repeats header column position
  last : ∀ later, Repeats header column later -> later <= position

/-! ## Columns of indicators with the name of a price -/

section

variable {header : Cells} {layout : Layout} {column : Column} {position : Nat}

/-- The names of prices are different in any case of letters, and none is that of the dates. -/
theorem eq_of_names {other : Column} (names : Names column.key.toList other.key) :
    other = column := by
  revert names
  cases column <;> cases other <;> decide

theorem not_names_date : ¬ Names column.key.toList dateName := by
  cases column <;> decide

theorem LaysOut.exists_entry (lays : LaysOut header layout) (column : Column) :
    ∃ position, (column, position) ∈ layout.prices ∧
      FirstNamed header column.key position := by
  obtain ⟨⟨_, position⟩, listed, rfl, first⟩ :=
    Outcome.exists_item_of_forall₂ lays.prices.flip column.mem_all
  exact ⟨position, listed, first⟩

theorem LaysOut.firstNamed_of_mem
    (lays : LaysOut header layout)
    {entry : Column × Nat}
    (listed : entry ∈ layout.prices) :
    FirstNamed header entry.1.key entry.2 := by
  obtain ⟨_, _, rfl, first⟩ := Outcome.exists_item_of_forall₂ lays.prices listed
  exact first

theorem LaysOut.nameAt_eq_iff (lays : LaysOut header layout) (within : position < header.length) :
    layout.nameAt position = column.key ↔ header[position]? = some column.key.toList := by
  rw [Layout.nameAt, lays.header_eq, List.getD_eq_getElem?_getD, List.getElem?_eq_getElem within,
    Option.getD_some, Option.some.injEq, ← String.toList_inj, String.toList_ofList]

/-- Indicator columns with exactly the name of a price are those that repeat it. -/
theorem LaysOut.mem_extras_iff (lays : LaysOut header layout) :
    position ∈ layout.extras ∧ layout.nameAt position = column.key ↔
      Repeats header column position := by
  rw [lays.extras, List.mem_filter, List.mem_range, Bool.not_eq_true', ← Bool.not_eq_true,
    List.contains_iff_mem, List.mem_cons, List.mem_map]
  constructor
  · rintro ⟨⟨within, free⟩, named⟩
    rw [lays.nameAt_eq_iff within] at named
    refine ⟨named, ?_⟩
    obtain ⟨first, listed, isFirst⟩ := lays.exists_entry column
    obtain ⟨cell, isCell, names⟩ := isFirst.names
    refine ⟨first, ?_, cell, isCell, names⟩
    rcases Nat.lt_trichotomy first position with before | same | behind
    · exact before
    · exact absurd (Or.inr ⟨_, listed, same⟩) free
    · exact absurd rfl (isFirst.first position behind _ named)
  · rintro ⟨named, earlier, before, cell, isCell, names⟩
    have within : position < header.length := (List.getElem?_eq_some_iff.1 named).1
    refine ⟨⟨within, ?_⟩, (lays.nameAt_eq_iff within).2 named⟩
    rintro (isDate | ⟨entry, listed, isPrice⟩)
    · obtain ⟨other, isOther, namesDate⟩ := lays.date.names
      rw [← isDate, named, Option.some.injEq] at isOther
      exact not_names_date (isOther ▸ namesDate)
    · have isFirst := isPrice ▸ lays.firstNamed_of_mem listed
      obtain ⟨other, isOther, namesPrice⟩ := isFirst.names
      rw [named, Option.some.injEq] at isOther
      obtain same := eq_of_names (isOther ▸ namesPrice)
      exact isFirst.first earlier before cell isCell (same ▸ names)

end

/-! ## The two views of a price -/

section

variable {bytes : List Csv.Byte} {header : Cells} {layout : Layout} {rows : List Row}
  {history : History} {column : Column}

/-- Without a column that repeats its name, the series of a price is the column of the bars. -/
theorem ReadsAs.series_of_unrepeated
    (reads : ReadsAs bytes header layout rows history)
    (unrepeated : ∀ position, ¬ Repeats header column position) :
    history.series.series? column.key =
      some (history.bars.map fun bar => bar.column column).toArray := by
  rw [reads.eq, seriesOf, SeriesSet.series_foldl_insert_of_ne, SeriesSet.series_ofBars]
  intro put member
  obtain ⟨index, bound, rfl⟩ := List.mem_mapIdx.1 member
  intro named
  exact unrepeated _ (reads.lays.mem_extras_iff.1 ⟨List.getElem_mem bound, named.symm⟩)

/-- The last column that repeats the name of a price supplies its series. -/
theorem ReadsAs.series_of_repeatsLast
    (reads : ReadsAs bytes header layout rows history)
    {position : Nat}
    (isLast : RepeatsLast header column position) :
    ∃ before behind, layout.extras = before ++ position :: behind ∧
      history.series.series? column.key =
        some (rows.map fun row => row.extras.getD before.length (0.0 / 0.0)).toArray := by
  obtain ⟨listed, named⟩ := reads.lays.mem_extras_iff.2 isLast.repeats
  obtain ⟨before, behind, split⟩ := List.append_of_mem listed
  have ascending : (before ++ position :: behind).Pairwise (· < ·) := by
    rw [← split, reads.lays.extras]
    exact List.pairwise_lt_range.filter _
  refine ⟨before, behind, split, ?_⟩
  rw [reads.eq, seriesOf, split, List.mapIdx_append, List.mapIdx_cons, named, Nat.zero_add]
  refine SeriesSet.series_foldl_insert_of_last fun put member => ?_
  obtain ⟨index, bound, rfl⟩ := List.mem_mapIdx.1 member
  intro same
  have later : behind[index] ∈ behind := List.getElem_mem bound
  have repeated := reads.lays.mem_extras_iff.1
    ⟨split ▸ List.mem_append_right before (List.mem_cons_of_mem position later), same.symm⟩
  have behindIt := List.rel_of_pairwise_cons (List.pairwise_append.1 ascending).2.1 later
  exact absurd (isLast.last _ repeated) (Nat.not_le.2 behindIt)

/-- The record of a row has the numbers of the row in its cells. -/
theorem ReadsAs.exists_shows
    (reads : ReadsAs bytes header layout rows history)
    {index : Nat}
    {record : Csv.Record}
    (isRecord : (Csv.records bytes).tail[index]? = some record) :
    ∃ cells row, Csv.decode record.fields = some cells ∧ rows[index]? = some row ∧
      Shows layout cells row := by
  obtain ⟨bound, rfl⟩ := List.getElem?_eq_some_iff.1 isRecord
  obtain ⟨sameLength, each⟩ := List.forall₂_iff_get.1 reads.shows
  obtain ⟨cells, decoded, shows⟩ := each index bound (sameLength ▸ bound)
  exact ⟨cells, _, decoded, List.getElem?_eq_getElem _, shows⟩

end

/-- An accepted table has a header in which every price stands. For every price, the series
is the column of the bars if no column repeats the name of the price. If one does, the last
of them supplies the series, and the bars have the numbers of the first column that has the
name in any case. -/
theorem series_views_bars
    {bytes : List Csv.Byte}
    {history : History}
    (accepted : read bytes = .ok history) :
    ∃ header, header? (Csv.records bytes) = some header ∧ ∀ column,
      ((∀ position, ¬ Repeats header column position) -> ∀ row,
        history.series.value? column.key row =
          history.bars[row]?.map fun bar => bar.column column) ∧
      (∀ position, RepeatsLast header column position ->
        ∃ first < position, FirstNamed header column.key first ∧
          ∀ row record, (Csv.records bytes).tail[row]? = some record ->
            ∃ cells, Csv.decode record.fields = some cells ∧
              (history.bars[row]?.map fun bar => bar.column column) =
                readNumber (cells.getD first []) ∧
              history.series.value? column.key row = readNumber (cells.getD position [])) := by
  obtain ⟨header, layout, rows, reads⟩ := exists_readsAs accepted
  refine ⟨header, reads.isHeader, fun column => ⟨?_, ?_⟩⟩
  · intro unrepeated row
    rw [SeriesSet.value?, reads.series_of_unrepeated unrepeated, Option.bind_some,
      List.getElem?_toArray, List.getElem?_map]
  · intro position isLast
    obtain ⟨first, listed, isFirst⟩ := reads.lays.exists_entry column
    obtain ⟨earlier, before, cell, isCell, names⟩ := isLast.repeats.behind
    have firstBefore : first < position := by
      refine Nat.lt_of_le_of_lt (Nat.le_of_not_lt fun later => ?_) before
      exact isFirst.first earlier later cell isCell names
    refine ⟨first, firstBefore, isFirst, fun row record isRecord => ?_⟩
    obtain ⟨cells, shown, decoded, isRow, shows⟩ := reads.exists_shows isRecord
    refine ⟨cells, decoded, ?_, ?_⟩
    · rw [shows.prices _ listed, reads.eq, List.getElem?_map, isRow]
      rfl
    · obtain ⟨before, behind, split, supplied⟩ := reads.series_of_repeatsLast isLast
      obtain ⟨sameLength, each⟩ := List.forall₂_iff_get.1 shows.extras
      have inExtras : before.length < layout.extras.length := by
        rw [split, List.length_append, List.length_cons]
        omega
      have inRow := sameLength ▸ inExtras
      have isNumber := each before.length inExtras inRow
      have isPosition : layout.extras.get ⟨before.length, inExtras⟩ = position := by
        simp [split]
      rw [isPosition] at isNumber
      rw [isNumber, SeriesSet.value?, supplied, Option.bind_some, List.getElem?_toArray,
        List.getElem?_map, isRow, Option.map_some, List.getD_eq_getElem?_getD,
        List.getElem?_eq_getElem inRow]
      rfl

/-- A table with its columns in another order and in mixed case, an indicator among them,
and the closes once more behind all others. -/
def closesBehind : List Csv.Byte :=
  ("Volume,CLOSE,date,rsi_14,low,High,open,close\n" ++
    "10,1.5,2024-01-02,30,1,2,1,7\n" ++
    "11,,2024-01-03,nan,1,2.5,1,8\n").toUTF8.toList

theorem series_views_bars_closesBehind :
    ∃ history, read closesBehind = .ok history ∧
      (∀ row, history.series.value? "high" row = history.bars[row]?.map Bar.high) ∧
      history.bars[0]?.map Bar.close = some 1.5 ∧
      history.series.value? "close" 0 = some 7 := by
  have accepted : (read closesBehind).toOption.isSome = true := by decide +kernel
  obtain ⟨history, found⟩ := Option.isSome_iff_exists.1 accepted
  have isRead := Outcome.toOption_eq_some_iff.1 found
  obtain ⟨header, isHeader, views⟩ := series_views_bars isRead
  have written : header? (Csv.records closesBehind) = some (
      ["Volume", "CLOSE", "date", "rsi_14", "low", "High", "open", "close"].map
        String.toList) := by
    decide +kernel
  obtain rfl := Option.some.inj (isHeader.symm.trans written)
  refine ⟨history, isRead, (views .high).1 fun position repeats => ?_, ?_⟩
  · exact absurd (List.mem_of_getElem? repeats.named) (by decide)
  · have isLast : RepeatsLast (["Volume", "CLOSE", "date", "rsi_14", "low", "High", "open",
        "close"].map String.toList) .close 7 := by
      refine ⟨⟨rfl, 1, by decide, _, rfl, by decide⟩, fun later repeats => ?_⟩
      have within := (List.getElem?_eq_some_iff.1 repeats.named).1
      exact Nat.le_of_lt_succ within
    obtain ⟨first, before, isFirst, each⟩ := (views .close).2 7 isLast
    have isSecond : first = 1 := by
      obtain ⟨cell, isCell, names⟩ := isFirst.names
      have notBefore : ¬ 1 < first := fun behind =>
        isFirst.first 1 behind "CLOSE".toList rfl (by decide)
      have notFirst : first ≠ 0 := by
        rintro rfl
        obtain rfl := Option.some.inj isCell
        exact absurd names (by decide)
      omega
    subst isSecond
    have cellsThere : ((Csv.records closesBehind).tail[0]?.bind fun record =>
        (Csv.decode record.fields).map fun cells =>
          (readNumber (cells.getD 1 []), readNumber (cells.getD 7 []))) =
            some (some 1.5, some 7) := by
      decide +kernel
    obtain ⟨record, isRecord, cellsThere⟩ := Option.bind_eq_some_iff.1 cellsThere
    obtain ⟨cells, decoded, numbers⟩ := Option.map_eq_some_iff.1 cellsThere
    obtain ⟨cellsToo, decodedToo, inBar, inSeries⟩ := each 0 record isRecord
    obtain rfl := Option.some.inj (decodedToo.symm.trans decoded)
    exact ⟨inBar.trans (Prod.mk.inj numbers).1, inSeries.trans (Prod.mk.inj numbers).2⟩

/-- A table with two columns of closes, both under the plain name. -/
def closesTwice : List Csv.Byte :=
  "date,open,high,low,close,volume,close\n2024-01-02,1,2,3,4,5,99\n".toUTF8.toList

/-- The bars have the closes of the first column, the series those of the second. -/
theorem series_apart_from_bars :
    ∃ history, read closesTwice = .ok history ∧
      history.bars[0]?.map Bar.close = some 4 ∧
      history.series.value? Column.close.key 0 = some 99 ∧
      history.series.value? Column.close.key 0 ≠ history.bars[0]?.map Bar.close := by
  have computed : (read closesTwice).toOption.map (fun history =>
      (history.bars[0]?.map Bar.close, history.series.value? Column.close.key 0)) =
        some (some 4, some 99) := by
    decide +kernel
  obtain ⟨history, found, values⟩ := Option.map_eq_some_iff.1 computed
  obtain ⟨inBar, inSeries⟩ := Prod.mk.inj values
  refine ⟨history, Outcome.toOption_eq_some_iff.1 found, inBar, inSeries, ?_⟩
  rw [inBar, inSeries]
  decide

end History
end StrategyGraph
