import StrategyGraph.Proofs.Market.Faults
import StrategyGraph.Proofs.Market.Insertion
import StrategyGraph.Proofs.Run.Causality

/-!
# Accepted tables can be replayed

All series of an accepted table have one value for each of its bars, the dates of which
ascend. So a strategy that finds its series there runs over all bars, and the only thing
that may be in its way is a series that the table does not have.

A table whose header is accepted is refused for the first fault of its records, or because
there are none.
-/

namespace StrategyGraph

/-! ## Series of one length -/

namespace SeriesSet

variable {set : SeriesSet Value} {length : Nat} {key : String}

theorem Aligned.length_eq (aligned : set.Aligned length) (present : set.contains key = true) :
    set.length key = length := by
  obtain ⟨values, found⟩ := Option.isSome_iff_exists.1 present
  obtain ⟨before, behind, split, _⟩ := List.lookup_eq_some_iff.1 found
  rw [SeriesSet.length, found]
  exact aligned (key, values) (split ▸ List.mem_append_right before List.mem_cons_self)

/-- A set of aligned series can only lack some that a strategy needs. -/
theorem Aligned.checkRequirements
    (aligned : set.Aligned length)
    (closes : set.contains Column.close.key = true)
    (strategy : Strategy) :
    set.checkRequirements strategy = .ok () ∨
      ∃ keys, set.checkRequirements strategy = .error (.missing keys) := by
  by_cases complete : ∀ key ∈ strategy.neededKeys, set.contains key = true
  · refine Or.inl (checkRequirements_eq_ok_iff.2 fun key needed => ⟨complete key needed, ?_⟩)
    rw [barCount, aligned.length_eq (complete key needed), aligned.length_eq closes]
  · refine Or.inr ⟨_, checkRequirements_eq_missing_iff.2 ⟨fun none => complete ?_, rfl⟩⟩
    rw [List.filter_eq_nil_iff] at none
    exact fun key needed => by simpa using none key needed

/-- A replay on aligned series decides every bar or names series that are missing. -/
theorem Aligned.replay
    [Quantity Value]
    (aligned : set.Aligned length)
    (closes : set.contains Column.close.key = true)
    (strategy : Strategy) :
    (∃ decisions, strategy.replay set = .ok decisions ∧ decisions.length = length) ∨
      ∃ keys, strategy.replay set = .error (.missing keys) := by
  rcases aligned.checkRequirements closes strategy with accepted | ⟨keys, refused⟩
  · refine Or.inl ⟨_, Strategy.replay_eq accepted, ?_⟩
    rw [Session.length_decisions, List.length_range, barCount, aligned.length_eq closes]
  · refine Or.inr ⟨keys, ?_⟩
    rw [Strategy.replay, refused]
    rfl

end SeriesSet

/-! ## Dates -/

theorem Date.isBefore_trans
    {first second third : Date}
    (isBefore : first.isBefore second = true)
    (isBeforeToo : second.isBefore third = true) :
    first.isBefore third = true := by
  simp only [Date.isBefore, Bool.or_eq_true, Bool.and_eq_true, decide_eq_true_iff] at *
  omega

namespace History

section

variable {layout : Layout} {row : Nat} {previous : Option Date} {records : List Csv.Record}
  {rows : List Row}

theorem length_of_readRows (read : readRows layout row previous records = .ok rows) :
    rows.length = records.length := by
  induction records generalizing row previous rows with
  | nil =>
      obtain rfl := Except.ok.inj read
      rfl
  | cons record records hypothesis =>
      rw [readRows_cons] at read
      obtain ⟨first, _, read⟩ := Outcome.bind_eq_ok_iff.1 read
      obtain ⟨rest, areRest, read⟩ := Outcome.bind_eq_ok_iff.1 read
      obtain rfl := Except.ok.inj read
      rw [List.length_cons, List.length_cons, hypothesis areRest]

/-- The dates of rows ascend from the one in front of them. -/
theorem ascending_of_readRows (read : readRows layout row previous records = .ok rows) :
    (∀ earlier ∈ previous, ∀ result ∈ rows, earlier.isBefore result.bar.date = true) ∧
      rows.Pairwise fun first second => first.bar.date.isBefore second.bar.date = true := by
  induction records generalizing row previous rows with
  | nil =>
      obtain rfl := Except.ok.inj read
      exact ⟨fun _ _ _ none => absurd none List.not_mem_nil, .nil⟩
  | cons record records hypothesis =>
      rw [readRows_cons] at read
      obtain ⟨first, isFirst, read⟩ := Outcome.bind_eq_ok_iff.1 read
      obtain ⟨rest, areRest, read⟩ := Outcome.bind_eq_ok_iff.1 read
      obtain rfl := Except.ok.inj read
      obtain ⟨after, ascending⟩ := hypothesis areRest
      have behind := after first.bar.date rfl
      refine ⟨fun earlier isPrevious result member => ?_, .cons behind ascending⟩
      have before := (date_of_readRecord isFirst).2 earlier isPrevious
      rcases List.mem_cons.1 member with rfl | later
      · exact before
      · exact Date.isBefore_trans before (behind result later)

end

/-! ## Series -/

section

variable (layout : Layout) (rows : List Row)

theorem aligned_seriesOf : (seriesOf layout rows).Aligned rows.length := by
  have columns : (SeriesSet.ofBars (rows.map Row.bar)).Aligned rows.length := by
    rw [SeriesSet.ofBars_eq_foldl]
    refine SeriesSet.aligned_foldl_insert (fun _ none => absurd none List.not_mem_nil) ?_
    intro put member
    obtain ⟨column, _, rfl⟩ := List.mem_map.1 member
    simp
  refine SeriesSet.aligned_foldl_insert columns fun put member => ?_
  obtain ⟨index, bound, rfl⟩ := List.mem_mapIdx.1 member
  simp

/-- The series of a table are those of the prices and of its other columns. -/
theorem contains_seriesOf_iff {key : String} :
    (seriesOf layout rows).contains key = true ↔
      (∃ column : Column, column.key = key) ∨
        ∃ position ∈ layout.extras, layout.nameAt position = key := by
  have columns : (SeriesSet.ofBars (rows.map Row.bar)).contains key = true ↔
      ∃ column : Column, column.key = key := by
    rw [SeriesSet.ofBars_eq_foldl, SeriesSet.contains_foldl_insert]
    constructor
    · rintro (⟨put, member, named⟩ | none)
      · obtain ⟨column, _, rfl⟩ := List.mem_map.1 member
        exact ⟨column, named⟩
      · cases none
    · rintro ⟨column, named⟩
      exact Or.inl ⟨_, List.mem_map_of_mem column.mem_all, named⟩
  rw [seriesOf, SeriesSet.contains_foldl_insert, columns, or_comm]
  refine or_congr_right ⟨?_, ?_⟩
  · rintro ⟨put, member, named⟩
    obtain ⟨index, bound, rfl⟩ := List.mem_mapIdx.1 member
    exact ⟨_, List.getElem_mem bound, named⟩
  · rintro ⟨position, member, named⟩
    obtain ⟨index, bound, rfl⟩ := List.mem_iff_getElem.1 member
    exact ⟨_, List.mem_mapIdx.2 ⟨index, bound, rfl⟩, named⟩

end

/-! ## The whole table -/

/-- Accepted tables can be replayed, and others are refused for their first fault. An
accepted table has one bar for each record, the dates of which ascend, and a series for each
price and each other column, all with one value for every bar. So a strategy decides every
bar of it or lacks series. Once the header of a table is accepted, the table is refused
exactly for the first fault of its first record that has one, in the order of the checks, or
because it has no records. -/
theorem accepted_tables_replay (bytes : List Csv.Byte) :
    (∀ history, read bytes = .ok history ->
      history.bars ≠ [] ∧ history.bars.length = (Csv.records bytes).tail.length ∧
      (history.bars.Pairwise fun first second => first.date.isBefore second.date = true) ∧
      history.series.Aligned history.bars.length ∧
      (∃ header layout, header? (Csv.records bytes) = some header ∧
        Layout.ofHeader header = .ok layout ∧
        ∀ key, history.series.contains key = true ↔
          (∃ column : Column, column.key = key) ∨
            ∃ position ∈ layout.extras, layout.nameAt position = key) ∧
      ∀ strategy : Strategy,
        (∃ decisions, strategy.replay history.series = .ok decisions ∧
          decisions.length = history.bars.length) ∨
        ∃ keys, strategy.replay history.series = .error (.missing keys)) ∧
    ∀ header layout, header? (Csv.records bytes) = some header ->
      Layout.ofHeader header = .ok layout ->
        LaysOut header layout ∧
        ∀ fault, read bytes = .error fault ↔
          IsFirstFault layout [] (Csv.records bytes).tail fault ∨
            (Csv.records bytes).tail = [] ∧ fault = .empty := by
  refine ⟨fun history accepted => ?_, fun header layout isHeader isLayout =>
    ⟨laysOut_of_ofHeader isLayout, fun fault => ?_⟩⟩
  · obtain ⟨header, layout, rows, isHeader, isLayout, areRows, some, rfl⟩ :=
      exists_rows_of_read accepted
    have aligned : (seriesOf layout rows).Aligned (rows.map Row.bar).length := by
      rw [List.length_map]
      exact aligned_seriesOf layout rows
    have contains := @contains_seriesOf_iff layout rows
    refine ⟨fun none => some (List.map_eq_nil_iff.1 none),
      (List.length_map _).trans (length_of_readRows areRows),
      List.pairwise_map.2 (ascending_of_readRows areRows).2, aligned,
      ⟨header, layout, isHeader, isLayout, fun key => contains⟩,
      aligned.replay (contains.2 (Or.inl ⟨.close, rfl⟩))⟩
  · have failed := @readRows_eq_error_iff layout [] (Csv.records bytes).tail fault
    rw [read_of_layout isHeader isLayout, Outcome.bind_eq_error_iff]
    refine or_congr failed ⟨?_, ?_⟩
    · rintro ⟨rows, areRows, failed⟩
      split at failed
      next empty =>
        rw [List.isEmpty_iff.1 empty] at areRows
        exact ⟨List.length_eq_zero_iff.1 (length_of_readRows areRows).symm,
          (Except.error.inj failed).symm⟩
      next => cases failed
    · rintro ⟨none, rfl⟩
      rw [none]
      exact ⟨[], rfl, rfl⟩

/-- A table with two columns of one indicator. -/
def listedTwice : List Csv.Byte :=
  ("date,open,high,low,close,volume,rsi_14,rsi_14\n" ++
    "2024-01-02,1,2,1,2,10,30,40\n" ++
    "2024-01-03,2,3,2,3,10,nan,50\n").toUTF8.toList

/-- A table whose second date is too early, in a record with more faults, and with a record
behind it that is too short. -/
def outOfOrder : List Csv.Byte :=
  ("date,open,high,low,close,volume,rsi_14\n" ++
    "2024-01-03,1,2,1,2,10,30\n" ++
    "2024-01-02,x,3,2,3,10,y\n" ++
    "2024-01-04,1\n").toUTF8.toList

theorem accepted_tables_replay_outOfOrder :
    (∃ history, read listedTwice = .ok history ∧ history.series.length "rsi_14" = 2 ∧
      ∀ strategy : Strategy,
        (∃ decisions, strategy.replay history.series = .ok decisions ∧ decisions.length = 2) ∨
        ∃ keys, strategy.replay history.series = .error (.missing keys)) ∧
    read outOfOrder = .error (.unsorted 2 ⟨2024, 1, 2⟩) := by
  constructor
  · have computed : (read listedTwice).toOption.map (fun history =>
        (history.bars.length, history.series.length "rsi_14")) = some (2, 2) := by
      decide +kernel
    obtain ⟨history, found, lengths⟩ := Option.map_eq_some_iff.1 computed
    obtain ⟨bars, values⟩ := Prod.mk.inj lengths
    have isRead := Outcome.toOption_eq_some_iff.1 found
    obtain ⟨_, _, _, _, _, replays⟩ := (accepted_tables_replay listedTwice).1 history isRead
    exact ⟨history, isRead, values, bars ▸ replays⟩
  · have computed : (header? (Csv.records outOfOrder)).bind (fun header =>
        (Layout.ofHeader header).toOption.bind fun layout =>
        (Csv.records outOfOrder).tail.head?.bind fun first =>
        (Csv.records outOfOrder).tail.tail.head?.map fun second =>
          (layout.firstFault? [] first, layout.firstFault? [first] second)) =
        some (none, some (.unsorted 2 ⟨2024, 1, 2⟩)) := by
      decide +kernel
    obtain ⟨header, isHeader, computed⟩ := Option.bind_eq_some_iff.1 computed
    obtain ⟨layout, isLayout, computed⟩ := Option.bind_eq_some_iff.1 computed
    obtain ⟨first, isFirst, computed⟩ := Option.bind_eq_some_iff.1 computed
    obtain ⟨second, isSecond, faults⟩ := Option.map_eq_some_iff.1 computed
    obtain ⟨sound, faulty⟩ := Prod.mk.inj faults
    obtain ⟨rest, areRecords⟩ := List.head?_eq_some_iff.1 isFirst
    rw [areRecords, List.tail_cons] at isSecond
    obtain ⟨behind, rfl⟩ := List.head?_eq_some_iff.1 isSecond
    refine (((accepted_tables_replay outOfOrder).2 header layout isHeader
      (Outcome.toOption_eq_some_iff.1 isLayout)).2 _).2 (Or.inl ?_)
    rw [areRecords]
    exact isFirstFault_cons_iff.2 (Or.inr ⟨sound, isFirstFault_cons_iff.2 (Or.inl faulty)⟩)

end History
end StrategyGraph
