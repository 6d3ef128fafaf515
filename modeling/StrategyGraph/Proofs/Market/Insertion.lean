import StrategyGraph.Market.SeriesSet

/-!
# Inserting into sets of series

What a key has after series have been put into a set: the values that were put under it
last, or those it had before. The price columns of a list of bars are found under their
keys.
-/

namespace StrategyGraph

theorem Column.key_inj {first second : Column} : first.key = second.key ↔ first = second := by
  constructor
  · intro equal
    rw [← Option.some.injEq, ← ofKey?_key first, equal, ofKey?_key]
  · exact congrArg key

namespace SeriesSet

variable {set : SeriesSet Value} {key other : String} {values : Array Value}

@[simp] theorem series_insert_self : (set.insert key values).series? key = some values := by
  rw [series?, insert]
  induction set.entries with
  | nil => simp [insertEntry]
  | cons entry entries hypothesis =>
      rw [insertEntry]
      split
      next => simp
      next different =>
        rw [List.lookup_cons, beq_eq_false_iff_ne.2 (Ne.symm different)]
        exact hypothesis

theorem series_insert_of_ne (different : other ≠ key) :
    (set.insert key values).series? other = set.series? other := by
  rw [series?, insert, series?]
  induction set.entries with
  | nil => simp [insertEntry, different]
  | cons entry entries hypothesis =>
      rw [insertEntry, List.lookup_cons]
      split
      next same =>
        rw [List.lookup_cons, same, beq_eq_false_iff_ne.2 different]
      next => rw [List.lookup_cons, hypothesis]

/-- A key is in a set after a put if it is the key of the put or was there before. -/
@[simp] theorem contains_insert :
    (set.insert key values).contains other = true ↔ other = key ∨ set.contains other = true := by
  by_cases same : other = key
  · subst same
    simp [contains]
  · simp [contains, series_insert_of_ne same, same]

/-- A put adds one entry and may replace another one. -/
theorem mem_entries_of_insert
    {entry : String × Array Value}
    (member : entry ∈ (set.insert key values).entries) :
    entry = (key, values) ∨ entry ∈ set.entries := by
  obtain ⟨entries⟩ := set
  change entry ∈ insertEntry key values entries at member
  change entry = (key, values) ∨ entry ∈ entries
  induction entries with
  | nil => exact Or.inl (List.mem_singleton.1 member)
  | cons first entries hypothesis =>
      rw [insertEntry] at member
      split at member
      next =>
        exact (List.mem_cons.1 member).imp_right (List.mem_cons_of_mem first)
      next =>
        rcases List.mem_cons.1 member with rfl | later
        · exact Or.inr List.mem_cons_self
        · exact (hypothesis later).imp_right (List.mem_cons_of_mem first)

/-- Puts under other keys leave a series as it is. -/
theorem series_foldl_insert_of_ne
    {puts : List (String × List Value)}
    (different : ∀ put ∈ puts, other ≠ put.1) :
    (puts.foldl (fun set put => set.insert put.1 put.2.toArray) set).series? other =
      set.series? other := by
  induction puts generalizing set with
  | nil => rfl
  | cons put puts hypothesis =>
      rw [List.forall_mem_cons] at different
      rw [List.foldl_cons, hypothesis different.2, series_insert_of_ne different.1]

/-- The last put under a key supplies its series. -/
theorem series_foldl_insert_of_last
    {before behind : List (String × List Value)}
    {values : List Value}
    (last : ∀ put ∈ behind, key ≠ put.1) :
    ((before ++ (key, values) :: behind).foldl
        (fun set put => set.insert put.1 put.2.toArray) set).series? key =
      some values.toArray := by
  rw [List.foldl_append, List.foldl_cons, series_foldl_insert_of_ne last, series_insert_self]

/-- After several puts a set has their keys and those it had. -/
theorem contains_foldl_insert {puts : List (String × List Value)} :
    (puts.foldl (fun set put => set.insert put.1 put.2.toArray) set).contains other = true ↔
      (∃ put ∈ puts, put.1 = other) ∨ set.contains other = true := by
  induction puts generalizing set with
  | nil => simp
  | cons put puts hypothesis =>
      simp only [List.foldl_cons, hypothesis, contains_insert, List.mem_cons, exists_eq_or_imp]
      rw [or_left_comm, or_assoc, @eq_comm _ other]

/-- All series of a set are of one length. -/
def Aligned (set : SeriesSet Value) (length : Nat) : Prop :=
  ∀ entry ∈ set.entries, entry.2.size = length

/-- Puts of one length keep a set aligned. -/
theorem aligned_foldl_insert
    {puts : List (String × List Value)}
    {length : Nat}
    (aligned : set.Aligned length)
    (long : ∀ put ∈ puts, put.2.length = length) :
    (puts.foldl (fun set put => set.insert put.1 put.2.toArray) set).Aligned length := by
  induction puts generalizing set with
  | nil => exact aligned
  | cons put puts hypothesis =>
      rw [List.forall_mem_cons] at long
      refine hypothesis (fun entry member => ?_) long.2
      rcases mem_entries_of_insert member with rfl | earlier
      · exact long.1
      · exact aligned entry earlier

/-- The columns of some bars are put into a set one after the other. -/
theorem ofBars_eq_foldl (bars : List Bar) :
    ofBars bars =
      (Column.all.map fun column => (column.key, bars.map fun bar => bar.column column)).foldl
        (fun set put => set.insert put.1 put.2.toArray) empty := by
  rw [ofBars, List.foldl_map]

/-- Every price column of some bars is found under its key. -/
theorem series_ofBars (bars : List Bar) (column : Column) :
    (ofBars bars).series? column.key = some (bars.map fun bar => bar.column column).toArray := by
  obtain ⟨before, behind, split⟩ := List.append_of_mem column.mem_all
  have distinct : (before ++ column :: behind).Nodup := split ▸ by decide
  rw [ofBars_eq_foldl, split, List.map_append, List.map_cons, series_foldl_insert_of_last]
  intro put member
  obtain ⟨later, listed, rfl⟩ := List.mem_map.1 member
  rw [Ne, Column.key_inj]
  rintro rfl
  exact (List.nodup_cons.1 (List.nodup_append.1 distinct).2.1).1 listed

end SeriesSet
end StrategyGraph
