import Mathlib.Data.List.Basic
import StrategyGraph.Compile.Compilation

/-!
# The first series of each key

Of the series that a strategy reads, the first one of each key is listed. No key is lost by
that, and what is kept of several lists depends only on what is kept of each.
-/

namespace StrategyGraph

/-- Without later entries of a name every name stays, and nothing is added. -/
theorem eraseDupsBy_fst {Item : Type} (entries : List (String × Item)) :
    (∀ entry ∈ entries.eraseDupsBy fun left right => left.1 == right.1, entry ∈ entries) ∧
      ∀ entry ∈ entries, ∃ kept ∈ entries.eraseDupsBy fun left right => left.1 == right.1,
        kept.1 = entry.1 := by
  match entries with
  | [] => simp
  | first :: entries =>
      have shorter : (entries.filter fun entry => (entry.1 == first.1) = false).length <
          (first :: entries).length :=
        Nat.lt_succ_of_le (List.length_filter_le _ entries)
      obtain ⟨listed, kept⟩ :=
        eraseDupsBy_fst (entries.filter fun entry => (entry.1 == first.1) = false)
      rw [List.eraseDupsBy_cons]
      constructor
      · intro entry member
        rcases List.mem_cons.1 member with rfl | later
        · exact List.mem_cons_self
        · exact List.mem_cons_of_mem first (List.mem_of_mem_filter (listed entry later))
      · intro entry member
        by_cases same : entry.1 = first.1
        · exact ⟨first, List.mem_cons_self, same.symm⟩
        · have later : entry ∈ entries :=
            (List.mem_cons.1 member).resolve_left fun equal => same (congrArg Prod.fst equal)
          have remains : entry ∈ entries.filter fun entry => (entry.1 == first.1) = false :=
            List.mem_filter.2 ⟨later, by simpa using same⟩
          obtain ⟨other, isKept, equal⟩ := kept entry remains
          exact ⟨other, List.mem_cons_of_mem first isKept, equal⟩
termination_by entries.length
decreasing_by exact shorter

section

variable {all : List IndicatorSeries} {series : IndicatorSeries}

theorem mem_of_mem_distinctSeries (member : series ∈ distinctSeries all) : series ∈ all := by
  obtain ⟨entry, isKept, rfl⟩ := List.mem_map.1 member
  obtain ⟨one, listed, rfl⟩ := List.mem_map.1 ((eraseDupsBy_fst _).1 entry isKept)
  exact listed

/-- Of several series the first of each key is kept. -/
theorem key_mem_distinctSeries (member : series ∈ all) :
    series.key ∈ (distinctSeries all).map IndicatorSeries.key := by
  obtain ⟨entry, isKept, same⟩ :=
    (eraseDupsBy_fst (all.map fun one => (one.key, one))).2 (series.key, series)
      (List.mem_map_of_mem member)
  obtain ⟨one, _, rfl⟩ := List.mem_map.1 ((eraseDupsBy_fst _).1 entry isKept)
  exact List.mem_map.2 ⟨one, List.mem_map_of_mem isKept, same⟩

end

/-- The keys of several series are those of the first one of each key. -/
theorem mem_keys_distinctSeries_iff {all : List IndicatorSeries} {key : String} :
    key ∈ (distinctSeries all).map IndicatorSeries.key ↔ key ∈ all.map IndicatorSeries.key := by
  constructor
  · intro listed
    obtain ⟨series, member, rfl⟩ := List.mem_map.1 listed
    exact List.mem_map_of_mem (mem_of_mem_distinctSeries member)
  · intro listed
    obtain ⟨series, member, rfl⟩ := List.mem_map.1 listed
    exact key_mem_distinctSeries member

/-- A series stands before those of other keys. -/
theorem distinctSeries_cons (series : IndicatorSeries) (others : List IndicatorSeries) :
    distinctSeries (series :: others) =
      series :: distinctSeries (others.filter fun other => other.key ≠ series.key) := by
  rw [distinctSeries, List.map_cons, List.eraseDupsBy_cons, List.filter_map, List.map_cons,
    distinctSeries]
  congr 5
  funext other
  simp

/-- Keeping some keys commutes with keeping the first series of each key. -/
theorem distinctSeries_filter (keep : String -> Bool) (all : List IndicatorSeries) :
    distinctSeries (all.filter fun series => keep series.key) =
      (distinctSeries all).filter fun series => keep series.key := by
  match all with
  | [] => rfl
  | first :: all =>
      have shorter : (all.filter fun other => other.key ≠ first.key).length <
          (first :: all).length :=
        Nat.lt_succ_of_le (List.length_filter_le _ all)
      have hypothesis := distinctSeries_filter keep (all.filter fun other => other.key ≠ first.key)
      rw [distinctSeries_cons, List.filter_cons, List.filter_cons, ← hypothesis]
      split
      next kept =>
        rw [distinctSeries_cons, List.filter_filter, List.filter_filter]
        simp only [Bool.and_comm]
      next dropped =>
        rw [List.filter_filter]
        refine congrArg distinctSeries (List.filter_congr fun other _ => ?_)
        by_cases same : other.key = first.key
        · simp [same, dropped]
        · simp [same]
termination_by all.length
decreasing_by exact shorter

/-- What is kept of two lists is kept of the first, and of the second where its key is new. -/
theorem distinctSeries_append (left right : List IndicatorSeries) :
    distinctSeries (left ++ right) =
      distinctSeries left ++
        (distinctSeries right).filter fun series =>
          series.key ∉ left.map IndicatorSeries.key := by
  induction left with
  | nil => simp [distinctSeries]
  | cons first left hypothesis =>
      have others (all : List IndicatorSeries) :
          distinctSeries (all.filter fun other => other.key ≠ first.key) =
            (distinctSeries all).filter fun other => other.key ≠ first.key :=
        distinctSeries_filter (fun key => key ≠ first.key) all
      rw [List.cons_append, distinctSeries_cons, distinctSeries_cons, others, others, hypothesis,
        List.filter_append, List.filter_filter, List.cons_append]
      refine congrArg _ (congrArg _ (List.filter_congr fun other _ => ?_))
      simp [List.mem_cons, not_or]

/-- Nothing is kept of a list without new keys. -/
theorem distinctSeries_append_of_keys
    {left right : List IndicatorSeries}
    (known : ∀ series ∈ right, series.key ∈ left.map IndicatorSeries.key) :
    distinctSeries (left ++ right) = distinctSeries left := by
  have nothing : ((distinctSeries right).filter fun series =>
      series.key ∉ left.map IndicatorSeries.key) = [] := by
    refine List.filter_eq_nil_iff.2 fun series kept => ?_
    simpa using known series (mem_of_mem_distinctSeries kept)
  rw [distinctSeries_append, nothing, List.append_nil]

theorem mem_keys_iff_of_distinctSeries
    {all others : List IndicatorSeries}
    (same : distinctSeries all = distinctSeries others)
    (key : String) :
    key ∈ all.map IndicatorSeries.key ↔ key ∈ others.map IndicatorSeries.key := by
  rw [← mem_keys_distinctSeries_iff, same, mem_keys_distinctSeries_iff]

/-- What is kept of two lists depends only on what is kept of each. -/
theorem distinctSeries_append_congr
    {left right otherLeft otherRight : List IndicatorSeries}
    (lefts : distinctSeries left = distinctSeries otherLeft)
    (rights : distinctSeries right = distinctSeries otherRight) :
    distinctSeries (left ++ right) = distinctSeries (otherLeft ++ otherRight) := by
  rw [distinctSeries_append, distinctSeries_append, lefts, rights]
  simp only [mem_keys_iff_of_distinctSeries lefts]

/-- The same is kept below the items of two lists if it is below each pair of them. -/
theorem distinctSeries_flatMap_congr
    {left : First -> List IndicatorSeries}
    {right : Second -> List IndicatorSeries}
    {firsts : List First}
    {seconds : List Second}
    (same : List.Forall₂ (fun first second =>
      distinctSeries (left first) = distinctSeries (right second)) firsts seconds) :
    distinctSeries (firsts.flatMap left) = distinctSeries (seconds.flatMap right) := by
  induction same with
  | nil => rfl
  | cons first _ hypothesis =>
      rw [List.flatMap_cons, List.flatMap_cons]
      exact distinctSeries_append_congr first hypothesis

/-- The same list many times over is kept once. -/
theorem distinctSeries_flatMap_of_same
    {below : Item -> List IndicatorSeries}
    {all : List IndicatorSeries}
    {items : List Item}
    (nonempty : items ≠ [])
    (same : ∀ item ∈ items, distinctSeries (below item) = distinctSeries all) :
    distinctSeries (items.flatMap below) = distinctSeries all := by
  obtain ⟨first, items, rfl⟩ := List.exists_cons_of_ne_nil nonempty
  rw [List.flatMap_cons, distinctSeries_append_of_keys, same first List.mem_cons_self]
  intro series listed
  obtain ⟨item, later, isBelow⟩ := List.mem_flatMap.1 listed
  have inAll := (mem_keys_iff_of_distinctSeries
    (same item (List.mem_cons_of_mem first later)) series.key).1 (List.mem_map_of_mem isBelow)
  exact (mem_keys_iff_of_distinctSeries (same first List.mem_cons_self) series.key).2 inAll

end StrategyGraph
