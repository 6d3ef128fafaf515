import StrategyGraph.Market.SeriesSet
import StrategyGraph.Proofs.Outcome

/-!
# Agreement and prefixes of sets of series

Two sets agree up to a bar if they give the same values to the same keys at all
bars until then. Cutting all series of a set to their first bars gives a set that
agrees with it and serves the same strategies.
-/

namespace StrategyGraph
namespace SeriesSet

/-- Two sets have the same values of some keys at all bars up to a bar. -/
def AgreesUpTo (set other : SeriesSet Value) (keys : List String) (bar : Nat) : Prop :=
  ∀ key ∈ keys, ∀ index, index <= bar -> set.value? key index = other.value? key index

namespace AgreesUpTo

variable {set other : SeriesSet Value} {keys fewer : List String} {bar earlier : Nat}

/-- Agreement is inherited by fewer keys and earlier bars. -/
theorem mono
    (agrees : set.AgreesUpTo other keys bar)
    (subset : ∀ key ∈ fewer, key ∈ keys)
    (before : earlier <= bar) :
    set.AgreesUpTo other fewer earlier := by
  intro key member index reached
  exact agrees key (subset key member) index (Nat.le_trans reached before)

end AgreesUpTo

/-- A strategy can run on a set exactly when every series it needs is there and
as long as the closes. -/
theorem checkRequirements_eq_ok_iff
    {set : SeriesSet Value}
    {strategy : Strategy} :
    set.checkRequirements strategy = .ok () ↔
      ∀ key ∈ strategy.neededKeys,
        set.contains key = true ∧ set.length key = set.barCount := by
  unfold checkRequirements
  dsimp only
  split
  next complete =>
    have present : ∀ key ∈ strategy.neededKeys, set.contains key = true := by
      simpa [List.filter_eq_nil_iff] using complete
    rw [Outcome.forM_eq_ok_iff]
    constructor
    · intro checked key member
      refine ⟨present key member, ?_⟩
      have outcome := checked key member
      split at outcome
      next equal => exact equal
      next => cases outcome
    · intro required key member
      rw [if_pos (required key member).2]
  next missing =>
    constructor
    · intro impossible
      cases impossible
    · intro required
      have complete : strategy.neededKeys.filter (fun key => !set.contains key) = [] := by
        rw [List.filter_eq_nil_iff]
        intro key member
        simp [(required key member).1]
      rw [complete] at missing
      exact absurd rfl missing

/-- A check that finds series missing names all the needed ones that are. -/
theorem checkRequirements_eq_missing_iff
    {set : SeriesSet Value}
    {strategy : Strategy}
    {keys : List String} :
    set.checkRequirements strategy = .error (.missing keys) ↔
      keys ≠ [] ∧ keys = strategy.neededKeys.filter fun key => !set.contains key := by
  unfold checkRequirements
  dsimp only
  split
  next complete =>
    constructor
    · intro refused
      obtain ⟨key, _, mismatch⟩ := Outcome.exists_error_of_forM refused
      split at mismatch
      next => cases mismatch
      next => cases mismatch
    · rintro ⟨some, rfl⟩
      exact absurd (List.isEmpty_iff.1 complete) some
  next missing =>
    constructor
    · intro refused
      cases refused
      exact ⟨fun none => missing (List.isEmpty_iff.2 none), rfl⟩
    · rintro ⟨_, rfl⟩
      rfl

/-- A set cut to its first bars. -/
def take (set : SeriesSet Value) (count : Nat) : SeriesSet Value :=
  ⟨set.entries.map fun entry => (entry.1, entry.2.take count)⟩

section

variable (set : SeriesSet Value) (count : Nat)

theorem series_take (key : String) :
    (set.take count).series? key = (set.series? key).map fun values => values.take count := by
  unfold series? take
  induction set.entries with
  | nil => rfl
  | cons entry entries hypothesis =>
      rw [List.map_cons, List.lookup_cons, List.lookup_cons]
      cases key == entry.1 with
      | true => rfl
      | false => exact hypothesis

@[simp] theorem contains_take (key : String) :
    (set.take count).contains key = set.contains key := by
  rw [contains, series_take, Option.isSome_map, contains]

@[simp] theorem length_take (key : String) :
    (set.take count).length key = min count (set.length key) := by
  unfold length
  rw [series_take]
  cases set.series? key with
  | none => simp
  | some values => simp

@[simp] theorem barCount_take : (set.take count).barCount = min count set.barCount :=
  set.length_take count Column.close.key

/-- A cut set has the values of the whole one at the bars it keeps. -/
theorem value_take {key : String} {index : Nat} (kept : index < count) :
    (set.take count).value? key index = set.value? key index := by
  unfold value?
  rw [series_take]
  cases set.series? key with
  | none => rfl
  | some values =>
      simp only [Option.map_some, Option.bind_some]
      rw [Array.take_eq_extract, Array.getElem?_extract]
      simp
      omega

/-- A cut set agrees with the whole one at the bars it keeps. -/
theorem agreesUpTo_take {keys : List String} {bar : Nat} (kept : bar < count) :
    set.AgreesUpTo (set.take count) keys bar := by
  intro key _ index reached
  exact (set.value_take count (Nat.lt_of_le_of_lt reached kept)).symm

/-- A strategy that can run on a set can run on all of its prefixes. -/
theorem checkRequirements_take
    {strategy : Strategy}
    (accepted : set.checkRequirements strategy = .ok ()) :
    (set.take count).checkRequirements strategy = .ok () := by
  rw [checkRequirements_eq_ok_iff] at accepted ⊢
  intro key member
  obtain ⟨present, long⟩ := accepted key member
  refine ⟨(set.contains_take count key).trans present, ?_⟩
  rw [length_take, barCount_take, long]

end

end SeriesSet
end StrategyGraph
