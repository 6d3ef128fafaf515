import StrategyGraph.Proofs.Data.Dictionary
import StrategyGraph.Proofs.Data.Fields
import StrategyGraph.Proofs.Outcome

/-!
# Readers that restore what is written

A reader and a writer of one kind of values belong together: the reader gives back every
value that is written without loss, and whatever else it accepts, in any of the forms a
value may be given in, has a written form without loss and without further levels. This
carries over from the parts of a value to lists, dictionaries and fields of records.
-/

namespace StrategyGraph
namespace Datum

/-- A reader and a writer of the same values. -/
structure Faithful (read : Datum -> Option Value) (write : Value -> Datum) : Prop where
  /-- What is written without loss is read back. -/
  restores : ∀ {depth value}, Writable depth (write value) -> read (write value) = some value
  /-- What is read off finite data is written without loss and without further levels. -/
  retains : ∀ {depth datum value}, Finite depth datum -> read datum = some value ->
    Writable depth (write value)

/-! ## Scalars -/

theorem faithful_number : Faithful number? .number := by
  refine ⟨fun _ => rfl, fun finite reads => ?_⟩
  unfold number? at reads
  split at reads
  next =>
    cases reads
    cases finite with
    | number isFinite => exact .number isFinite
  next =>
    dsimp only at reads
    split at reads
    next isFinite =>
      cases reads
      exact .number isFinite
    next => cases reads
  next => cases reads

theorem faithful_count : Faithful count? ofNat := by
  refine ⟨fun {depth count} writable => ?_, fun _ reads => ?_⟩
  · rw [ofNat] at writable ⊢
    cases writable with
    | integer fits => exact if_pos fits
  · unfold count? at reads
    split at reads
    next =>
      split at reads
      next fits =>
        cases reads
        exact .integer fits
      next => cases reads
    next => cases reads

/-- Choices are written by name. -/
theorem faithful_choice
    {standing : Standing}
    {find : String -> Option Value}
    {name : Value -> String}
    (found : ∀ value, find (name value) = some value) :
    Faithful (choice? standing find) fun value => .text (name value) :=
  ⟨fun _ => found _, fun _ _ => .text⟩

section

variable {depth : Nat}

@[simp] theorem writable_number_iff {x : Float} :
    Writable depth (.number x) ↔ x.isFinite = true :=
  ⟨fun writable => by cases writable; assumption, .number⟩

@[simp] theorem writable_ofNat_iff {count : Nat} :
    Writable depth (ofNat count) ↔ count <= Binary64.largestCount :=
  ⟨fun writable => by cases writable; assumption, fun fits => .integer fits⟩

@[simp] theorem writable_ofOption_iff {write : Value -> Datum} {value : Option Value} :
    Writable depth (ofOption write value) ↔ ∀ given ∈ value, Writable depth (write given) := by
  cases value with
  | none => exact iff_of_true .null nofun
  | some given => simp [ofOption]

@[simp] theorem writable_ofDictionary_iff
    {write : Value -> Datum}
    {dictionary : Dictionary Value} :
    Writable (depth + 1) (ofDictionary write dictionary) ↔
      ∀ entry ∈ dictionary.entries, Writable depth (write entry.2) := by
  rw [ofDictionary]
  constructor
  · intro writable
    cases writable with
    | record each => exact fun entry member => each _ (List.mem_map_of_mem member)
  · intro each
    refine .record fun member inside => ?_
    obtain ⟨entry, listed, rfl⟩ := List.mem_map.1 inside
    exact each entry listed

@[simp] theorem lossless_number_iff {x : Float} : (Datum.number x).Lossless ↔ x.isFinite = true :=
  writable_number_iff

@[simp] theorem lossless_ofNat_iff {count : Nat} :
    (ofNat count).Lossless ↔ count <= Binary64.largestCount :=
  writable_ofNat_iff

@[simp] theorem lossless_ofOption_iff {write : Value -> Datum} {value : Option Value} :
    (ofOption write value).Lossless ↔ ∀ given ∈ value, (write given).Lossless := by
  cases value with
  | none => exact iff_of_true .null nofun
  | some given => simp [ofOption]

@[simp] theorem lossless_ofDictionary_iff
    {write : Value -> Datum}
    {dictionary : Dictionary Value} :
    (ofDictionary write dictionary).Lossless ↔
      ∀ entry ∈ dictionary.entries, (write entry.2).Lossless := by
  rw [ofDictionary, lossless_record_iff, List.forall_mem_map]

end

/-! ## Lists, dictionaries and missing values -/

/-- A list is read back if its values are. -/
theorem listOf?_map
    {read : Datum -> Option Value}
    {write : Value -> Datum}
    {values : List Value}
    (restores : ∀ value ∈ values, read (write value) = some value) :
    listOf? read (.list (values.map write)) = some values := by
  rw [listOf?, Outcome.mapM_eq_some_iff, List.forall₂_map_left_iff, List.forall₂_same]
  exact restores

/-- The values of a list are read off data with a level less than the list. -/
theorem exists_of_listOf?
    {read : Datum -> Option Value}
    {depth : Nat}
    {datum : Datum}
    {values : List Value}
    (finite : Finite depth datum)
    (reads : listOf? read datum = some values) :
    ∃ inner, depth = inner + 1 ∧
      ∀ value ∈ values, ∃ item, Finite inner item ∧ read item = some value := by
  unfold listOf? at reads
  split at reads
  next =>
    cases finite with
    | list each =>
        refine ⟨_, rfl, fun value listed => ?_⟩
        obtain ⟨item, inside, found⟩ :=
          Outcome.exists_item_of_forall₂ (Outcome.mapM_eq_some_iff.1 reads) listed
        exact ⟨item, each item inside, found⟩
  next => cases reads

section

variable {read : Datum -> Option Value} {write : Value -> Datum} (faithful : Faithful read write)

include faithful

theorem Faithful.nullable (notNull : ∀ value, write value ≠ .null) :
    Faithful (nullable? read) (ofOption write) := by
  refine ⟨fun {depth value} writable => ?_, fun finite reads => ?_⟩
  · cases value with
    | none => rfl
    | some value =>
        unfold nullable? ofOption
        split
        next equal => exact absurd equal (notNull value)
        next =>
          rw [faithful.restores writable]
          rfl
  · unfold nullable? at reads
    split at reads
    next =>
      cases reads
      exact .null
    next =>
      obtain ⟨value, found, rfl⟩ := Option.map_eq_some_iff.1 reads
      exact faithful.retains finite found

theorem Faithful.list : Faithful (listOf? read) fun values => .list (values.map write) := by
  refine ⟨fun {depth values} writable => ?_, fun finite reads => ?_⟩
  · cases writable with
    | list each =>
        exact listOf?_map fun value member =>
          faithful.restores (each _ (List.mem_map_of_mem member))
  · obtain ⟨inner, rfl, sources⟩ := exists_of_listOf? finite reads
    refine .list fun item member => ?_
    obtain ⟨value, listed, rfl⟩ := List.mem_map.1 member
    obtain ⟨source, isFinite, found⟩ := sources value listed
    exact faithful.retains isFinite found

theorem Faithful.dictionary : Faithful (dictionaryOf? read) (ofDictionary write) := by
  refine ⟨fun {depth dictionary} writable => ?_, fun finite reads => ?_⟩
  · rw [ofDictionary] at writable
    cases writable with
    | record each =>
        have entries : (dictionary.entries.map fun entry => (entry.1, write entry.2)).mapM
            (fun member => do
              let value <- read member.2
              return (member.1, value)) = some dictionary.entries := by
          rw [Outcome.mapM_eq_some_iff, List.forall₂_map_left_iff, List.forall₂_same]
          intro entry member
          have found := faithful.restores (each _ (List.mem_map_of_mem member))
          simp [found]
        unfold dictionaryOf? ofDictionary
        dsimp only
        rw [entries]
        exact congrArg some dictionary.ofList_entries
  · unfold dictionaryOf? at reads
    split at reads
    next =>
      cases finite with
      | record each =>
          obtain ⟨entries, found, equal⟩ := Option.bind_eq_some_iff.1 reads
          cases equal
          refine .record fun member inside => ?_
          obtain ⟨entry, listed, rfl⟩ := List.mem_map.1 inside
          obtain ⟨source, isSource, taken⟩ := Outcome.exists_item_of_forall₂
            (Outcome.mapM_eq_some_iff.1 found) (Dictionary.mem_of_mem_ofList listed)
          obtain ⟨value, isValue, same⟩ := Option.bind_eq_some_iff.1 taken
          cases same
          exact faithful.retains (each source isSource) isValue
    next => cases reads

theorem Faithful.whole : Faithful (whole? read) write := by
  refine ⟨fun writable => ?_, fun finite reads => ?_⟩
  · rw [whole?, if_pos writable.isReadable, faithful.restores writable]
  · unfold whole? at reads
    split at reads
    next => exact faithful.retains finite reads
    next => cases reads

end

end Datum

/-! ## Fields -/

namespace Fields

section

variable
  {depth : Nat}
  {fields : Fields}
  {read : Datum -> Option Value}
  {write : Value -> Datum}
  {layout : List String}
  {name : String}
  {value fallback : Value}
  (faithful : Datum.Faithful read write)

include faithful

/-- What is read off a field is written without loss. -/
theorem Finite.writable_required
    (finite : fields.Finite depth)
    (reads : (fields.slot layout name).required read = some value) :
    (write value).Writable depth := by
  obtain ⟨datum, isFinite, found⟩ := finite.exists_of_required reads
  exact faithful.retains isFinite found

theorem Finite.writable_optional
    (finite : fields.Finite depth)
    (writable : (write fallback).Writable depth)
    (reads : (fields.slot layout name).optional fallback read = some value) :
    (write value).Writable depth := by
  rcases finite.cases_of_optional reads with rfl | ⟨datum, isFinite, found⟩
  · exact writable
  · exact faithful.retains isFinite found

theorem Finite.writable_omissible
    (finite : fields.Finite depth)
    (writable : (write fallback).Writable depth)
    (reads : (fields.slot layout name).omissible fallback read = some value) :
    (write value).Writable depth := by
  rcases finite.cases_of_omissible reads with rfl | ⟨datum, isFinite, found⟩
  · exact writable
  · exact faithful.retains isFinite found

end

end Fields
end StrategyGraph
