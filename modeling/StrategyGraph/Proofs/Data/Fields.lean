import Mathlib.Data.List.Nodup
import StrategyGraph.Data.Fields
import StrategyGraph.Proofs.Data.Datum

/-!
# Reading fields

What is written with fields is a record that names each of its fields once, the tag of a
variant first, and each field is read off its member. What is read off fields, in any form
they may be given in, comes from a part of them that has a level less.
-/

namespace StrategyGraph
namespace Fields

/-! ## Records that name each field once -/

section

variable
  {members : List (String × Datum)}
  {layout : List String}
  {name other : String}
  {datum : Datum}

theorem occurrences_le_one (distinct : (members.map Prod.fst).Nodup) (name : String) :
    occurrences members name <= 1 := by
  have once : (members.map Prod.fst).count name <= 1 := List.nodup_iff_count_le_one.1 distinct name
  rwa [List.count_eq_length_filter, List.filter_map, List.length_map] at once

theorem fits_named (distinct : (members.map Prod.fst).Nodup) :
    (named members).fits layout = true :=
  List.all_eq_true.2 fun name _ => decide_eq_true (occurrences_le_one distinct name)

/-- A field is looked for in one member after the other. -/
@[simp] theorem slot_named_cons :
    (named ((other, datum) :: members)).slot layout name =
      if other = name then .given datum else (named members).slot layout name := by
  by_cases same : other = name <;> simp [slot, same]

/-- The tag is taken out of a record that begins with it. -/
@[simp] theorem tagged?_named_cons (once : name ∉ members.map Prod.fst) :
    (named ((name, datum) :: members)).tagged? name = some (datum, named members) := by
  have others : ∀ member ∈ members, (member.1 == name) = false := fun member inside =>
    beq_eq_false_iff_ne.2 fun equal => once (equal ▸ List.mem_map_of_mem inside)
  have none : members.filter (fun member => member.1 == name) = [] :=
    List.filter_eq_nil_iff.2 fun member inside => by simp [others member inside]
  have remaining : members.filter (fun member => member.1 != name) = members :=
    List.filter_eq_self.2 fun member inside => by simp [bne, others member inside]
  simp [tagged?, none, remaining]

end

end Fields

namespace Slot

variable {read : Datum -> Option Value} {fallback : Value} {datum : Datum}

@[simp] theorem required_given : (given datum).required read = read datum := rfl

@[simp] theorem optional_given : (given datum).optional fallback read = read datum := rfl

@[simp] theorem omissible_given : (given datum).omissible fallback read = read datum := rfl

end Slot

namespace Datum

section

variable
  {members : List (String × Datum)}
  {layout : List String}
  {read : (String -> Slot) -> Option Value}

theorem fields?_named (distinct : (members.map Prod.fst).Nodup) :
    fields? layout read (.named members) =
      read fun name => (Fields.named members).slot layout name := by
  rw [fields?, if_pos (Fields.fits_named distinct)]

theorem structure?_record (distinct : (members.map Prod.fst).Nodup) :
    structure? layout read (.record members) =
      read fun name => (Fields.named members).slot layout name := by
  rw [structure?, Fields.ofDatum?, Option.bind_some, fields?_named distinct]

end

/-- The name of a variant is looked for in one entry after the other. -/
@[simp] theorem tag?_text_cons
    {standing : Standing}
    {variants : List (String × Value)}
    {name other : String}
    {value : Value} :
    tag? standing ((other, value) :: variants) (.text name) =
      if name = other then some value else tag? standing variants (.text name) := by
  rw [tag?, tag?, List.lookup_cons]
  by_cases same : name = other
  · rw [if_pos same, beq_iff_eq.2 same]
  · rw [if_neg same, beq_eq_false_iff_ne.2 same]

end Datum

/-! ## Finite fields -/

namespace Fields

/-- Fields whose numbers are finite, of at most `depth` levels. -/
def Finite (depth : Nat) : Fields -> Prop
  | .named members => ∀ member ∈ members, member.2.Finite depth
  | .positional items => ∀ item ∈ items, item.Finite depth

variable {depth : Nat} {fields : Fields}

/-- The fields of a datum have a level less than the datum. -/
theorem finite_of_ofDatum?
    {datum : Datum}
    (finite : datum.Finite depth)
    (isFields : ofDatum? datum = some fields) :
    ∃ inner, depth = inner + 1 ∧ fields.Finite inner := by
  unfold ofDatum? at isFields
  split at isFields
  next =>
    cases isFields
    cases finite with
    | record each => exact ⟨_, rfl, each⟩
  next =>
    cases isFields
    cases finite with
    | list each => exact ⟨_, rfl, each⟩
  next => cases isFields

theorem finite_of_ofRecord?
    {datum : Datum}
    (finite : datum.Finite depth)
    (isRecord : ofRecord? datum = some fields) :
    ∃ inner, depth = inner + 1 ∧ fields.Finite inner := by
  unfold ofRecord? at isRecord
  split at isRecord
  next => exact finite_of_ofDatum? finite isRecord
  next => cases isRecord

theorem Finite.slot
    (finite : fields.Finite depth)
    {layout : List String}
    {name : String}
    {datum : Datum}
    (given : fields.slot layout name = .given datum) :
    datum.Finite depth := by
  unfold Fields.slot at given
  split at given
  next =>
    split at given
    next found =>
      cases given
      exact finite _ (List.mem_of_find?_eq_some found)
    next => cases given
  next =>
    split at given
    next found =>
      cases given
      exact finite _ (List.mem_of_getElem? found)
    next => cases given

theorem Finite.tagged
    (finite : fields.Finite depth)
    {tag : String}
    {found : Datum × Fields}
    (isTagged : fields.tagged? tag = some found) :
    found.2.Finite depth := by
  unfold tagged? at isTagged
  split at isTagged
  next =>
    split at isTagged
    next =>
      cases isTagged
      exact fun member inside => finite member (List.mem_of_mem_filter inside)
    next => cases isTagged
  next =>
    cases isTagged
    exact fun item member => finite item (List.mem_cons_of_mem _ member)
  next => cases isTagged

/-- Fields are read off slots if they fit the layout. -/
theorem slots_of_fields?
    {layout : List String}
    {read : (String -> Slot) -> Option Value}
    {value : Value}
    (reads : Datum.fields? layout read fields = some value) :
    read (fun name => fields.slot layout name) = some value := by
  rw [Datum.fields?] at reads
  split at reads
  next => exact reads
  next => cases reads

/-- A value with fields is read off the slots of finite fields. -/
theorem slots_of_structure?
    {layout : List String}
    {read : (String -> Slot) -> Option Value}
    {datum : Datum}
    {value : Value}
    (finite : datum.Finite depth)
    (reads : Datum.structure? layout read datum = some value) :
    ∃ inner fields, depth = inner + 1 ∧ Finite inner fields ∧
      read (fun name => fields.slot layout name) = some value := by
  obtain ⟨fields, isFields, found⟩ := Option.bind_eq_some_iff.1 reads
  obtain ⟨inner, equal, isFinite⟩ := finite_of_ofDatum? finite isFields
  exact ⟨inner, fields, equal, isFinite, slots_of_fields? found⟩

/-- A tagged value is read off the finite fields that remain behind its tag. -/
theorem variant_of_tagged
    {datum : Datum}
    {name : String}
    {standing : Standing}
    {variants : List (String × Tag)}
    {read : Tag -> Fields -> Option Value}
    {value : Value}
    (finite : datum.Finite depth)
    (reads : (do
      let fields <- ofDatum? datum
      let (tagDatum, remaining) <- fields.tagged? name
      let tag <- Datum.tag? standing variants tagDatum
      read tag remaining) = some value) :
    ∃ inner tag remaining, depth = inner + 1 ∧ Finite inner remaining ∧
      read tag remaining = some value := by
  obtain ⟨fields, isFields, reads⟩ := Option.bind_eq_some_iff.1 reads
  obtain ⟨⟨tagDatum, remaining⟩, isTagged, reads⟩ := Option.bind_eq_some_iff.1 reads
  obtain ⟨tag, _, reads⟩ := Option.bind_eq_some_iff.1 reads
  obtain ⟨inner, equal, isFinite⟩ := finite_of_ofDatum? finite isFields
  exact ⟨inner, tag, remaining, equal, isFinite.tagged isTagged, reads⟩

section

variable
  {read : Datum -> Option Value}
  {write : Value -> Datum}
  {layout : List String}
  {name : String}
  {value fallback : Value}

/-- A required field is read off what was given for it. -/
theorem Finite.exists_of_required
    (finite : fields.Finite depth)
    (reads : (fields.slot layout name).required read = some value) :
    ∃ datum, Datum.Finite depth datum ∧ read datum = some value := by
  unfold Slot.required at reads
  split at reads
  next given => exact ⟨_, finite.slot given, reads⟩
  next => cases reads

/-- An optional field is filled in or read off what was given for it. -/
theorem Finite.cases_of_optional
    (finite : fields.Finite depth)
    (reads : (fields.slot layout name).optional fallback read = some value) :
    value = fallback ∨ ∃ datum, Datum.Finite depth datum ∧ read datum = some value := by
  unfold Slot.optional at reads
  split at reads
  next given => exact Or.inr ⟨_, finite.slot given, reads⟩
  next => exact Or.inl (Option.some.inj reads).symm

theorem Finite.cases_of_omissible
    (finite : fields.Finite depth)
    (reads : (fields.slot layout name).omissible fallback read = some value) :
    value = fallback ∨ ∃ datum, Datum.Finite depth datum ∧ read datum = some value := by
  unfold Slot.omissible at reads
  split at reads
  next given => exact Or.inr ⟨_, finite.slot given, reads⟩
  next => exact Or.inl (Option.some.inj reads).symm
  next => cases reads

end

end Fields
end StrategyGraph
