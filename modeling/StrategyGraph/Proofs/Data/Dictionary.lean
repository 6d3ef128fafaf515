import Mathlib.Data.List.Induction
import Mathlib.Data.List.Nodup
import StrategyGraph.Data.Dictionary

/-!
# Entries of dictionaries

Entries that are found or collected are among the given ones, and collecting the entries
of a dictionary gives the dictionary.
-/

namespace StrategyGraph
namespace Dictionary

theorem eq_of_entries_eq
    {first second : Dictionary Value}
    (equal : first.entries = second.entries) :
    first = second := by
  cases first
  cases second
  cases equal
  rfl

theorem mem_of_find?
    {dictionary : Dictionary Value}
    {name : String}
    {value : Value}
    (found : dictionary.find? name = some value) :
    (name, value) ∈ dictionary.entries := by
  obtain ⟨entry, isEntry, rfl⟩ := Option.map_eq_some_iff.1 found
  have same : entry.1 = name := by simpa using List.find?_some isEntry
  rw [← same]
  exact List.mem_of_find?_eq_some isEntry

/-- Every name has one entry. -/
theorem nodup_names (dictionary : Dictionary Value) : dictionary.names.Nodup := by
  rw [names, List.Nodup, List.pairwise_map]
  refine dictionary.ascending.imp fun {entry other} before same => ?_
  rw [same] at before
  exact String.lt_irrefl other.1 before

theorem find?_eq_some_iff
    {dictionary : Dictionary Value}
    {name : String}
    {value : Value} :
    dictionary.find? name = some value ↔ (name, value) ∈ dictionary.entries := by
  refine ⟨mem_of_find?, fun member => ?_⟩
  cases found : dictionary.find? name with
  | none =>
      have absent := List.find?_eq_none.1 (Option.map_eq_none_iff.1 found) _ member
      exact absurd (beq_self_eq_true name) absent
  | some other =>
      have entries := List.inj_on_of_nodup_map dictionary.nodup_names
        (mem_of_find? found) member rfl
      rw [(Prod.mk.inj entries).2]

theorem mem_names_iff {dictionary : Dictionary Value} {name : String} :
    name ∈ dictionary.names ↔ ∃ value, dictionary.find? name = some value := by
  simp [names, find?_eq_some_iff]

/-- What is found under each name determines a dictionary. -/
theorem eq_of_find?_eq
    {first second : Dictionary Value}
    (equal : ∀ name, first.find? name = second.find? name) :
    first = second := by
  have permuted : first.entries.Perm second.entries := by
    rw [List.perm_ext_iff_of_nodup (List.Nodup.of_map _ first.nodup_names)
      (List.Nodup.of_map _ second.nodup_names)]
    rintro ⟨name, value⟩
    rw [← find?_eq_some_iff, ← find?_eq_some_iff, equal]
  refine eq_of_entries_eq (permuted.eq_of_pairwise ?_ first.ascending second.ascending)
  exact fun entry other _ _ before behind => absurd behind (String.lt_asymm before)

/-- An inserted value is found under its name, and other names keep theirs. -/
theorem find?_insert (dictionary : Dictionary Value) (name other : String) (value : Value) :
    (dictionary.insert name value).find? other =
      if name = other then some value else dictionary.find? other := by
  rw [find?, find?]
  change ((insertEntry name value dictionary.entries).find? _).map Prod.snd = _
  induction dictionary.entries with
  | nil => by_cases same : name = other <;> simp [insertEntry, same]
  | cons entry entries hypothesis =>
      rw [insertEntry]
      split
      next replaced => by_cases same : name = other <;> simp [← replaced, same]
      next different =>
        split
        next => by_cases same : name = other <;> simp [same]
        next =>
          rw [List.find?_cons, List.find?_cons]
          split
          next found =>
            rw [if_neg (fun same => different (same.trans (beq_iff_eq.1 found).symm))]
          next => exact hypothesis

/-- Of collected entries with one name the last is found. -/
theorem find?_ofList (entries : List (String × Value)) (name : String) :
    (ofList entries).find? name =
      (entries.reverse.find? fun entry => entry.1 == name).map Prod.snd := by
  induction entries using List.reverseRecOn with
  | nil => rfl
  | append_singleton entries entry hypothesis =>
      rw [ofList, List.foldl_concat, ← ofList, find?_insert, hypothesis, List.reverse_concat,
        List.find?_cons]
      split
      next same =>
        rw [beq_iff_eq.2 same]
        rfl
      next different => rw [beq_eq_false_iff_ne.2 different]

theorem mem_of_mem_ofList
    {entries : List (String × Value)}
    {entry : String × Value}
    (member : entry ∈ (ofList entries).entries) :
    entry ∈ entries := by
  have collected : ∀ dictionary : Dictionary Value,
      entry ∈ (entries.foldl
        (fun dictionary entry => dictionary.insert entry.1 entry.2) dictionary).entries ->
        entry ∈ dictionary.entries ∨ entry ∈ entries := by
    clear member
    induction entries with
    | nil => exact fun dictionary member => Or.inl member
    | cons first entries hypothesis =>
        intro dictionary member
        rcases hypothesis (dictionary.insert first.1 first.2) member with inserted | later
        · rcases mem_insertEntry inserted with equal | earlier
          · exact Or.inr (equal ▸ List.mem_cons_self)
          · exact Or.inl earlier
        · exact Or.inr (List.mem_cons_of_mem first later)
  rcases collected empty member with none | listed
  · cases none
  · exact listed

/-- An entry behind all others is put at the end. -/
theorem insertEntry_of_last
    {entries : List (String × Value)}
    {name : String}
    (last : ∀ entry ∈ entries, entry.1 < name)
    (value : Value) :
    insertEntry name value entries = entries ++ [(name, value)] := by
  induction entries with
  | nil => rfl
  | cons entry entries hypothesis =>
      obtain ⟨before, others⟩ := List.forall_mem_cons.1 last
      have different : name ≠ entry.1 := fun same => String.lt_irrefl name (same ▸ before)
      have notBefore : ¬ name < entry.1 := String.lt_asymm before
      rw [insertEntry, if_neg different, if_neg notBefore, hypothesis others, List.cons_append]

/-- Collecting the entries of a dictionary gives the dictionary. -/
theorem ofList_entries (dictionary : Dictionary Value) :
    ofList dictionary.entries = dictionary := by
  have collected : ∀ (entries : List (String × Value)) (start : Dictionary Value),
      Ascending (start.entries ++ entries) ->
        (entries.foldl (fun dictionary entry => dictionary.insert entry.1 entry.2) start).entries =
          start.entries ++ entries := by
    intro entries
    induction entries with
    | nil => exact fun start _ => (List.append_nil _).symm
    | cons entry entries hypothesis =>
        intro start ascending
        have last : ∀ earlier ∈ start.entries, earlier.1 < entry.1 := fun earlier member =>
          (List.pairwise_append.1 ascending).2.2 earlier member entry List.mem_cons_self
        have put : (start.insert entry.1 entry.2).entries = start.entries ++ [entry] :=
          insertEntry_of_last last entry.2
        rw [List.foldl_cons, hypothesis, put, List.append_assoc, List.singleton_append]
        rw [put, List.append_assoc, List.singleton_append]
        exact ascending
  exact eq_of_entries_eq (collected dictionary.entries empty dictionary.ascending)

end Dictionary
end StrategyGraph
