/-!
# Dictionaries

A dictionary maps names to values and lists its entries in the order of their
names, each name once. The order is part of the type, so two dictionaries with
the same entries are equal and have the same written form.
-/

namespace StrategyGraph

/-- Entries whose names strictly increase. -/
def Ascending (entries : List (String × Value)) : Prop :=
  entries.Pairwise fun left right => left.1 < right.1

/-- A finite map from names to values, listed by name. -/
structure Dictionary (Value : Type) where
  entries : List (String × Value)
  ascending : Ascending entries

namespace Dictionary

/-- The dictionary without entries. -/
def empty : Dictionary Value :=
  ⟨[], List.Pairwise.nil⟩

instance : EmptyCollection (Dictionary Value) := ⟨empty⟩

instance : Inhabited (Dictionary Value) := ⟨empty⟩

instance [DecidableEq Value] : DecidableEq (Dictionary Value) := fun left right =>
  if entriesEqual : left.entries = right.entries then
    isTrue (by cases left; cases right; cases entriesEqual; rfl)
  else
    isFalse (fun equal => entriesEqual (congrArg entries equal))

/-- Put an entry into a list of entries by name, in place of an entry of the
same name. -/
def insertEntry (name : String) (value : Value) :
    List (String × Value) -> List (String × Value)
  | [] => [(name, value)]
  | entry :: rest =>
      if name = entry.1 then (name, value) :: rest
      else if name < entry.1 then (name, value) :: entry :: rest
      else entry :: insertEntry name value rest

theorem mem_insertEntry
    {name : String} {value : Value}
    {entries : List (String × Value)} {entry : String × Value}
    (member : entry ∈ insertEntry name value entries) :
    entry = (name, value) ∨ entry ∈ entries := by
  induction entries with
  | nil => simpa [insertEntry] using member
  | cons first rest hypothesis =>
      unfold insertEntry at member
      split at member
      · rcases List.mem_cons.1 member with equal | later
        · exact Or.inl equal
        · exact Or.inr (List.mem_cons_of_mem _ later)
      · split at member
        · rcases List.mem_cons.1 member with equal | later
          · exact Or.inl equal
          · exact Or.inr later
        · rcases List.mem_cons.1 member with equal | later
          · exact Or.inr (equal ▸ List.mem_cons_self)
          · rcases hypothesis later with equal | old
            · exact Or.inl equal
            · exact Or.inr (List.mem_cons_of_mem _ old)

/-- Of two different names one comes first. -/
theorem name_lt_of_not_lt
    {left right : String}
    (different : left ≠ right)
    (notBefore : ¬ left < right) :
    right < left := by
  rcases String.le_total left right with ordered | ordered
  · exact absurd (String.le_antisymm ordered (String.not_lt.1 notBefore)) different
  · rcases Decidable.em (right < left) with before | notAfter
    · exact before
    · exact absurd
        (String.le_antisymm (String.not_lt.1 notAfter) (String.not_lt.1 notBefore))
        different

theorem ascending_insertEntry
    {name : String} {value : Value}
    {entries : List (String × Value)}
    (ascending : Ascending entries) :
    Ascending (insertEntry name value entries) := by
  induction entries with
  | nil => simp [insertEntry, Ascending]
  | cons first rest hypothesis =>
      obtain ⟨headBefore, tailAscending⟩ := List.pairwise_cons.1 ascending
      unfold insertEntry
      split
      next sameName =>
        exact List.pairwise_cons.2
          ⟨fun entry member => sameName ▸ headBefore entry member, tailAscending⟩
      next differentName =>
        split
        next before =>
          refine List.pairwise_cons.2 ⟨fun entry member => ?_, ascending⟩
          rcases List.mem_cons.1 member with equal | later
          · exact equal ▸ before
          · exact String.lt_trans before (headBefore entry later)
        next notBefore =>
          refine List.pairwise_cons.2
            ⟨fun entry member => ?_, hypothesis tailAscending⟩
          rcases mem_insertEntry member with equal | old
          · rw [equal]
            exact name_lt_of_not_lt differentName notBefore
          · exact headBefore entry old

/-- Give a name a value, in place of any earlier one. -/
def insert (dictionary : Dictionary Value) (name : String) (value : Value) :
    Dictionary Value :=
  ⟨insertEntry name value dictionary.entries,
    ascending_insertEntry dictionary.ascending⟩

/-- Dictionary of a list of entries; of entries with one name the last counts. -/
def ofList (entries : List (String × Value)) : Dictionary Value :=
  entries.foldl (fun dictionary entry => dictionary.insert entry.1 entry.2) empty

/-- Value of a name. -/
def find? (dictionary : Dictionary Value) (name : String) : Option Value :=
  (dictionary.entries.find? fun entry => entry.1 == name).map Prod.snd

/-- Names in ascending order. -/
def names (dictionary : Dictionary Value) : List String :=
  dictionary.entries.map Prod.fst

end Dictionary
end StrategyGraph
