import StrategyGraph.Data.Json.Reader
import StrategyGraph.Proofs.Data.Datum
import StrategyGraph.Proofs.Data.Json.Number
import StrategyGraph.Proofs.Data.Json.Text

/-!
# Reading written data back

The compact text of a datum without loss is read back level by level, as far as levels are
kept: a list or record on a deeper level is passed over and becomes unreadable. So a text
of no more levels than are read stands for the datum it was written from, and such texts
tell data apart.

The reader takes twice as many steps as the text has characters, since of two steps one
uses up a character. Passing over a value takes a step for every token.
-/

namespace StrategyGraph
namespace Json

open Datum (Writable truncate)

/-- Characters of the compact text of a datum. -/
def characters (datum : Datum) : List Char :=
  (compact datum).toList

/-- Texts with commas between them. -/
def separated (texts : List (List Char)) : List Char :=
  List.intercalate [','] texts

theorem separated_singleton (text : List Char) : separated [text] = text :=
  List.intercalate_singleton

theorem separated_cons_cons (first second : List Char) (others : List (List Char)) :
    separated (first :: second :: others) = first ++ ',' :: separated (second :: others) := by
  rw [separated, List.intercalate_cons_cons, List.append_assoc]
  rfl

/-- Characters of the compact text of a member. -/
def memberCharacters (member : String × Datum) : List Char :=
  (quote member.1).toList ++ ':' :: characters member.2

theorem characters_list (items : List Datum) :
    characters (.list items) =
      '[' :: (separated (items.map characters) ++ [']']) := by
  have each : compactItems items = items.map compact := by
    induction items with
    | nil => rfl
    | cons item items hypothesis => rw [compactItems, hypothesis, List.map_cons]
  rw [characters, compact, each, String.toList_append, String.toList_append,
    String.toList_intercalate, List.map_map]
  rfl

theorem characters_record (members : List (String × Datum)) :
    characters (.record members) =
      '\x7b' :: (separated (members.map memberCharacters) ++ ['\x7d']) := by
  have each : (compactMembers members).map String.toList = members.map memberCharacters := by
    induction members with
    | nil => rfl
    | cons member members hypothesis =>
        rw [compactMembers, List.map_cons, hypothesis, List.map_cons, String.toList_append,
          String.toList_append, List.append_assoc]
        rfl
  rw [characters, compact, String.toList_append, String.toList_append,
    String.toList_intercalate, each]
  rfl

/-! ## Scalars -/

/-- A character that can start a value. -/
def StartsValue (character : Char) : Prop :=
  isBlank character = false ∧ character ≠ ']' ∧ character ≠ '\x7d'

theorem startsValue_of_isDigit {character : Char} (digit : isDigit character = true) :
    StartsValue character ∧ character ≠ '[' ∧ character ≠ '\x7b' := by
  have different : ∀ other, isDigit other = false -> character ≠ other := by
    rintro other none rfl
    exact absurd digit (by simp [none])
  refine ⟨⟨?_, different _ (by decide), different _ (by decide)⟩, different _ (by decide),
    different _ (by decide)⟩
  simp [isBlank, different ' ' (by decide), different '\t' (by decide),
    different '\n' (by decide), different '\r' (by decide)]

section

variable {rounding : Rounding} {steps : Nat} {text : List Char} {read : Datum × List Char}

/-- Numbers start with a minus or a digit. -/
theorem head_of_readNumber (reads : readNumber rounding text = some read) :
    ∃ first rest, text = first :: rest ∧ (first = '-' ∨ isDigit first = true) := by
  cases text with
  | nil => cases reads
  | cons first rest =>
      refine ⟨first, rest, rfl, ?_⟩
      by_contra neither
      rw [not_or, Bool.not_eq_true] at neither
      have split : Decimal.splitDigits (first :: rest) = ([], first :: rest) := by
        rw [Decimal.splitDigits, List.span_eq_takeWhile_dropWhile]
        simp [neither.2]
      simp [readNumber, neither.1, split, isPlainWhole] at reads

theorem readScalar_of_readNumber (reads : readNumber rounding text = some read) :
    readScalar rounding steps text = some read := by
  obtain ⟨first, rest, rfl, head⟩ := head_of_readNumber reads
  have different : ∀ letter, letter ≠ '-' -> isDigit letter = false -> first ≠ letter := by
    rintro letter notMinus noDigit rfl
    rcases head with minus | digit
    · exact notMinus minus
    · exact absurd digit (by simp [noDigit])
  unfold readScalar
  split
  next equal => exact absurd (List.cons.inj equal).1 (different _ (by decide) (by decide))
  next equal => exact absurd (List.cons.inj equal).1 (different _ (by decide) (by decide))
  next equal => exact absurd (List.cons.inj equal).1 (different _ (by decide) (by decide))
  next equal => exact absurd (List.cons.inj equal).1 (different _ (by decide) (by decide))
  next => exact reads

/-- Scalars start with a character that opens no list and no record. -/
theorem head_of_readScalar (reads : readScalar rounding steps text = some read) :
    ∃ first rest, text = first :: rest ∧ StartsValue first ∧ first ≠ '[' ∧ first ≠ '\x7b' := by
  unfold readScalar at reads
  split at reads
  next => exact ⟨_, _, rfl, by simp [StartsValue, isBlank]⟩
  next => exact ⟨_, _, rfl, by simp [StartsValue, isBlank]⟩
  next => exact ⟨_, _, rfl, by simp [StartsValue, isBlank]⟩
  next => exact ⟨_, _, rfl, by simp [StartsValue, isBlank]⟩
  next =>
    obtain ⟨first, rest, rfl, rfl | digit⟩ := head_of_readNumber reads
    · exact ⟨_, _, rfl, by simp [StartsValue, isBlank]⟩
    · exact ⟨first, rest, rfl, startsValue_of_isDigit digit⟩

theorem skipBlanks_cons {first : Char} (starts : isBlank first = false) (rest : List Char) :
    skipBlanks (first :: rest) = first :: rest := by
  rw [skipBlanks, List.dropWhile_cons_of_neg]
  simp [starts]

/-- A scalar is read as a value, on any level. -/
theorem readValue_of_readScalar
    (reads : readScalar rounding steps text = some read)
    (depth : Nat) :
    readValue rounding (steps + 1) depth text = some read := by
  obtain ⟨first, rest, rfl, starts, noList, noRecord⟩ := head_of_readScalar reads
  rw [readValue, skipBlanks_cons starts.1]
  split
  next equal => cases equal; exact absurd rfl noList
  next equal => cases equal; exact absurd rfl noRecord
  next => exact reads

/-- A scalar is passed over. -/
theorem skip_of_readScalar
    (reads : readScalar .stepwise steps text = some read)
    (outer : List Enclosure) :
    skip (steps + 1) .value outer text = skip steps .separator outer read.2 := by
  obtain ⟨first, rest, rfl, starts, noList, noRecord⟩ := head_of_readScalar reads
  rw [skip, skipBlanks_cons starts.1]
  split
  next equal => cases equal; exact absurd rfl noList
  next equal => cases equal; exact absurd rfl noRecord
  next => rw [reads]

end

/-! ## Values that are read back -/

/-- The text of a datum starts a value, is read up to its end as what is left of the datum
on the levels that are kept, and can be passed over. -/
structure ReadsBack (datum : Datum) : Prop where
  starts : ∃ first rest, characters datum = first :: rest ∧ StartsValue first
  reads : ∀ (steps depth : Nat) (rest : List Char),
    2 * (characters datum).length <= steps -> EndsNumber rest ->
      readValue .nearest steps depth (characters datum ++ rest) =
        some (truncate depth datum, rest)
  skips : ∀ (steps : Nat) (outer : List Enclosure) (rest : List Char),
    (characters datum).length <= steps -> EndsNumber rest ->
      ∃ left, steps <= left + (characters datum).length ∧
        skip steps .value outer (characters datum ++ rest) = skip left .separator outer rest

/-- A scalar that is read back as it is, and up to its end however numbers are rounded. -/
theorem readsBack_of_readScalar
    {datum : Datum}
    (scalar : ∀ depth, truncate depth datum = datum)
    (nearest : ∀ {steps : Nat} {rest : List Char},
      (characters datum).length <= steps + 1 -> EndsNumber rest ->
        readScalar .nearest steps (characters datum ++ rest) = some (datum, rest))
    (stepwise : ∀ {steps : Nat} {rest : List Char},
      (characters datum).length <= steps + 1 -> EndsNumber rest ->
        ∃ read, readScalar .stepwise steps (characters datum ++ rest) = some (read, rest)) :
    ReadsBack datum := by
  have noRest : EndsNumber [] := fun character member => by cases member
  obtain ⟨first, others, shape, starts, _⟩ :=
    head_of_readScalar (nearest (Nat.le_succ (characters datum).length) noRest)
  rw [List.append_nil] at shape
  have positive : 0 < (characters datum).length := by
    rw [shape]
    exact Nat.succ_pos _
  refine ⟨⟨first, others, shape, starts⟩, fun steps depth rest enough ends => ?_,
    fun steps outer rest enough ends => ?_⟩
  · obtain ⟨steps, rfl⟩ := Nat.exists_eq_add_of_le' (show 1 <= steps by omega)
    rw [readValue_of_readScalar (nearest (by omega) ends), scalar]
  · obtain ⟨steps, rfl⟩ := Nat.exists_eq_add_of_le' (show 1 <= steps by omega)
    obtain ⟨read, reads⟩ := stepwise enough ends
    exact ⟨steps, by omega, skip_of_readScalar reads outer⟩

theorem readsBack_word
    {datum : Datum}
    (scalar : ∀ depth, truncate depth datum = datum)
    (reads : ∀ (rounding : Rounding) (steps : Nat) (rest : List Char),
      readScalar rounding steps (characters datum ++ rest) = some (datum, rest)) :
    ReadsBack datum :=
  readsBack_of_readScalar scalar (fun _ _ => reads _ _ _) fun _ _ => ⟨_, reads _ _ _⟩

theorem readsBack_null : ReadsBack .null := by
  refine readsBack_word (fun depth => by cases depth <;> rfl) fun rounding steps rest => ?_
  rw [characters, compact]
  simp [readScalar, readWord]

theorem readsBack_boolean (value : Bool) : ReadsBack (.boolean value) := by
  refine readsBack_word (fun depth => by cases depth <;> rfl) fun rounding steps rest => ?_
  rw [characters, compact]
  cases value <;> simp [readScalar, readWord]

theorem readsBack_integer
    {value : Int}
    (fits : value.natAbs <= Binary64.largestCount) :
    ReadsBack (.integer value) := by
  have reads : ∀ (rounding : Rounding) {steps : Nat} {rest : List Char}, EndsNumber rest ->
      readScalar rounding steps (characters (.integer value) ++ rest) =
        some (.integer value, rest) := by
    intro rounding steps rest ends
    rw [characters, compact]
    exact readScalar_of_readNumber (readNumber_integer ends rounding fits)
  exact readsBack_of_readScalar (fun depth => by cases depth <;> rfl) (fun _ ends => reads _ ends)
    fun _ ends => ⟨_, reads _ ends⟩

theorem readsBack_number {x : Float} (finite : x.isFinite = true) : ReadsBack (.number x) := by
  have text : characters (.number x) = (NumberText.data x).toList := by
    rw [characters, compact, numberText, if_pos finite]
  refine readsBack_of_readScalar (fun depth => by cases depth <;> rfl) (fun _ ends => ?_)
    fun _ ends => ?_
  · rw [text]
    exact readScalar_of_readNumber (readNumber_data ends finite)
  · rw [text]
    obtain ⟨read, reads⟩ := exists_readNumber_data ends .stepwise x
    exact ⟨read, readScalar_of_readNumber reads⟩

theorem readsBack_text (value : String) : ReadsBack (.text value) := by
  have reads : ∀ (rounding : Rounding) {steps : Nat} {rest : List Char},
      (characters (.text value)).length <= steps + 1 ->
        readScalar rounding steps (characters (.text value) ++ rest) =
          some (.text value, rest) := by
    intro rounding steps rest enough
    have longer := length_toList_quote value
    rw [characters, compact] at enough ⊢
    obtain ⟨content, shape, read⟩ :=
      readText_quote (show value.toList.length < steps by omega) rest
    rw [shape, readScalar, read]
    simp [textOf?_characters]
  exact readsBack_of_readScalar (fun depth => by cases depth <;> rfl)
    (fun enough _ => reads _ enough) fun enough _ => ⟨_, reads _ enough⟩

/-! ## Lists -/

theorem endsNumber_cons
    {first : Char}
    (ends : first = ',' ∨ first = ']' ∨ first = '\x7d')
    (rest : List Char) :
    EndsNumber (first :: rest) := by
  intro character member
  cases member
  rcases ends with rfl | rfl | rfl <;> decide

/-- Items are read up to the bracket that closes their list. -/
theorem readItems_separated
    {items : List Datum}
    (nonempty : items ≠ [])
    (each : ∀ item ∈ items, ReadsBack item)
    (steps depth : Nat)
    (rest : List Char)
    (enough : 2 * (separated (items.map characters)).length + 2 <= steps) :
    readItems .nearest steps depth (separated (items.map characters) ++ ']' :: rest) =
      some (items.map (truncate depth), rest) := by
  induction items generalizing steps with
  | nil => exact absurd rfl nonempty
  | cons item items hypothesis =>
      obtain ⟨steps, rfl⟩ := Nat.exists_eq_add_of_le' (show 1 <= steps by omega)
      obtain ⟨first, others⟩ := List.forall_mem_cons.1 each
      cases items with
      | nil =>
          rw [List.map_singleton, separated_singleton] at enough ⊢
          rw [readItems, first.reads steps depth _ (by omega)
            (endsNumber_cons (Or.inr (Or.inl rfl)) rest)]
          simp [skipBlanks_cons, isBlank]
      | cons next items =>
          have later := hypothesis (List.cons_ne_nil next items) others steps
          rw [List.map_cons, List.map_cons, separated_cons_cons] at enough ⊢
          rw [List.map_cons] at later
          rw [List.length_append, List.length_cons] at enough
          rw [List.append_assoc, List.cons_append, readItems,
            first.reads steps depth _ (by omega) (endsNumber_cons (Or.inl rfl) _)]
          simp [skipBlanks_cons, isBlank, later (by omega)]

/-- Items are passed over up to the bracket that closes their list. -/
theorem skip_items
    {items : List Datum}
    (nonempty : items ≠ [])
    (each : ∀ item ∈ items, ReadsBack item)
    (steps : Nat)
    (outer : List Enclosure)
    (rest : List Char)
    (enough : (separated (items.map characters)).length + 1 <= steps) :
    ∃ left, steps <= left + (separated (items.map characters)).length + 1 ∧
      skip steps .value (.list :: outer) (separated (items.map characters) ++ ']' :: rest) =
        skip left .separator outer rest := by
  induction items generalizing steps with
  | nil => exact absurd rfl nonempty
  | cons item items hypothesis =>
      obtain ⟨first, others⟩ := List.forall_mem_cons.1 each
      cases items with
      | nil =>
          rw [List.map_singleton, separated_singleton] at enough ⊢
          obtain ⟨left, bound, skipped⟩ :=
            first.skips steps (.list :: outer) _ (by omega)
              (endsNumber_cons (Or.inr (Or.inl rfl)) rest)
          obtain ⟨left, rfl⟩ := Nat.exists_eq_add_of_le' (show 1 <= left by omega)
          refine ⟨left, by omega, ?_⟩
          rw [skipped, skip]
          simp [skipBlanks_cons, isBlank]
      | cons next items =>
          have later := hypothesis (List.cons_ne_nil next items) others
          rw [List.map_cons, List.map_cons, separated_cons_cons] at enough ⊢
          rw [List.map_cons] at later
          rw [List.length_append, List.length_cons] at enough ⊢
          rw [List.append_assoc, List.cons_append]
          obtain ⟨left, bound, skipped⟩ :=
            first.skips steps (.list :: outer) _ (by omega) (endsNumber_cons (Or.inl rfl) _)
          obtain ⟨left, rfl⟩ := Nat.exists_eq_add_of_le' (show 1 <= left by omega)
          obtain ⟨final, finalBound, skippedOthers⟩ := later left (by omega)
          refine ⟨final, by omega, ?_⟩
          rw [skipped, skip]
          simp [skipBlanks_cons, isBlank, skippedOthers]

theorem head_of_separated_items
    {items : List Datum}
    (nonempty : items ≠ [])
    (each : ∀ item ∈ items, ReadsBack item) :
    ∃ first rest, separated (items.map characters) = first :: rest ∧ StartsValue first := by
  cases items with
  | nil => exact absurd rfl nonempty
  | cons item items =>
      obtain ⟨first, rest, shape, starts⟩ := (each item List.mem_cons_self).starts
      cases items with
      | nil => exact ⟨first, rest, by rw [List.map_singleton, separated_singleton, shape], starts⟩
      | cons next items =>
          rw [List.map_cons, List.map_cons, separated_cons_cons, shape, List.cons_append]
          exact ⟨first, _, rfl, starts⟩

theorem skip_list
    {items : List Datum}
    (each : ∀ item ∈ items, ReadsBack item)
    (steps : Nat)
    (outer : List Enclosure)
    (rest : List Char)
    (enough : (characters (.list items)).length <= steps) :
    ∃ left, steps <= left + (characters (.list items)).length ∧
      skip steps .value outer (characters (.list items) ++ rest) =
        skip left .separator outer rest := by
  rw [characters_list, List.length_cons, List.length_append, List.length_singleton] at enough ⊢
  rw [List.cons_append, List.append_assoc, List.singleton_append]
  obtain ⟨steps, rfl⟩ := Nat.exists_eq_add_of_le' (show 1 <= steps by omega)
  by_cases none : items = []
  · subst none
    exact ⟨steps, by omega, by simp [skip, separated, skipBlanks_cons, isBlank]⟩
  · obtain ⟨first, others, shape, starts⟩ := head_of_separated_items none each
    obtain ⟨left, bound, skipped⟩ := skip_items none each steps outer rest (by omega)
    refine ⟨left, by omega, ?_⟩
    rw [shape, List.cons_append] at skipped
    rw [← skipped, shape, List.cons_append]
    simp [skip, skipBlanks_cons starts.1, skipBlanks_cons, isBlank, starts.2.1]

theorem readsBack_list
    {items : List Datum}
    (each : ∀ item ∈ items, ReadsBack item) :
    ReadsBack (.list items) := by
  have length := congrArg List.length (characters_list items)
  rw [List.length_cons, List.length_append, List.length_singleton] at length
  refine ⟨⟨_, _, characters_list items, by simp [StartsValue, isBlank]⟩,
    fun steps depth rest enough _ => ?_,
    fun steps outer rest enough _ => skip_list each steps outer rest enough⟩
  obtain ⟨steps, rfl⟩ := Nat.exists_eq_add_of_le' (show 1 <= steps by omega)
  cases depth with
  | zero =>
      -- The list stands below the last level that is kept.
      obtain ⟨left, _, skipped⟩ := skip_list each steps [] rest (by omega)
      rw [characters_list, List.cons_append] at skipped ⊢
      simp only [readValue, skipBlanks_cons (show isBlank '[' = false by decide), skipNested,
        skipped, skip, truncate, Option.map_some]
  | succ depth =>
      rw [characters_list, List.cons_append, List.append_assoc, List.singleton_append,
        Datum.truncate_list]
      by_cases none : items = []
      · subst none
        simp [readValue, separated, skipBlanks_cons, isBlank]
      · obtain ⟨first, others, shape, starts⟩ := head_of_separated_items none each
        have reads := readItems_separated none each steps depth rest (by omega)
        rw [shape, List.cons_append] at reads ⊢
        simp [readValue, skipBlanks_cons starts.1, skipBlanks_cons, isBlank, starts.2.1, reads]

/-! ## Records -/

theorem recordOf_some (members : List (String × Datum)) :
    recordOf (members.map fun member => (some member.1, member.2)) = .record members := by
  have names : (members.map fun member => (some member.1, member.2)).mapM
      (fun member => member.1.map fun name => (name, member.2)) = some members := by
    induction members with
    | nil => rfl
    | cons member members hypothesis => simp [hypothesis]
  rw [recordOf, names]

/-- The name of a member is read up to its colon. -/
theorem exists_content_of_member
    (member : String × Datum)
    {steps : Nat}
    (enough : (memberCharacters member).length <= steps)
    (rest : List Char) :
    ∃ content, memberCharacters member ++ rest = '\"' :: content ∧
      readText steps content =
        some (member.1.toList.map some, ':' :: (characters member.2 ++ rest)) := by
  have longer := length_toList_quote member.1
  rw [memberCharacters, List.length_append] at enough
  obtain ⟨content, shape, reads⟩ := readText_quote
    (show member.1.toList.length < steps by omega) (':' :: (characters member.2 ++ rest))
  refine ⟨content, ?_, reads⟩
  rw [memberCharacters, List.append_assoc, List.cons_append, shape]

/-- Members are read up to the brace that closes their record. -/
theorem readMembers_separated
    {members : List (String × Datum)}
    (nonempty : members ≠ [])
    (each : ∀ member ∈ members, ReadsBack member.2)
    (steps depth : Nat)
    (rest : List Char)
    (enough : 2 * (separated (members.map memberCharacters)).length + 2 <= steps) :
    readMembers .nearest steps depth
      (separated (members.map memberCharacters) ++ '\x7d' :: rest) =
        some (members.map fun member => (some member.1, truncate depth member.2), rest) := by
  induction members generalizing steps with
  | nil => exact absurd rfl nonempty
  | cons member members hypothesis =>
      obtain ⟨steps, rfl⟩ := Nat.exists_eq_add_of_le' (show 1 <= steps by omega)
      obtain ⟨first, others⟩ := List.forall_mem_cons.1 each
      have value : (memberCharacters member).length =
          (quote member.1).toList.length + ((characters member.2).length + 1) := by
        rw [memberCharacters, List.length_append, List.length_cons]
      cases members with
      | nil =>
          rw [List.map_singleton, separated_singleton] at enough ⊢
          obtain ⟨content, shape, name⟩ :=
            exists_content_of_member member (show _ <= steps by omega) ('\x7d' :: rest)
          have reads := first.reads steps depth _ (by omega)
            (endsNumber_cons (Or.inr (Or.inr rfl)) rest)
          rw [shape]
          simp [readMembers, skipBlanks_cons, isBlank, name, reads, textOf?_characters]
      | cons next members =>
          have later := hypothesis (List.cons_ne_nil next members) others steps
          rw [List.map_cons, List.map_cons, separated_cons_cons] at enough ⊢
          rw [List.map_cons] at later
          rw [List.length_append, List.length_cons] at enough
          rw [List.append_assoc, List.cons_append]
          obtain ⟨content, shape, name⟩ := exists_content_of_member member
            (show _ <= steps by omega)
            (',' :: (separated (memberCharacters next :: members.map memberCharacters) ++
              '\x7d' :: rest))
          have reads := first.reads steps depth _ (by omega)
            (endsNumber_cons (Or.inl rfl)
              (separated (memberCharacters next :: members.map memberCharacters) ++
                '\x7d' :: rest))
          rw [shape]
          simp [readMembers, skipBlanks_cons, isBlank, name, reads, later (by omega),
            textOf?_characters]

/-- Members are passed over up to the brace that closes their record. -/
theorem skip_members
    {members : List (String × Datum)}
    (nonempty : members ≠ [])
    (each : ∀ member ∈ members, ReadsBack member.2)
    (steps : Nat)
    (outer : List Enclosure)
    (rest : List Char)
    (enough : (separated (members.map memberCharacters)).length + 1 <= steps) :
    ∃ left, steps <= left + (separated (members.map memberCharacters)).length + 1 ∧
      skip steps .name (.record :: outer)
        (separated (members.map memberCharacters) ++ '\x7d' :: rest) =
          skip left .separator outer rest := by
  induction members generalizing steps with
  | nil => exact absurd rfl nonempty
  | cons member members hypothesis =>
      obtain ⟨steps, rfl⟩ := Nat.exists_eq_add_of_le' (show 1 <= steps by omega)
      obtain ⟨first, others⟩ := List.forall_mem_cons.1 each
      have quoted := length_toList_quote member.1
      have value : (memberCharacters member).length =
          (quote member.1).toList.length + ((characters member.2).length + 1) := by
        rw [memberCharacters, List.length_append, List.length_cons]
      cases members with
      | nil =>
          rw [List.map_singleton, separated_singleton] at enough ⊢
          obtain ⟨content, shape, name⟩ :=
            exists_content_of_member member (show _ <= steps by omega) ('\x7d' :: rest)
          obtain ⟨left, bound, skipped⟩ := first.skips steps (.record :: outer) _ (by omega)
            (endsNumber_cons (Or.inr (Or.inr rfl)) rest)
          obtain ⟨left, rfl⟩ := Nat.exists_eq_add_of_le' (show 1 <= left by omega)
          refine ⟨left, by omega, ?_⟩
          rw [shape, skip]
          simp [skipBlanks_cons, isBlank, name, skipped, skip]
      | cons next members =>
          have later := hypothesis (List.cons_ne_nil next members) others
          rw [List.map_cons, List.map_cons, separated_cons_cons] at enough ⊢
          rw [List.map_cons] at later
          rw [List.length_append, List.length_cons] at enough ⊢
          rw [List.append_assoc, List.cons_append]
          obtain ⟨content, shape, name⟩ := exists_content_of_member member
            (show _ <= steps by omega)
            (',' :: (separated (memberCharacters next :: members.map memberCharacters) ++
              '\x7d' :: rest))
          obtain ⟨left, bound, skipped⟩ := first.skips steps (.record :: outer) _ (by omega)
            (endsNumber_cons (Or.inl rfl)
              (separated (memberCharacters next :: members.map memberCharacters) ++
                '\x7d' :: rest))
          obtain ⟨left, rfl⟩ := Nat.exists_eq_add_of_le' (show 1 <= left by omega)
          obtain ⟨final, finalBound, skippedOthers⟩ := later left (by omega)
          refine ⟨final, by omega, ?_⟩
          rw [shape, skip]
          simp [skipBlanks_cons, isBlank, name, skipped, skip, skippedOthers]

theorem head_of_separated_members
    {members : List (String × Datum)}
    (nonempty : members ≠ []) :
    ∃ rest, separated (members.map memberCharacters) = '\"' :: rest := by
  have opens : ∀ member : String × Datum, ∃ rest, memberCharacters member = '\"' :: rest := by
    intro member
    obtain ⟨content, shape, _⟩ := exists_content_of_member member le_rfl []
    rw [List.append_nil] at shape
    exact ⟨content, shape⟩
  cases members with
  | nil => exact absurd rfl nonempty
  | cons member members =>
      obtain ⟨rest, shape⟩ := opens member
      cases members with
      | nil => exact ⟨rest, by rw [List.map_singleton, separated_singleton, shape]⟩
      | cons next members =>
          rw [List.map_cons, List.map_cons, separated_cons_cons, shape, List.cons_append]
          exact ⟨_, rfl⟩

theorem skip_record
    {members : List (String × Datum)}
    (each : ∀ member ∈ members, ReadsBack member.2)
    (steps : Nat)
    (outer : List Enclosure)
    (rest : List Char)
    (enough : (characters (.record members)).length <= steps) :
    ∃ left, steps <= left + (characters (.record members)).length ∧
      skip steps .value outer (characters (.record members) ++ rest) =
        skip left .separator outer rest := by
  rw [characters_record, List.length_cons, List.length_append, List.length_singleton] at enough ⊢
  rw [List.cons_append, List.append_assoc, List.singleton_append]
  obtain ⟨steps, rfl⟩ := Nat.exists_eq_add_of_le' (show 1 <= steps by omega)
  by_cases none : members = []
  · subst none
    exact ⟨steps, by omega, by simp [skip, separated, skipBlanks_cons, isBlank]⟩
  · obtain ⟨others, shape⟩ := head_of_separated_members none
    obtain ⟨left, bound, skipped⟩ := skip_members none each steps outer rest (by omega)
    refine ⟨left, by omega, ?_⟩
    rw [shape, List.cons_append] at skipped
    rw [← skipped, shape, List.cons_append, skip]
    simp [skipBlanks_cons, isBlank]

theorem readsBack_record
    {members : List (String × Datum)}
    (each : ∀ member ∈ members, ReadsBack member.2) :
    ReadsBack (.record members) := by
  have length := congrArg List.length (characters_record members)
  rw [List.length_cons, List.length_append, List.length_singleton] at length
  refine ⟨⟨_, _, characters_record members, by simp [StartsValue, isBlank]⟩,
    fun steps depth rest enough _ => ?_,
    fun steps outer rest enough _ => skip_record each steps outer rest enough⟩
  obtain ⟨steps, rfl⟩ := Nat.exists_eq_add_of_le' (show 1 <= steps by omega)
  cases depth with
  | zero =>
      -- The record stands below the last level that is kept.
      obtain ⟨left, _, skipped⟩ := skip_record each steps [] rest (by omega)
      rw [characters_record, List.cons_append] at skipped ⊢
      simp only [readValue, skipBlanks_cons (show isBlank '\x7b' = false by decide), skipNested,
        skipped, skip, truncate, Option.map_some]
  | succ depth =>
      rw [characters_record, List.cons_append, List.append_assoc, List.singleton_append,
        Datum.truncate_record]
      by_cases none : members = []
      · subst none
        simp [readValue, separated, skipBlanks_cons, isBlank]
      · obtain ⟨others, shape⟩ := head_of_separated_members none
        have reads := readMembers_separated none each steps depth rest (by omega)
        have kept := recordOf_some
          (members.map fun member => (member.1, truncate depth member.2))
        rw [List.map_map] at kept
        rw [shape, List.cons_append] at reads ⊢
        simp only [Function.comp_def] at kept
        simp [readValue, skipBlanks_cons, isBlank, reads, kept]

/-! ## Whole texts -/

/-- Data without loss are read back as far as levels are kept. -/
theorem readsBack_of_writable
    {depth : Nat}
    {datum : Datum}
    (writable : Writable depth datum) :
    ReadsBack datum := by
  induction writable with
  | null => exact readsBack_null
  | boolean => exact readsBack_boolean _
  | integer fits => exact readsBack_integer fits
  | number finite => exact readsBack_number finite
  | text => exact readsBack_text _
  | list _ hypothesis => exact readsBack_list hypothesis
  | record _ hypothesis => exact readsBack_record hypothesis

/-- The compact text of a datum stands for what is left of it on the levels that are
read. -/
theorem parse_compact
    {depth : Nat}
    {datum : Datum}
    (writable : Writable depth datum) :
    parse .nearest (compact datum) = some (truncate deepest datum) := by
  have reads := (readsBack_of_writable writable).reads
    (2 * (characters datum).length + 1) deepest [] (Nat.le_succ _)
    fun character member => by cases member
  rw [List.append_nil] at reads
  have listed : (compact datum).toList = characters datum := rfl
  unfold parse
  dsimp only
  rw [listed, reads]
  rfl

/-- Compact texts tell data apart. -/
theorem compact_injective
    {depth : Nat}
    {first second : Datum}
    (writable : Writable depth first)
    (writableOther : Writable depth second)
    (equal : compact first = compact second) :
    first = second := by
  have noRest : EndsNumber [] := fun character member => by cases member
  have reads := (readsBack_of_writable writable).reads _ depth [] le_rfl noRest
  have readsOther := (readsBack_of_writable writableOther).reads _ depth [] le_rfl noRest
  have same : characters first = characters second := congrArg String.toList equal
  rw [writable.truncate_eq, same] at reads
  rw [writableOther.truncate_eq] at readsOther
  exact (Prod.mk.inj (Option.some.inj (reads.symm.trans readsOther))).1

end Json
end StrategyGraph
