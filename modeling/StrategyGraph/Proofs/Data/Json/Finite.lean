import StrategyGraph.Data.Json.Reader
import StrategyGraph.Proofs.Data.Datum
import StrategyGraph.Proofs.Outcome

/-!
# Data that are read

Whatever text is read, the datum has no more levels than are kept, and its numbers are
finite.
-/

namespace StrategyGraph
namespace Json

open Datum (Finite)

theorem finite_integerOf {depth : Nat} (negative : Bool) (magnitude : Nat) :
    Finite depth (integerOf negative magnitude) := by
  unfold integerOf
  split
  next =>
    split
    next => exact .number (by decide)
    next => exact .integer
  next => exact .integer

theorem finite_numberOf
    {depth : Nat}
    (rounding : Rounding)
    (isInteger : Bool)
    (numeral : Numeral) :
    Finite depth (numberOf rounding isInteger numeral) := by
  unfold numberOf
  split
  split
  next => exact finite_integerOf _ _
  next =>
    dsimp only
    split
    next finite => exact .number finite
    next => exact .unreadable

section

variable {rounding : Rounding} {steps depth : Nat} {text : List Char}

theorem finite_readNumber
    {read : Datum × List Char}
    (reads : readNumber rounding text = some read) :
    Finite depth read.1 := by
  unfold readNumber at reads
  split at reads
  split at reads
  split at reads
  next => cases reads
  next =>
    obtain ⟨fraction, _, reads⟩ := Option.bind_eq_some_iff.1 reads
    obtain ⟨power, _, reads⟩ := Option.bind_eq_some_iff.1 reads
    cases reads
    exact finite_numberOf _ _ _

theorem finite_readScalar
    {read : Datum × List Char}
    (reads : readScalar rounding steps text = some read) :
    Finite depth read.1 := by
  have words : ∀ {word : List Char} {datum : Datum}, Finite depth datum ->
      readWord word datum text = some read -> Finite depth read.1 := by
    intro word datum finite found
    rw [readWord] at found
    split at found
    next => cases found; exact finite
    next => cases found
  unfold readScalar at reads
  split at reads
  next =>
    obtain ⟨characters, _, reads⟩ := Option.bind_eq_some_iff.1 reads
    cases reads
    cases textOf? characters.1 with
    | none => exact .unreadable
    | some content => exact .text
  next => exact words .boolean reads
  next => exact words .boolean reads
  next => exact words .null reads
  next => exact finite_readNumber reads

theorem finite_recordOf
    {members : List (Option String × Datum)}
    (each : ∀ member ∈ members, Finite depth member.2) :
    Finite (depth + 1) (recordOf members) := by
  rw [recordOf]
  split
  next named found =>
    refine .record fun member inside => ?_
    obtain ⟨source, listed, equal⟩ :=
      Outcome.exists_item_of_forall₂ (Outcome.mapM_eq_some_iff.1 found) inside
    obtain ⟨name, _, rfl⟩ := Option.map_eq_some_iff.1 equal
    exact each source listed
  next => exact .unreadable

/-- What a number of steps reads is finite. -/
structure FiniteReads (rounding : Rounding) (steps : Nat) : Prop where
  value : ∀ {depth text read}, readValue rounding steps depth text = some read ->
    Finite depth read.1
  items : ∀ {depth text read}, readItems rounding steps depth text = some read ->
    ∀ item ∈ read.1, Finite depth item
  members : ∀ {depth text read}, readMembers rounding steps depth text = some read ->
    ∀ member ∈ read.1, Finite depth member.2

theorem finiteReads_zero : FiniteReads rounding 0 := by
  refine ⟨fun reads => ?_, fun reads => ?_, fun reads => ?_⟩
  · rw [readValue] at reads
    cases reads
  · rw [readItems] at reads
    cases reads
  · rw [readMembers] at reads
    cases reads

theorem finite_readValue
    (previous : FiniteReads rounding steps)
    {read : Datum × List Char}
    (reads : readValue rounding (steps + 1) depth text = some read) :
    Finite depth read.1 := by
  rw [readValue] at reads
  split at reads
  next =>
    split at reads
    next =>
      obtain ⟨remaining, _, rfl⟩ := Option.map_eq_some_iff.1 reads
      exact .unreadable
    next =>
      split at reads
      next =>
        cases reads
        exact .list fun item member => absurd member List.not_mem_nil
      next =>
        obtain ⟨items, found, equal⟩ := Option.bind_eq_some_iff.1 reads
        cases equal
        exact .list (previous.items found)
  next =>
    split at reads
    next =>
      obtain ⟨remaining, _, rfl⟩ := Option.map_eq_some_iff.1 reads
      exact .unreadable
    next =>
      split at reads
      next =>
        cases reads
        exact .record fun member inside => absurd inside List.not_mem_nil
      next =>
        obtain ⟨members, found, equal⟩ := Option.bind_eq_some_iff.1 reads
        cases equal
        exact finite_recordOf (previous.members found)
  next => exact finite_readScalar reads

theorem finite_readItems
    (previous : FiniteReads rounding steps)
    {read : List Datum × List Char}
    (reads : readItems rounding (steps + 1) depth text = some read) :
    ∀ item ∈ read.1, Finite depth item := by
  rw [readItems] at reads
  obtain ⟨⟨item, afterItem⟩, found, reads⟩ := Option.bind_eq_some_iff.1 reads
  have finite := previous.value found
  dsimp only at reads
  split at reads
  next =>
    obtain ⟨others, foundOthers, equal⟩ := Option.bind_eq_some_iff.1 reads
    cases equal
    exact List.forall_mem_cons.2 ⟨finite, previous.items foundOthers⟩
  next =>
    cases reads
    exact List.forall_mem_singleton.2 finite
  next => cases reads

theorem finite_readMembers
    (previous : FiniteReads rounding steps)
    {read : List (Option String × Datum) × List Char}
    (reads : readMembers rounding (steps + 1) depth text = some read) :
    ∀ member ∈ read.1, Finite depth member.2 := by
  rw [readMembers] at reads
  split at reads
  next =>
    obtain ⟨⟨name, afterName⟩, _, reads⟩ := Option.bind_eq_some_iff.1 reads
    dsimp only at reads
    split at reads
    next =>
      obtain ⟨⟨value, afterValue⟩, found, reads⟩ := Option.bind_eq_some_iff.1 reads
      have finite := previous.value found
      dsimp only at reads
      split at reads
      next =>
        obtain ⟨others, foundOthers, equal⟩ := Option.bind_eq_some_iff.1 reads
        cases equal
        exact List.forall_mem_cons.2 ⟨finite, previous.members foundOthers⟩
      next =>
        cases reads
        exact List.forall_mem_singleton.2 finite
      next => cases reads
    next => cases reads
  next => cases reads

theorem finiteReads (rounding : Rounding) (steps : Nat) : FiniteReads rounding steps := by
  induction steps with
  | zero => exact finiteReads_zero
  | succ steps previous =>
      exact ⟨finite_readValue previous, finite_readItems previous, finite_readMembers previous⟩

/-- Parsed data have finite numbers and no more levels than are read. -/
theorem finite_parse
    {text : String}
    {datum : Datum}
    (parsed : parse rounding text = some datum) :
    Finite deepest datum := by
  rw [parse] at parsed
  split at parsed
  next datum rest found =>
    split at parsed
    next =>
      cases parsed
      exact (finiteReads rounding _).value found
    next => cases parsed
  next => cases parsed

end

end Json
end StrategyGraph
