import Mathlib.Tactic.Common
import StrategyGraph.Data.Datum

/-!
# Levels of nesting

How deeply lists and records of a datum are nested, what is left of it when only some
levels are kept, and which data are written without loss: those whose numbers are finite,
whose integers fit a machine word and no part of which is unreadable.
-/

namespace StrategyGraph
namespace Datum

mutual

/-- Levels of lists and records in a datum. -/
def nesting : Datum -> Nat
  | .list items => nestingOfItems items + 1
  | .record members => nestingOfMembers members + 1
  | _ => 0

/-- Levels of lists and records in the items of a list. -/
def nestingOfItems : List Datum -> Nat
  | [] => 0
  | item :: items => max item.nesting (nestingOfItems items)

/-- Levels of lists and records in the members of a record. -/
def nestingOfMembers : List (String × Datum) -> Nat
  | [] => 0
  | (_, value) :: members => max value.nesting (nestingOfMembers members)

end

mutual

/-- What is left of a datum when only the given number of levels is kept. -/
def truncate : Nat -> Datum -> Datum
  | 0, .list _ => .unreadable
  | 0, .record _ => .unreadable
  | depth + 1, .list items => .list (truncateItems depth items)
  | depth + 1, .record members => .record (truncateMembers depth members)
  | _, scalar => scalar

/-- `truncate` on each item. -/
def truncateItems : Nat -> List Datum -> List Datum
  | _, [] => []
  | depth, item :: items => truncate depth item :: truncateItems depth items

/-- `truncate` on the value of each member. -/
def truncateMembers : Nat -> List (String × Datum) -> List (String × Datum)
  | _, [] => []
  | depth, (name, value) :: members =>
      (name, truncate depth value) :: truncateMembers depth members

end

/-- A datum of at most `depth` levels that is written without loss. -/
inductive Writable : Nat -> Datum -> Prop where
  | null : Writable depth .null
  | boolean : Writable depth (.boolean value)
  | integer (fits : value.natAbs <= Binary64.largestCount) : Writable depth (.integer value)
  | number (finite : value.isFinite = true) : Writable depth (.number value)
  | text : Writable depth (.text value)
  | list (each : ∀ item ∈ items, Writable depth item) : Writable (depth + 1) (.list items)
  | record (each : ∀ member ∈ members, Writable depth member.2) :
      Writable (depth + 1) (.record members)

/-- A datum of at most `depth` levels whose numbers are finite. It may hold unreadable
parts. -/
inductive Finite : Nat -> Datum -> Prop where
  | null : Finite depth .null
  | boolean : Finite depth (.boolean value)
  | integer : Finite depth (.integer value)
  | number (finite : value.isFinite = true) : Finite depth (.number value)
  | text : Finite depth (.text value)
  | list (each : ∀ item ∈ items, Finite depth item) : Finite (depth + 1) (.list items)
  | record (each : ∀ member ∈ members, Finite depth member.2) :
      Finite (depth + 1) (.record members)
  | unreadable : Finite depth .unreadable

/-! ## Lists and records -/

theorem nestingOfItems_le_iff {items : List Datum} {depth : Nat} :
    nestingOfItems items <= depth ↔ ∀ item ∈ items, item.nesting <= depth := by
  induction items with
  | nil => simp [nestingOfItems]
  | cons item items hypothesis =>
      rw [nestingOfItems, Nat.max_le, hypothesis, List.forall_mem_cons]

theorem nestingOfMembers_le_iff {members : List (String × Datum)} {depth : Nat} :
    nestingOfMembers members <= depth ↔ ∀ member ∈ members, member.2.nesting <= depth := by
  induction members with
  | nil => simp [nestingOfMembers]
  | cons member members hypothesis =>
      rw [nestingOfMembers, Nat.max_le, hypothesis, List.forall_mem_cons]

theorem nesting_list_le_iff {items : List Datum} {depth : Nat} :
    (Datum.list items).nesting <= depth + 1 ↔ ∀ item ∈ items, item.nesting <= depth := by
  rw [nesting, Nat.succ_le_succ_iff, nestingOfItems_le_iff]

theorem nesting_record_le_iff {members : List (String × Datum)} {depth : Nat} :
    (Datum.record members).nesting <= depth + 1 ↔
      ∀ member ∈ members, member.2.nesting <= depth := by
  rw [nesting, Nat.succ_le_succ_iff, nestingOfMembers_le_iff]

theorem truncate_list (depth : Nat) (items : List Datum) :
    truncate (depth + 1) (.list items) = .list (items.map (truncate depth)) := by
  have each : truncateItems depth items = items.map (truncate depth) := by
    induction items with
    | nil => rfl
    | cons item items hypothesis => rw [truncateItems, hypothesis, List.map_cons]
  rw [truncate, each]

theorem truncate_record (depth : Nat) (members : List (String × Datum)) :
    truncate (depth + 1) (.record members) =
      .record (members.map fun member => (member.1, truncate depth member.2)) := by
  have each : truncateMembers depth members =
      members.map fun member => (member.1, truncate depth member.2) := by
    induction members with
    | nil => rfl
    | cons member members hypothesis => rw [truncateMembers, hypothesis, List.map_cons]
  rw [truncate, each]

theorem areReadable_eq_all (items : List Datum) : areReadable items = items.all isReadable := by
  induction items with
  | nil => rfl
  | cons item items hypothesis => rw [areReadable, hypothesis, List.all_cons]

theorem areReadableMembers_eq_all (members : List (String × Datum)) :
    areReadableMembers members = members.all fun member => member.2.isReadable := by
  induction members with
  | nil => rfl
  | cons member members hypothesis => rw [areReadableMembers, hypothesis, List.all_cons]

/-! ## Writable data -/

variable {depth : Nat} {datum : Datum}

theorem Writable.nesting_le (writable : Writable depth datum) : datum.nesting <= depth := by
  induction writable with
  | list _ hypothesis => exact nesting_list_le_iff.2 hypothesis
  | record _ hypothesis => exact nesting_record_le_iff.2 hypothesis
  | _ => exact Nat.zero_le _

/-- A writable datum has the levels that it has. -/
theorem Writable.of_nesting_le
    (writable : Writable depth datum)
    {levels : Nat}
    (bounded : datum.nesting <= levels) :
    Writable levels datum := by
  induction writable generalizing levels with
  | null => exact .null
  | boolean => exact .boolean
  | integer fits => exact .integer fits
  | number finite => exact .number finite
  | text => exact .text
  | list _ hypothesis =>
      obtain ⟨levels, rfl⟩ := Nat.exists_eq_add_of_le' (Nat.zero_lt_of_lt bounded)
      have each := nesting_list_le_iff.1 bounded
      exact .list fun item member => hypothesis item member (each item member)
  | record _ hypothesis =>
      obtain ⟨levels, rfl⟩ := Nat.exists_eq_add_of_le' (Nat.zero_lt_of_lt bounded)
      have each := nesting_record_le_iff.1 bounded
      exact .record fun member inside => hypothesis member inside (each member inside)

/-- Keeping all levels keeps the datum. -/
theorem Writable.truncate_eq (writable : Writable depth datum) : truncate depth datum = datum := by
  induction writable with
  | list _ hypothesis =>
      rw [truncate_list, List.map_congr_left hypothesis, List.map_id']
  | record _ hypothesis =>
      rw [truncate_record, List.map_congr_left fun member inside => by
        rw [hypothesis member inside], List.map_id']
  | _ => cases ‹Nat› <;> rfl

/-- A datum of more levels than are kept becomes unreadable in some part. -/
theorem Writable.isReadable_truncate
    (writable : Writable depth datum)
    (levels : Nat) :
    (truncate levels datum).isReadable = decide (datum.nesting <= levels) := by
  induction writable generalizing levels with
  | list _ hypothesis =>
      cases levels with
      | zero => rfl
      | succ levels =>
          rw [truncate_list, isReadable, areReadable_eq_all, List.all_map, Bool.eq_iff_iff,
            List.all_eq_true, decide_eq_true_eq, nesting_list_le_iff]
          refine forall₂_congr fun item member => ?_
          rw [Function.comp_apply, hypothesis item member, decide_eq_true_eq]
  | record _ hypothesis =>
      cases levels with
      | zero => rfl
      | succ levels =>
          rw [truncate_record, isReadable, areReadableMembers_eq_all, List.all_map,
            Bool.eq_iff_iff, List.all_eq_true, decide_eq_true_eq, nesting_record_le_iff]
          refine forall₂_congr fun member inside => ?_
          rw [Function.comp_apply, hypothesis member inside, decide_eq_true_eq]
  | _ => cases levels <;> simp [truncate, isReadable, nesting]

theorem Writable.isReadable (writable : Writable depth datum) : datum.isReadable = true := by
  have kept := writable.isReadable_truncate depth
  rw [writable.truncate_eq, decide_eq_true writable.nesting_le] at kept
  exact kept

/-! ## Lossless data -/

/-- A datum that is written without loss, whatever its levels. -/
def Lossless (datum : Datum) : Prop :=
  Writable datum.nesting datum

theorem Writable.lossless (writable : Writable depth datum) : datum.Lossless :=
  writable.of_nesting_le (Nat.le_refl _)

@[simp] theorem lossless_text (text : String) : (Datum.text text).Lossless :=
  .text

@[simp] theorem lossless_list_iff {items : List Datum} :
    (Datum.list items).Lossless ↔ ∀ item ∈ items, item.Lossless := by
  constructor
  · intro lossless item member
    cases lossless with
    | list each => exact (each item member).lossless
  · intro each
    exact .list fun item member =>
      (each item member).of_nesting_le (nestingOfItems_le_iff.1 (Nat.le_refl _) item member)

@[simp] theorem lossless_record_iff {members : List (String × Datum)} :
    (Datum.record members).Lossless ↔ ∀ member ∈ members, member.2.Lossless := by
  constructor
  · intro lossless member inside
    cases lossless with
    | record each => exact (each member inside).lossless
  · intro each
    exact .record fun member inside =>
      (each member inside).of_nesting_le (nestingOfMembers_le_iff.1 (Nat.le_refl _) member inside)

end Datum
end StrategyGraph
