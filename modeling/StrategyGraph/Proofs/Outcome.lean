import Mathlib.Data.List.Forall2

/-!
# Outcomes of fallible steps

What it means that a sequence of steps succeeds: a bind succeeds exactly when
both of its parts do, a pass over a list exactly when every step of it does, and
the results stand beside the items they belong to.
-/

namespace StrategyGraph
namespace Outcome

/-- An outcome is some value exactly when it succeeds with it. -/
theorem toOption_eq_some_iff {outcome : Except Fault Value} {value : Value} :
    outcome.toOption = some value ↔ outcome = .ok value := by
  cases outcome with
  | error fault => simp [Except.toOption]
  | ok other => simp [Except.toOption]

theorem isOk_eq_true_iff {outcome : Except Fault Value} :
    outcome.isOk = true ↔ ∃ value, outcome = .ok value := by
  cases outcome with
  | error fault => simp [Except.isOk, Except.toBool]
  | ok value => simp [Except.isOk, Except.toBool]

/-- What is made of a result is there exactly when the result is. -/
theorem map_eq_ok_iff
    {make : Value -> Result}
    {outcome : Except Fault Value}
    {result : Result} :
    outcome.map make = .ok result ↔ ∃ value, outcome = .ok value ∧ make value = result := by
  cases outcome with
  | error fault => simp [Except.map]
  | ok value => simp [Except.map]

/-- Another description of a fault does not make a success of it. -/
theorem mapError_eq_ok_iff
    {describe : Fault -> Failure}
    {outcome : Except Fault Value}
    {value : Value} :
    outcome.mapError describe = .ok value ↔ outcome = .ok value := by
  cases outcome with
  | error fault => simp [Except.mapError]
  | ok other => simp [Except.mapError]

theorem mapError_eq_error_iff
    {describe : Fault -> Failure}
    {outcome : Except Fault Value}
    {failure : Failure} :
    outcome.mapError describe = .error failure ↔
      ∃ fault, outcome = .error fault ∧ describe fault = failure := by
  cases outcome with
  | error fault => simp [Except.mapError]
  | ok other => simp [Except.mapError]

/-- A bind succeeds exactly when its first part does and the second one does on
the value of the first. -/
theorem bind_eq_ok_iff
    {first : Except Fault Value}
    {next : Value -> Except Fault Result}
    {result : Result} :
    (first >>= next) = .ok result ↔
      ∃ value, first = .ok value ∧ next value = .ok result := by
  cases first with
  | error fault => simp [bind, Except.bind]
  | ok value => simp [bind, Except.bind]

/-- A bind fails exactly when its first part does or the second one does on the
value of the first. -/
theorem bind_eq_error_iff
    {first : Except Fault Value}
    {next : Value -> Except Fault Result}
    {fault : Fault} :
    (first >>= next) = .error fault ↔
      first = .error fault ∨ ∃ value, first = .ok value ∧ next value = .error fault := by
  cases first with
  | error other => simp [bind, Except.bind]
  | ok value => simp [bind, Except.bind]

/-- A check followed by more succeeds exactly when both do. -/
theorem check_then_eq_ok_iff
    {check : Except Fault Unit}
    {next : Except Fault Result}
    {result : Result} :
    (check >>= fun _ => next) = .ok result ↔ check = .ok () ∧ next = .ok result := by
  rw [bind_eq_ok_iff]
  constructor
  · rintro ⟨_, checked, remaining⟩
    exact ⟨checked, remaining⟩
  · rintro ⟨checked, remaining⟩
    exact ⟨(), checked, remaining⟩

/-- A check followed by more fails exactly when the check does or all that follows. -/
theorem check_then_eq_error_iff
    {check : Except Fault Unit}
    {next : Except Fault Result}
    {fault : Fault} :
    (check >>= fun _ => next) = .error fault ↔
      check = .error fault ∨ check = .ok () ∧ next = .error fault := by
  rw [bind_eq_error_iff]
  exact or_congr_right ⟨fun ⟨_, checked, failed⟩ => ⟨checked, failed⟩,
    fun ⟨checked, failed⟩ => ⟨(), checked, failed⟩⟩

/-- A map of fallible steps succeeds exactly when every step does, with the
results in the order of the items. -/
theorem mapM_eq_ok_iff
    {step : Item -> Except Fault Result}
    {items : List Item}
    {results : List Result} :
    items.mapM step = .ok results ↔
      List.Forall₂ (fun item result => step item = .ok result) items results := by
  induction items generalizing results with
  | nil =>
      rw [List.mapM_nil, List.forall₂_nil_left_iff]
      exact ⟨fun equal => (Except.ok.inj equal).symm, fun equal => equal ▸ rfl⟩
  | cons item items hypothesis =>
      rw [List.mapM_cons, bind_eq_ok_iff, List.forall₂_cons_left_iff]
      constructor
      · rintro ⟨result, stepped, remaining⟩
        obtain ⟨others, mapped, equal⟩ := bind_eq_ok_iff.1 remaining
        exact ⟨result, others, stepped, hypothesis.1 mapped,
          (Except.ok.inj equal).symm⟩
      · rintro ⟨result, others, stepped, related, rfl⟩
        exact ⟨result, stepped,
          bind_eq_ok_iff.2 ⟨others, hypothesis.2 related, rfl⟩⟩

/-- A map of partial steps has results exactly when every step does, in the order of the
items. -/
theorem mapM_eq_some_iff
    {step : Item -> Option Result}
    {items : List Item}
    {results : List Result} :
    items.mapM step = some results ↔
      List.Forall₂ (fun item result => step item = some result) items results := by
  induction items generalizing results with
  | nil =>
      rw [List.mapM_nil, List.forall₂_nil_left_iff]
      exact ⟨fun equal => (Option.some.inj equal).symm, fun equal => equal ▸ rfl⟩
  | cons item items hypothesis =>
      rw [List.mapM_cons, List.forall₂_cons_left_iff]
      constructor
      · intro mapped
        obtain ⟨result, stepped, remaining⟩ := Option.bind_eq_some_iff.1 mapped
        obtain ⟨others, mappedOthers, equal⟩ := Option.bind_eq_some_iff.1 remaining
        exact ⟨result, others, stepped, hypothesis.1 mappedOthers,
          (Option.some.inj equal).symm⟩
      · rintro ⟨result, others, stepped, related, rfl⟩
        exact Option.bind_eq_some_iff.2 ⟨result, stepped,
          Option.bind_eq_some_iff.2 ⟨others, hypothesis.2 related, rfl⟩⟩

/-- A map of fallible steps has results if every step does. -/
theorem exists_mapM_eq_ok
    {step : Item -> Except Fault Result}
    {items : List Item}
    (each : ∀ item ∈ items, ∃ result, step item = .ok result) :
    ∃ results, items.mapM step = .ok results := by
  induction items with
  | nil => exact ⟨[], mapM_eq_ok_iff.2 .nil⟩
  | cons item items hypothesis =>
      obtain ⟨result, stepped⟩ := each item List.mem_cons_self
      obtain ⟨results, mapped⟩ :=
        hypothesis fun other member => each other (List.mem_cons_of_mem item member)
      exact ⟨result :: results, mapM_eq_ok_iff.2 (.cons stepped (mapM_eq_ok_iff.1 mapped))⟩

/-- A pass of checks succeeds exactly when every check does. -/
theorem forM_eq_ok_iff
    {check : Item -> Except Fault Unit}
    {items : List Item} :
    items.forM check = .ok () ↔ ∀ item ∈ items, check item = .ok () := by
  induction items with
  | nil => exact ⟨fun _ _ member => absurd member List.not_mem_nil, fun _ => rfl⟩
  | cons item items hypothesis =>
      change (check item >>= fun _ => items.forM check) = .ok () ↔ _
      rw [check_then_eq_ok_iff, List.forall_mem_cons, ← hypothesis]

/-- A pass of checks fails with the error of one of them. -/
theorem exists_error_of_forM
    {check : Item -> Except Fault Unit}
    {items : List Item}
    {fault : Fault}
    (failed : items.forM check = .error fault) :
    ∃ item ∈ items, check item = .error fault := by
  induction items with
  | nil => cases failed
  | cons item items hypothesis =>
      change (check item >>= fun _ => items.forM check) = .error fault at failed
      rcases check_then_eq_error_iff.1 failed with refused | ⟨_, remaining⟩
      · exact ⟨item, List.mem_cons_self, refused⟩
      · obtain ⟨other, later, refused⟩ := hypothesis remaining
        exact ⟨other, List.mem_cons_of_mem item later, refused⟩

/-! ## Faults -/

/-- The fault that a step fails with, if it does. -/
def fault? : Except Fault Value -> Option Fault
  | .error fault => some fault
  | .ok _ => none

@[simp] theorem fault_error {fault : Fault} :
    fault? (.error fault : Except Fault Value) = some fault := rfl

@[simp] theorem fault_ok {value : Value} : fault? (.ok value : Except Fault Value) = none := rfl

theorem fault_eq_some_iff {outcome : Except Fault Value} {fault : Fault} :
    fault? outcome = some fault ↔ outcome = .error fault := by
  cases outcome with
  | error other => simp
  | ok value => simp

theorem fault_eq_none_iff {outcome : Except Fault Value} :
    fault? outcome = none ↔ ∃ value, outcome = .ok value := by
  cases outcome with
  | error other => simp
  | ok value => simp

/-- A bind fails with the fault of its first part, else with that of the second one. -/
theorem fault_bind
    {first : Except Fault Value}
    {next : Value -> Except Fault Result}
    {second : Option Fault}
    (isNext : ∀ value, first = .ok value -> fault? (next value) = second) :
    fault? (first >>= next) = (fault? first).or second := by
  cases first with
  | error fault => rfl
  | ok value => exact isNext value rfl

/-- What is made of a result brings no fault of its own. -/
theorem fault_bind_pure {outcome : Except Fault Value} {make : Value -> Result} :
    fault? (outcome >>= fun value => pure (make value)) = fault? outcome := by
  cases outcome <;> rfl

/-- A pass of fallible steps fails with the fault of the first item that has one. -/
theorem fault_mapM {step : Item -> Except Fault Result} {items : List Item} :
    fault? (items.mapM step) = items.findSome? fun item => fault? (step item) := by
  induction items with
  | nil => rfl
  | cons item items hypothesis =>
      have rest : ∀ result, step item = .ok result ->
          fault? (items.mapM step >>= fun results => pure (result :: results)) =
            items.findSome? fun item => fault? (step item) := by
        intro result _
        rw [fault_bind_pure, hypothesis]
      rw [List.mapM_cons, fault_bind rest, List.findSome?_cons]
      cases fault? (step item) <;> rfl

/-! ## Results and items -/

/-- Every result comes from an item. -/
theorem exists_item_of_forall₂
    {related : Item -> Result -> Prop}
    {items : List Item}
    {results : List Result}
    (relates : List.Forall₂ related items results)
    {result : Result}
    (member : result ∈ results) :
    ∃ item ∈ items, related item result := by
  induction relates with
  | nil => cases member
  | cons first _ hypothesis =>
      rcases List.mem_cons.1 member with rfl | later
      · exact ⟨_, List.mem_cons_self, first⟩
      · obtain ⟨item, listed, isRelated⟩ := hypothesis later
        exact ⟨item, List.mem_cons_of_mem _ listed, isRelated⟩

/-- Items stand beside the results of two passes, one over the results of the
other. -/
theorem forall₂_comp
    {first : Item -> Middle -> Prop}
    {second : Middle -> Result -> Prop}
    {items : List Item}
    {middles : List Middle}
    {results : List Result}
    (left : List.Forall₂ first items middles)
    (right : List.Forall₂ second middles results) :
    List.Forall₂ (fun item result => ∃ middle, first item middle ∧ second middle result)
      items results := by
  induction left generalizing results with
  | nil =>
      rw [List.forall₂_nil_left_iff.1 right]
      exact .nil
  | @cons item middle items middles related _ hypothesis =>
      obtain ⟨result, others, step, rest, rfl⟩ := List.forall₂_cons_left_iff.1 right
      exact .cons ⟨middle, related, step⟩ (hypothesis rest)

/-- Two passes over the same items have the same results if each item has one. -/
theorem eq_of_forall₂
    {left right : Item -> Result -> Prop}
    {items : List Item}
    {firsts seconds : List Result}
    (lefts : List.Forall₂ left items firsts)
    (rights : List.Forall₂ right items seconds)
    (single : ∀ item first second, left item first -> right item second -> first = second) :
    firsts = seconds := by
  have equal : List.Forall₂ (· = ·) firsts seconds := by
    refine (forall₂_comp lefts.flip rights).imp ?_
    rintro first second ⟨item, makesFirst, makesSecond⟩
    exact single item first second makesFirst makesSecond
  rwa [List.forall₂_eq_eq_eq] at equal

end Outcome
end StrategyGraph
