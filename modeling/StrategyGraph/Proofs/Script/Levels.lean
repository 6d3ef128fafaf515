import StrategyGraph.Proofs.Script.Grammar

/-!
# Levels of the grammar

The readers of terms form levels, from a term without operators up to an argument.
A reader passes its items on to the level below wherever it finds none of its own
operators among them, so what a level reads is read alike by every level above it.
-/

namespace StrategyGraph
namespace Python

open Backtest (Arithmetic)

/-- Reader of a level. The last level is that of arguments. -/
def reader : Nat -> List Item -> Option Term
  | 0 => primary
  | 1 => factor
  | 2 => product
  | 3 => sum
  | 4 => comparison
  | 5 => inversion
  | 6 => conjunction
  | 7 => disjunction
  | 8 => expression
  | _ => argument

namespace Item

/-- First level whose reader takes an item for an operator of its own. A `not` may
also belong to a comparison. -/
def looseness : Item -> Nat
  | .negative => 1
  | .operation .mul | .operation .div | .operation .floorDiv => 2
  | .operation .add | .operation .sub => 3
  | .relation _ => 4
  | .word content =>
      if content = "is" || content = "not" then 4
      else if content = "and" then 6
      else if content = "or" then 7
      else 0
  | .header _ => 8
  | .assign => 9
  | .comma | .colon => 10
  | _ => 0

variable {item : Item}

theorem productSign?_eq_none (tight : item.looseness <= 1) :
    item.productSign? = none := by
  cases item with
  | operation sign =>
      cases sign <;> first | rfl | exact absurd tight (by decide)
  | _ => rfl

theorem sumSign?_eq_none (tight : item.looseness <= 2) : item.sumSign? = none := by
  cases item with
  | operation sign =>
      cases sign <;> first | rfl | exact absurd tight (by decide)
  | _ => rfl

theorem relation?_eq_none (tight : item.looseness <= 3) : item.relation? = none := by
  cases item with
  | relation sign => exact absurd tight (by simp [looseness])
  | word content =>
      have other : content ≠ "is" := by
        rintro rfl
        exact absurd tight (by decide)
      simp [relation?, other]
  | _ => rfl

theorem isWord_eq_false
    {content : String}
    {level : Nat}
    (loose : level < (Item.word content).looseness)
    (tight : item.looseness <= level) :
    item.isWord content = false := by
  cases item with
  | word other =>
      have different : other ≠ content := by
        rintro rfl
        omega
      simpa [isWord] using different
  | _ => rfl

theorem isAssign_eq_false (tight : item.looseness <= 8) : item.isAssign = false := by
  cases item with
  | assign => exact absurd tight (by decide)
  | _ => rfl

theorem isComma_eq_false (tight : item.looseness <= 9) : item.isComma = false := by
  cases item with
  | comma => exact absurd tight (by decide)
  | _ => rfl

end Item

/-! ## Operators among items -/

section

variable {operator? : Item -> Option Operator} {items : List Item}

/-- Items without operators are not cut. -/
theorem chain_of_none (none : ∀ item ∈ items, operator? item = none) :
    chain operator? items = (items, []) := by
  induction items with
  | nil => rfl
  | cons item items hypothesis =>
      have others := hypothesis fun other member =>
        none other (List.mem_cons_of_mem item member)
      rw [chain, others, none item List.mem_cons_self]

/-- The last operator cuts off the items behind it. -/
theorem chain_append
    {sign : Item}
    {operator : Operator}
    {right : List Item}
    (isOperator : operator? sign = some operator)
    (none : ∀ item ∈ right, operator? item = none)
    (left : List Item) :
    chain operator? (left ++ sign :: right) =
      ((chain operator? left).1, (chain operator? left).2 ++ [(operator, right)]) := by
  induction left with
  | nil =>
      simp [chain, chain_of_none none, isOperator]
  | cons item left hypothesis =>
      rw [List.cons_append, chain, hypothesis, chain]
      cases operator? item with
      | none => rfl
      | some other => rfl

end

section

variable {operand : List Item -> Option Term} {operator? : Item -> Option Arithmetic}

/-- A chain without operators is its only operand. -/
theorem foldChain_of_none
    {items : List Item}
    (none : ∀ item ∈ items, operator? item = none) :
    foldChain operand operator? items = operand items := by
  rw [foldChain, chain_of_none none]
  cases reads : operand items with
  | none => simp [reads]
  | some term => simp [reads]

/-- The last operator of a chain takes all that stands before it as its left
operand. -/
theorem foldChain_append
    {left right : List Item}
    {sign : Item}
    {operation : Arithmetic}
    {first second : Term}
    (isOperator : operator? sign = some operation)
    (none : ∀ item ∈ right, operator? item = none)
    (readsLeft : foldChain operand operator? left = some first)
    (readsRight : operand right = some second) :
    foldChain operand operator? (left ++ sign :: right) =
      some (.arithmetic first operation second) := by
  rw [foldChain] at readsLeft ⊢
  rw [chain_append isOperator none left]
  obtain ⟨start, starts, folds⟩ := Option.bind_eq_some_iff.1 readsLeft
  simp only [starts, Option.bind_eq_bind, Option.bind_some, List.foldlM_append] at folds ⊢
  rw [folds]
  simp [readsRight]

end

/-- Lists between separators are found again if none of them has a separator. -/
theorem splitOnP_intercalate
    {isSeparator : Item -> Bool}
    {separator : Item}
    (separates : isSeparator separator = true)
    {lists : List (List Item)}
    (nonempty : lists ≠ [])
    (free : ∀ items ∈ lists, ∀ item ∈ items, isSeparator item = false) :
    (List.intercalate [separator] lists).splitOnP isSeparator = lists := by
  induction lists with
  | nil => exact absurd rfl nonempty
  | cons first lists hypothesis =>
      have freeFirst := free first List.mem_cons_self
      cases lists with
      | nil => simpa using List.splitOnP_eq_singleton freeFirst
      | cons second lists =>
          have others := hypothesis (List.cons_ne_nil second lists) fun items member =>
            free items (List.mem_cons_of_mem first member)
          rw [List.intercalate_cons_cons, List.append_assoc, List.singleton_append,
            List.splitOnP_append_cons_of_forall_mem freeFirst separator separates, others]

/-! ## Comparisons -/

section

variable
  {left right : List Item}
  {first second : Term}
  (tight : ∀ item ∈ left, item.looseness <= 3)
  (readsLeft : sum left = some first)

include tight

/-- An operator of a comparison cuts its items in two. -/
theorem chain_relation
    {sign : Item}
    {operator : Option Relation}
    (isOperator : sign.relation? = some operator)
    (tightRight : ∀ item ∈ right, item.looseness <= 3) :
    chain Item.relation? (left ++ sign :: right) = (left, [(operator, right)]) := by
  have freeLeft := fun item member => Item.relation?_eq_none (tight item member)
  have freeRight := fun item member => Item.relation?_eq_none (tightRight item member)
  rw [chain_append isOperator freeRight, chain_of_none freeLeft]
  rfl

include readsLeft

theorem comparison_relation
    (relation : Relation)
    (tightRight : ∀ item ∈ right, item.looseness <= 3)
    (readsRight : sum right = some second) :
    comparison (left ++ .relation relation :: right) =
      some (.comparison first relation second) := by
  have cut : chain Item.relation? (left ++ .relation relation :: right) =
      (left, [(some relation, right)]) := chain_relation tight rfl tightRight
  rw [comparison, cut]
  simp [readsLeft, readsRight]

theorem comparison_isNone :
    comparison (left ++ [.word "is", .word "None"]) = some (.identical first .none) := by
  have cut : chain Item.relation? (left ++ [.word "is", .word "None"]) =
      (left, [(none, [.word "None"])]) := chain_relation tight rfl (by decide)
  have readsNone : sum [.word "None"] = some .none := rfl
  rw [comparison, cut]
  simp [readsLeft, readsNone]

theorem comparison_isNotNone :
    comparison (left ++ [.word "is", .word "not", .word "None"]) =
      some (.distinct first .none) := by
  have freeLeft := fun item member => Item.relation?_eq_none (tight item member)
  have isOperator : (Item.word "is").relation? = some none := rfl
  have cut : chain Item.relation? (left ++ [.word "is", .word "not", .word "None"]) =
      (left, [(none, [.word "not", .word "None"])]) := by
    rw [chain_append isOperator (by simp [Item.relation?]), chain_of_none freeLeft]
    rfl
  have readsNone : sum [.word "None"] = some .none := rfl
  rw [comparison, cut]
  simp [readsLeft, readsNone]

end

/-! ## From level to level -/

section

variable {items : List Item} {term : Term}

/-- No primary starts with a negative sign, so a factor that is one has none. -/
theorem factor_of_primary (reads : primary items = some term) :
    factor items = some term := by
  rw [← reads]
  unfold factor
  split
  next => cases reads
  next => rfl

theorem product_of_factor
    (reads : factor items = some term)
    (tight : ∀ item ∈ items, item.looseness <= 1) :
    product items = some term := by
  rw [product, foldChain_of_none fun item member =>
    Item.productSign?_eq_none (tight item member)]
  exact reads

theorem sum_of_product
    (reads : product items = some term)
    (tight : ∀ item ∈ items, item.looseness <= 2) :
    sum items = some term := by
  rw [sum, foldChain_of_none fun item member => Item.sumSign?_eq_none (tight item member)]
  exact reads

theorem comparison_of_sum
    (reads : sum items = some term)
    (tight : ∀ item ∈ items, item.looseness <= 3) :
    comparison items = some term := by
  rw [comparison, chain_of_none fun item member =>
    Item.relation?_eq_none (tight item member)]
  exact reads

/-- A comparison that starts with an operand is not negated. -/
theorem inversion_of_comparison
    (reads : comparison items = some term)
    (operandFirst : ∀ item ∈ items.head?, item.looseness <= 3) :
    inversion items = some term := by
  rw [← reads]
  unfold inversion
  split
  next =>
    have tight := operandFirst (.word "not") rfl
    exact absurd tight (by decide)
  next => rfl

theorem conjunction_of_inversion
    (reads : inversion items = some term)
    (tight : ∀ item ∈ items, item.looseness <= 5) :
    conjunction items = some term := by
  have free : ∀ item ∈ items, item.isWord "and" = false := fun item member =>
    Item.isWord_eq_false (by decide) (tight item member)
  rw [conjunction, List.splitOnP_eq_singleton free]
  simp [reads, grouped]

theorem disjunction_of_conjunction
    (reads : conjunction items = some term)
    (tight : ∀ item ∈ items, item.looseness <= 6) :
    disjunction items = some term := by
  have free : ∀ item ∈ items, item.isWord "or" = false := fun item member =>
    Item.isWord_eq_false (by decide) (tight item member)
  rw [disjunction, List.splitOnP_eq_singleton free]
  simp [reads, grouped]

theorem expression_of_disjunction
    (reads : disjunction items = some term)
    (tight : ∀ item ∈ items, item.looseness <= 7) :
    expression items = some term := by
  rw [← reads]
  unfold expression
  split
  next parameters items =>
    have bound := tight (.header parameters) List.mem_cons_self
    simp [Item.looseness] at bound
  next => rfl

theorem argument_of_expression
    (reads : expression items = some term)
    (tight : ∀ item ∈ items, item.looseness <= 8) :
    argument items = some term := by
  rw [← reads]
  unfold argument
  split
  next key items =>
    have bound := tight .assign (List.mem_cons_of_mem _ List.mem_cons_self)
    exact absurd bound (by decide)
  next => rfl

/-- What a level reads is read alike by the level above it. -/
theorem reader_succ
    {level : Nat}
    (reads : reader level items = some term)
    (tight : ∀ item ∈ items, item.looseness <= level)
    (operandFirst : level = 4 -> ∀ item ∈ items.head?, item.looseness <= 3) :
    reader (level + 1) items = some term := by
  match level with
  | 0 => exact factor_of_primary reads
  | 1 => exact product_of_factor reads tight
  | 2 => exact sum_of_product reads tight
  | 3 => exact comparison_of_sum reads tight
  | 4 => exact inversion_of_comparison reads (operandFirst rfl)
  | 5 => exact conjunction_of_inversion reads tight
  | 6 => exact disjunction_of_conjunction reads tight
  | 7 => exact expression_of_disjunction reads tight
  | 8 => exact argument_of_expression reads tight
  | level + 9 => exact reads

end

end Python
end StrategyGraph
