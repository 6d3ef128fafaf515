import StrategyGraph.Proofs.Number.Sign
import StrategyGraph.Proofs.Script.Token

/-!
# Numerals of scripts

A finite number is written with a minus or without, and behind it stands a numeral:
digits, with a point between them or none. Counts are written in digits alone.
-/

namespace StrategyGraph

namespace NumberText

/-- Whether a number is written with a minus. -/
def isSigned (x : Float) : Bool :=
  (display x).toList.head? == some '-'

/-- What a number is written as behind its sign. -/
def unsigned (x : Float) : String :=
  String.ofList (if isSigned x then (display x).toList.drop 1 else (display x).toList)

theorem toList_display (x : Float) :
    (display x).toList = (if isSigned x then ['-'] else []) ++ (unsigned x).toList := by
  rw [unsigned, String.toList_ofList]
  cases signed : isSigned x with
  | false => rfl
  | true =>
      rw [isSigned, beq_iff_eq] at signed
      obtain ⟨rest, shape⟩ := List.head?_eq_some_iff.1 signed
      simp [shape]

end NumberText

namespace Python

open NumberText

/-- A count is written as a numeral. -/
theorem isNumeral_repr (count : Nat) : IsNumeral count.repr.toList := by
  rw [Nat.toList_repr]
  exact Or.inl ⟨Decimal.digitsOf_ne_nil count, fun _ => Decimal.isDigit_of_mem_digitsOf⟩

/-- Digits with a point anywhere among them are a numeral. -/
theorem isNumeral_positional
    {digits : List Char}
    (nonempty : digits ≠ [])
    (areDigits : ∀ character ∈ digits, isDigit character = true)
    (point : Int) :
    IsNumeral (positional false digits point) := by
  rw [positional]
  split
  next =>
    refine Or.inr ⟨['0'], zeros point.natAbs ++ digits, rfl, by simp, by simp [nonempty],
      List.all_iff_forall_prop.1 (by decide), ?_⟩
    intro character member
    rcases List.mem_append.1 member with zero | digit
    · exact isDigit_of_mem_zeros zero
    · exact areDigits character digit
  next positive =>
    split
    next =>
      refine Or.inl ⟨by simp [nonempty], ?_⟩
      intro character member
      rcases List.mem_append.1 member with written | none
      · rcases List.mem_append.1 written with digit | zero
        · exact areDigits character digit
        · exact isDigit_of_mem_zeros zero
      · simp at none
    next inside =>
      have positiveLength : 0 < digits.length := List.length_pos_iff.2 nonempty
      have before : 0 < point.natAbs := by omega
      have behind : point.natAbs < digits.length := by
        rw [Int.ofNat_eq_natCast] at inside
        omega
      refine Or.inr ⟨digits.take point.natAbs, digits.drop point.natAbs, rfl, ?_, ?_, ?_, ?_⟩
      · intro empty
        have length := congrArg List.length empty
        rw [List.length_take, List.length_nil] at length
        omega
      · intro empty
        have length := congrArg List.length empty
        rw [List.length_drop, List.length_nil] at length
        omega
      · exact fun character member => areDigits character (List.mem_of_mem_take member)
      · exact fun character member => areDigits character (List.mem_of_mem_drop member)

theorem isNumeral_ofMagnitude (decimal : Decimal) :
    IsNumeral (ofMagnitude .display decimal) := by
  rw [ofMagnitude]
  split
  next => exact Or.inl ⟨List.cons_ne_nil _ _, List.all_iff_forall_prop.1 (by decide)⟩
  next =>
    exact isNumeral_positional (Decimal.digitsOf_ne_nil decimal.digits)
      (fun _ => Decimal.isDigit_of_mem_digitsOf) _

/-- A number that is written with a numeral behind an optional minus has that
numeral for its unsigned form. -/
theorem unsigned_eq
    {x : Float}
    {signed : Bool}
    {content : List Char}
    (isNumeral : IsNumeral content)
    (shape : (display x).toList = (if signed then ['-'] else []) ++ content) :
    (unsigned x).toList = content := by
  obtain ⟨first, rest, rfl, digit⟩ := isNumeral.exists_digit
  have notMinus : first ≠ '-' := by
    rintro rfl
    exact absurd digit (by decide)
  rw [unsigned, String.toList_ofList, isSigned, shape]
  cases signed with
  | false => simp [notMinus]
  | true => simp

/-- A finite number is written as a numeral, behind a minus if it is negative. -/
theorem exists_numeral
    {x : Float}
    (finite : x.isFinite = true) :
    ∃ content, IsNumeral content ∧
      (display x).toList = (if Binary64.isNegative x then ['-'] else []) ++ content := by
  have notNaN := Binary64.isNaN_of_isFinite finite
  rw [display, notNaN, finite, if_neg Bool.false_ne_true, Bool.not_true,
    if_neg Bool.false_ne_true]
  split
  next =>
    exact ⟨Decimal.digitsOf (Binary64.integerPart x),
      Or.inl ⟨Decimal.digitsOf_ne_nil _, fun _ => Decimal.isDigit_of_mem_digitsOf⟩,
      String.toList_ofList⟩
  next =>
    refine ⟨_, isNumeral_ofMagnitude (Shortest.ofFloat NumberFormat.display.tie x), ?_⟩
    rw [String.toList_ofList, ofFinite, ofDecimal_eq, Shortest.negative_ofFloat]

theorem isNumeral_unsigned
    {x : Float}
    (finite : x.isFinite = true) :
    IsNumeral (unsigned x).toList := by
  obtain ⟨content, isNumeral, shape⟩ := exists_numeral finite
  rw [unsigned_eq isNumeral shape]
  exact isNumeral

theorem display_of_infinite
    {x : Float}
    (unsigned : Binary64.Unsigned x)
    (infinite : x.isFinite = false) :
    display x = "inf" := by
  rw [display, unsigned.isNumber, unsigned.noSign, infinite, if_neg Bool.false_ne_true,
    if_pos Bool.not_false, if_neg Bool.false_ne_true]

/-- A number without a sign is written in digits and a point, unless it is infinite. -/
theorem display_of_unsigned
    {x : Float}
    (unsigned : Binary64.Unsigned x) :
    IsNumeral (display x).toList ∨ display x = "inf" := by
  cases finite : x.isFinite with
  | true =>
      obtain ⟨content, isNumeral, shape⟩ := exists_numeral finite
      rw [unsigned.noSign, if_neg Bool.false_ne_true, List.nil_append] at shape
      rw [shape]
      exact Or.inl isNumeral
  | false => exact Or.inr (display_of_infinite unsigned finite)

end Python
end StrategyGraph
