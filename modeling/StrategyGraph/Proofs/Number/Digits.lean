import Mathlib.Data.List.TakeDrop
import Mathlib.Tactic.Ring
import StrategyGraph.Number.Text

/-!
# Digits of written numbers

The decimal digits of a number are digits without superfluous zeros before them, and
they denote the number. A run of digits is split off up to where it stops.
-/

namespace StrategyGraph

theorem takeWhile_append_of_stop
    {content rest : List Char}
    {keeps : Char -> Bool}
    (all : ∀ character ∈ content, keeps character = true)
    (stop : ∀ character ∈ rest.head?, keeps character = false) :
    (content ++ rest).takeWhile keeps = content ∧
      (content ++ rest).dropWhile keeps = rest := by
  have stops : rest.takeWhile keeps = [] ∧ rest.dropWhile keeps = rest := by
    cases rest with
    | nil => exact ⟨rfl, rfl⟩
    | cons first rest =>
        have halted := stop first rfl
        simp [halted]
  rw [List.takeWhile_append_of_pos all, List.dropWhile_append_of_pos all, stops.1, stops.2,
    List.append_nil]
  exact ⟨rfl, rfl⟩

/-- Of equal texts that start with a run each, the runs are equal if each ends where its
characters do. -/
theorem eq_of_append_of_stop
    {content other rest behind : List Char}
    {keeps : Char -> Bool}
    (all : ∀ character ∈ content, keeps character = true)
    (allOther : ∀ character ∈ other, keeps character = true)
    (stop : ∀ character ∈ rest.head?, keeps character = false)
    (stopOther : ∀ character ∈ behind.head?, keeps character = false)
    (alike : content ++ rest = other ++ behind) :
    content = other ∧ rest = behind := by
  obtain ⟨taken, dropped⟩ := takeWhile_append_of_stop all stop
  obtain ⟨takenOther, droppedOther⟩ := takeWhile_append_of_stop allOther stopOther
  rw [alike] at taken dropped
  exact ⟨taken.symm.trans takenOther, dropped.symm.trans droppedOther⟩

/-- A text ends before a character that does not occur in it. -/
theorem eq_of_append_of_notMem
    {content other rest behind : List Char}
    {mark : Char}
    (free : mark ∉ content)
    (freeOther : mark ∉ other)
    (stop : ∀ character ∈ rest.head?, character = mark)
    (stopOther : ∀ character ∈ behind.head?, character = mark)
    (alike : content ++ rest = other ++ behind) :
    content = other ∧ rest = behind := by
  have keeps {content : List Char} (free : mark ∉ content) :
      ∀ character ∈ content, (character != mark) = true :=
    fun character member => bne_iff_ne.2 fun same => free (same ▸ member)
  have stops {rest : List Char} (stop : ∀ character ∈ rest.head?, character = mark) :
      ∀ character ∈ rest.head?, (character != mark) = false :=
    fun character first => by rw [stop character first, bne_self_eq_false]
  exact eq_of_append_of_stop (keeps free) (keeps freeOther) (stops stop) (stops stopOther) alike

/-- Counts that are written in the same digits are equal. -/
theorem eq_of_toList_repr_eq {count other : Nat}
    (alike : count.repr.toList = other.repr.toList) :
    count = other := by
  rw [Nat.toList_repr, Nat.toList_repr] at alike
  have values := congrArg (fun digits => Nat.ofDigitChars 10 digits 0) alike
  simpa only [Nat.ofDigitChars_ten_toDigits] using values

namespace Decimal

theorem splitDigits_append
    {content rest : List Char}
    (digits : ∀ character ∈ content, isDigit character = true)
    (stop : ∀ character ∈ rest.head?, isDigit character = false) :
    splitDigits (content ++ rest) = (content, rest) := by
  obtain ⟨taken, dropped⟩ := takeWhile_append_of_stop digits stop
  rw [splitDigits, List.span_eq_takeWhile_dropWhile, taken, dropped]

/-- The characters that a decimal is written with are digits. -/
theorem isDigit_of_mem_digitsOf
    {number : Nat}
    {character : Char}
    (member : character ∈ digitsOf number) :
    isDigit character = true := by
  have digit := Nat.isDigit_of_mem_toDigits (by decide) (by decide) member
  simpa [Char.isDigit, isDigit, Char.le_def] using digit

theorem digitsOf_ne_nil (number : Nat) : digitsOf number ≠ [] := by
  intro empty
  have shorter := Nat.length_toDigits_pos (b := 10) (n := number)
  rw [digitsOf] at empty
  simp [empty] at shorter

theorem digitsOf_of_lt {number : Nat} (small : number < 10) :
    digitsOf number = [Nat.digitChar number] := by
  rw [digitsOf, Nat.toDigits_eq_if (by decide), if_pos small]

theorem digitsOf_of_le {number : Nat} (large : 10 <= number) :
    digitsOf number = digitsOf (number / 10) ++ [Nat.digitChar (number % 10)] := by
  rw [digitsOf, Nat.toDigits_eq_if (by decide), if_neg (by omega)]
  rfl

/-- The digits of a number other than zero start with one other than zero. -/
theorem digitsOf_eq_cons {number : Nat} (positive : 0 < number) :
    ∃ first rest, digitsOf number = first :: rest ∧ first ≠ '0' := by
  have nonzero : ∀ digit < 10, 0 < digit -> Nat.digitChar digit ≠ '0' := by decide
  induction number using Nat.strongRecOn with
  | ind number hypothesis =>
      rcases Nat.lt_or_ge number 10 with small | large
      · exact ⟨_, [], digitsOf_of_lt small, nonzero number small positive⟩
      · obtain ⟨first, rest, quotient, different⟩ :=
          hypothesis (number / 10) (by omega) (by omega)
        exact ⟨first, rest ++ [Nat.digitChar (number % 10)],
          by rw [digitsOf_of_le large, quotient, List.cons_append], different⟩

end Decimal

/-! ## The numbers that digits denote -/

theorem natOfDigits_append (front back : List Char) :
    natOfDigits (front ++ back) = natOfDigits front * 10 ^ back.length + natOfDigits back := by
  have shifted : ∀ (digits : List Char) (start : Nat),
      digits.foldl (fun total digit => 10 * total + digitValue digit) start =
        start * 10 ^ digits.length + natOfDigits digits := by
    intro digits
    induction digits with
    | nil => simp [natOfDigits]
    | cons digit digits hypothesis =>
        intro start
        rw [natOfDigits, List.foldl_cons, List.foldl_cons, hypothesis, hypothesis,
          List.length_cons, Nat.pow_succ]
        ring
  rw [natOfDigits, List.foldl_append, shifted]
  rfl

theorem natOfDigits_zeros (count : Nat) : natOfDigits (NumberText.zeros count) = 0 := by
  induction count with
  | zero => rfl
  | succ count hypothesis =>
      rw [NumberText.zeros, List.replicate_succ', natOfDigits_append]
      rw [NumberText.zeros] at hypothesis
      rw [hypothesis]
      rfl

/-- The digits of a number denote it. -/
theorem natOfDigits_digitsOf (number : Nat) : natOfDigits (Decimal.digitsOf number) = number := by
  have single : ∀ digit < 10, natOfDigits [Nat.digitChar digit] = digit := by decide
  induction number using Nat.strongRecOn with
  | ind number hypothesis =>
      rcases Nat.lt_or_ge number 10 with small | large
      · rw [Decimal.digitsOf_of_lt small, single number small]
      · rw [Decimal.digitsOf_of_le large, natOfDigits_append, hypothesis _ (by omega),
          single _ (Nat.mod_lt number (by decide)), List.length_singleton]
        omega

namespace NumberText

theorem isDigit_of_mem_zeros
    {count : Nat}
    {character : Char}
    (member : character ∈ zeros count) :
    isDigit character = true := by
  rw [List.eq_of_mem_replicate member]
  decide

/-- A decimal is written as its magnitude behind an optional minus. -/
theorem ofDecimal_eq (format : NumberFormat) (decimal : Decimal) :
    ofDecimal format decimal =
      (if decimal.negative then ['-'] else []) ++ ofMagnitude format decimal := by
  rw [ofDecimal]
  cases decimal.negative with
  | false => rfl
  | true => rfl

end NumberText
end StrategyGraph
