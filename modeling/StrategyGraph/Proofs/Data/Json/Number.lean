import StrategyGraph.Data.Json.Token
import StrategyGraph.Data.Json.Writer
import StrategyGraph.Proofs.Number.Display

/-!
# Reading written numbers back

Numbers are written with shortest digits. Whichever form is written, positional or with a
power of ten, the numeral that is read stands for the same decimal, or for one of the same
value, so rounding it to the nearest double gives the number that was written. Whole
numbers of a machine word are read back as they are.
-/

namespace StrategyGraph
namespace Json

/-- What may follow a number: nothing that could continue it. -/
def EndsNumber (rest : List Char) : Prop :=
  ∀ character ∈ rest.head?,
    isDigit character = false ∧ character ≠ '.' ∧ character ≠ 'e' ∧ character ≠ 'E'

/-! ## Parts of a number -/

section

variable {rest : List Char}

theorem readFraction_of_digits
    {digits : List Char}
    (nonempty : digits ≠ [])
    (areDigits : ∀ character ∈ digits, isDigit character = true)
    (stop : ∀ character ∈ rest.head?, isDigit character = false) :
    readFraction ('.' :: (digits ++ rest)) = some (digits, rest) := by
  rw [readFraction, Decimal.splitDigits_append areDigits stop]
  simp [nonempty]

theorem readFraction_of_none (noPoint : ∀ character ∈ rest.head?, character ≠ '.') :
    readFraction rest = some ([], rest) := by
  unfold readFraction
  split
  next => exact absurd rfl (noPoint '.' rfl)
  next => rfl

theorem readPower_of_none (ends : EndsNumber rest) :
    Decimal.readPower rest = some (0, rest) := by
  cases rest with
  | nil => rfl
  | cons letter behind =>
      obtain ⟨_, _, notLower, notUpper⟩ := ends letter rfl
      simp [Decimal.readPower, notLower, notUpper]

theorem readPower_of_power (power : Int) (ends : EndsNumber rest) :
    Decimal.readPower
      ('e' :: (if power < 0 then '-' else '+') :: (Decimal.digitsOf power.natAbs ++ rest)) =
        some (power, rest) := by
  have split : Decimal.splitDigits (Decimal.digitsOf power.natAbs ++ rest) =
      (Decimal.digitsOf power.natAbs, rest) :=
    Decimal.splitDigits_append (fun _ => Decimal.isDigit_of_mem_digitsOf) fun character member =>
      (ends character member).1
  have nonempty := Decimal.digitsOf_ne_nil power.natAbs
  by_cases negative : power < 0
  · have magnitude : -|power| = power := by rw [abs_of_neg negative, Int.neg_neg]
    simp [Decimal.readPower, negative, Decimal.splitSign, split, nonempty, natOfDigits_digitsOf,
      magnitude]
  · have magnitude : |power| = power := abs_of_nonneg (Int.not_lt.1 negative)
    simp [Decimal.readPower, negative, Decimal.splitSign, split, nonempty, natOfDigits_digitsOf,
      magnitude]

/-- A number is read part by part. -/
theorem readNumber_of_parts
    (rounding : Rounding)
    (negative : Bool)
    {whole fraction afterWhole afterFraction : List Char}
    {power : Int}
    (plain : isPlainWhole whole = true)
    (areDigits : ∀ character ∈ whole, isDigit character = true)
    (stop : ∀ character ∈ afterWhole.head?, isDigit character = false)
    (readsFraction : readFraction afterWhole = some (fraction, afterFraction))
    (readsPower : Decimal.readPower afterFraction = some (power, rest)) :
    readNumber rounding ((if negative then ['-'] else []) ++ (whole ++ afterWhole)) =
      some
        (numberOf rounding (!continues afterWhole) ⟨negative, whole, fraction, power⟩, rest) := by
  have split := Decimal.splitDigits_append areDigits stop
  cases negative with
  | true => simp [readNumber, split, plain, readsFraction, readsPower]
  | false =>
      cases whole with
      | nil => cases plain
      | cons first others =>
          have notMinus : first ≠ '-' := by
            rintro rfl
            exact absurd (areDigits '-' List.mem_cons_self) (by decide)
          rw [List.cons_append] at split
          simp [readNumber, notMinus, split, plain, readsFraction, readsPower]

end

/-! ## Forms of a number -/

theorem isPlainWhole_of_ne_zero
    {first : Char}
    (different : first ≠ '0')
    (others : List Char) :
    isPlainWhole (first :: others) = true := by
  unfold isPlainWhole
  split
  next empty => cases empty
  next => rfl
  next equal =>
    cases equal
    exact bne_iff_ne.2 different

/-- A numeral that is read off a text stands for a decimal. -/
structure Denotes
    (rounding : Rounding)
    (negative : Bool)
    (text rest : List Char)
    (decimal : Decimal)
    (numeral : Numeral) : Prop where
  reads : readNumber rounding ((if negative then ['-'] else []) ++ (text ++ rest)) =
    some (numberOf rounding false numeral, rest)
  sign : numeral.negative = negative
  value : numeral.decimal.nearestBits = decimal.nearestBits

section

variable
  {rest : List Char}
  (ends : EndsNumber rest)
  (rounding : Rounding)
  (negative : Bool)

include ends

/-- What is spelled with digits behind the point stands for the decimal. -/
theorem denotes_of_spells
    {text whole fraction : List Char}
    {decimal : Decimal}
    (spells : NumberText.Spells text whole fraction decimal)
    (nonempty : fraction ≠ []) :
    Denotes rounding negative text rest decimal ⟨negative, whole, fraction, 0⟩ := by
  have plain : isPlainWhole whole = true := by
    rcases spells.plain with rfl | ⟨first, others, rfl, different⟩
    · rfl
    · exact isPlainWhole_of_ne_zero different others
  refine ⟨?_, rfl, ?_⟩
  · rw [spells.shape, if_neg nonempty, List.append_assoc, List.cons_append]
    refine readNumber_of_parts rounding negative plain spells.wholeDigits ?_
      (readFraction_of_digits nonempty spells.fractionDigits fun character member =>
        (ends character member).1) (readPower_of_none ends)
    intro character member
    cases member
    decide
  · exact (Decimal.nearestBits_of_parts rfl rfl).trans spells.value

/-- Forms with a power of ten. -/
theorem exists_denotes_scientific
    {decimal : Decimal}
    (positive : 0 < decimal.digits) :
    let digits := Decimal.digitsOf decimal.digits
    ∃ numeral, Denotes rounding negative
      (NumberText.scientific digits (Int.ofNat digits.length + decimal.exponent)) rest decimal
      numeral := by
  extract_lets digits
  have areDigits : ∀ character ∈ digits, isDigit character = true := fun _ =>
    Decimal.isDigit_of_mem_digitsOf
  have denoted : natOfDigits digits = decimal.digits := natOfDigits_digitsOf decimal.digits
  obtain ⟨first, others, shape, different⟩ := Decimal.digitsOf_eq_cons positive
  change digits = first :: others at shape
  generalize position : Int.ofNat digits.length + decimal.exponent = point
  rw [Int.ofNat_eq_natCast] at position
  have power := readPower_of_power (point - 1) ends
  generalize written : ('e' :: (if point - 1 < 0 then '-' else '+') ::
    (Decimal.digitsOf (point - 1).natAbs ++ rest)) = exponent at power
  have starts : ∃ behind, exponent = 'e' :: behind := ⟨_, written.symm⟩
  obtain ⟨behind, rfl⟩ := starts
  rw [shape] at areDigits
  obtain ⟨firstDigit, otherDigits⟩ := List.forall_mem_cons.1 areDigits
  have text : NumberText.scientific digits point ++ rest =
      [first] ++ ((if others = [] then [] else '.' :: others) ++ 'e' :: behind) := by
    rw [← written, shape]
    cases others <;> simp [NumberText.scientific]
  have fraction : readFraction ((if others = [] then [] else '.' :: others) ++ 'e' :: behind) =
      some (others, 'e' :: behind) := by
    split
    next none =>
      rw [none]
      exact readFraction_of_none (by simp)
    next some => exact readFraction_of_digits some otherDigits (by simp [isDigit])
  refine ⟨⟨negative, [first], others, point - 1⟩, ?_, rfl, ?_⟩
  · have continued : continues ((if others = [] then [] else '.' :: others) ++ 'e' :: behind) =
        true := by
      split <;> rfl
    have stop : ∀ character ∈ ((if others = [] then [] else '.' :: others) ++
        'e' :: behind).head?, isDigit character = false := by
      split <;> simp [isDigit]
    have reads := readNumber_of_parts rounding negative (isPlainWhole_of_ne_zero different [])
      (List.forall_mem_singleton.2 firstDigit) stop fraction power
    rw [text, reads, continued]
    rfl
  · refine Decimal.nearestBits_of_parts ?_ ?_
    · rw [Numeral.decimal, Decimal.ofParts, List.singleton_append, ← shape, denoted]
    · rw [shape, List.length_cons] at position
      simp only [Numeral.decimal, Decimal.ofParts, Int.ofNat_eq_natCast]
      omega

/-- Whatever form a decimal is written in, it is read back. -/
theorem exists_denotes (decimal : Decimal) :
    ∃ numeral, Denotes rounding negative (NumberText.ofMagnitude .data decimal) rest decimal
      numeral := by
  rw [NumberText.ofMagnitude]
  split
  next none =>
    exact ⟨_, denotes_of_spells ends rounding negative (NumberText.spells_zero true none)
      (by simp)⟩
  next some =>
    dsimp only [NumberFormat.data]
    split
    next =>
      obtain ⟨whole, fraction, spells, nonempty⟩ :=
        NumberText.exists_spells_positional true (Nat.pos_of_ne_zero some)
      exact ⟨_, denotes_of_spells ends rounding negative spells (nonempty rfl)⟩
    next => exact exists_denotes_scientific ends rounding negative (Nat.pos_of_ne_zero some)

end

/-! ## Doubles and integers -/

/-- Written doubles are read up to their end. -/
theorem exists_readNumber_data
    {rest : List Char}
    (ends : EndsNumber rest)
    (rounding : Rounding)
    (x : Float) :
    ∃ datum, readNumber rounding ((NumberText.data x).toList ++ rest) = some (datum, rest) := by
  obtain ⟨numeral, denotes⟩ := exists_denotes ends rounding (Shortest.ofFloat .even x).negative
    (Shortest.ofFloat .even x)
  rw [NumberText.data, String.toList_ofList, NumberText.ofFinite, NumberText.ofDecimal_eq,
    List.append_assoc]
  exact ⟨_, denotes.reads⟩

/-- A finite double is read back, if it is rounded to the nearest double. -/
theorem readNumber_data
    {rest : List Char}
    (ends : EndsNumber rest)
    {x : Float}
    (finite : x.isFinite = true) :
    readNumber .nearest ((NumberText.data x).toList ++ rest) = some (.number x, rest) := by
  obtain ⟨numeral, denotes⟩ := exists_denotes ends .nearest (Shortest.ofFloat .even x).negative
    (Shortest.ofFloat .even x)
  have value : numeral.toFloat .nearest = x := by
    have sign : numeral.decimal.negative = (Shortest.ofFloat .even x).negative := denotes.sign
    rw [Numeral.toFloat, Decimal.toFloat, sign, denotes.value, ← Decimal.toFloat,
      Shortest.toFloat_ofFloat .even finite]
  rw [NumberText.data, String.toList_ofList, NumberText.ofFinite, NumberText.ofDecimal_eq,
    List.append_assoc]
  refine denotes.reads.trans ?_
  simp [numberOf, value, finite]

theorem appendFitting_of_le
    {digits : List Char}
    {start : Nat}
    (fits : digits.foldl (fun total digit => 10 * total + digitValue digit) start <=
      Binary64.largestCount) :
    Numeral.appendFitting start digits =
      (digits.foldl (fun total digit => 10 * total + digitValue digit) start, []) := by
  have grows : ∀ (digits : List Char) (start : Nat), start <=
      digits.foldl (fun total digit => 10 * total + digitValue digit) start := by
    intro digits
    induction digits with
    | nil => exact fun start => le_rfl
    | cons digit digits hypothesis =>
        intro start
        exact (show start <= 10 * start + digitValue digit by omega).trans (hypothesis _)
  induction digits generalizing start with
  | nil => rfl
  | cons digit digits hypothesis =>
      have next : 10 * start + digitValue digit <= Binary64.largestCount :=
        (grows digits _).trans fits
      rw [Numeral.appendFitting, if_pos next]
      exact hypothesis fits

/-- An integer of a machine word is read back. -/
theorem readNumber_integer
    {rest : List Char}
    (ends : EndsNumber rest)
    (rounding : Rounding)
    {value : Int}
    (fits : value.natAbs <= Binary64.largestCount) :
    readNumber rounding ((integerText value).toList ++ rest) = some (.integer value, rest) := by
  have plain : isPlainWhole (Decimal.digitsOf value.natAbs) = true := by
    rcases Nat.eq_zero_or_pos value.natAbs with none | some
    · rw [none]
      decide
    · obtain ⟨first, others, shape, different⟩ := Decimal.digitsOf_eq_cons some
      rw [shape]
      exact isPlainWhole_of_ne_zero different others
  have whole : continues rest = false := by
    cases rest with
    | nil => rfl
    | cons character behind =>
        obtain ⟨_, noPoint, notLower, notUpper⟩ := ends character rfl
        simp [continues, noPoint, notLower, notUpper]
  have denoted : Numeral.appendFitting 0 (Decimal.digitsOf value.natAbs) = (value.natAbs, []) := by
    have digits := natOfDigits_digitsOf value.natAbs
    rw [natOfDigits] at digits
    rw [appendFitting_of_le (digits.symm ▸ fits), digits]
  have reads := readNumber_of_parts rounding (value < 0) plain
    (fun _ => Decimal.isDigit_of_mem_digitsOf) (fun character member => (ends character member).1)
    (readFraction_of_none fun character member => (ends character member).2.1)
    (readPower_of_none ends)
  have text : (integerText value).toList ++ rest =
      (if decide (value < 0) = true then ['-'] else []) ++
        (Decimal.digitsOf value.natAbs ++ rest) := by
    rw [integerText, String.toList_ofList, List.append_assoc]
    simp only [decide_eq_true_eq]
  rw [text, reads, whole, numberOf, denoted]
  simp only [Bool.not_false, Bool.true_and, List.isEmpty_nil, if_true, integerOf,
    decide_eq_true_eq, Int.ofNat_eq_natCast]
  split
  next negative =>
    rw [if_neg (by omega)]
    congr 3
    omega
  next nonnegative =>
    congr 3
    omega

end Json
end StrategyGraph
