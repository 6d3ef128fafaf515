import StrategyGraph.Proofs.Number.Digits
import StrategyGraph.Proofs.Number.Whole

/-!
# Displayed numbers read back

A number that is written positionally is spelled by its digits before a point and those
behind it. The display form of a finite double is read as that double, so no two finite
doubles are displayed alike.
-/

namespace StrategyGraph
namespace Decimal

/-! ## Doubles of decimals -/

/-- The double of a decimal does not depend on its sign. -/
theorem nearestBits_of_parts
    {decimal other : Decimal}
    (digits : decimal.digits = other.digits)
    (exponent : decimal.exponent = other.exponent) :
    decimal.nearestBits = other.nearestBits := by
  cases decimal
  cases other
  cases digits
  cases exponent
  rfl

/-- Moving zeros from the power of ten to the digits, and as many more as there are places
behind the point, keeps the value. -/
theorem nearestBits_of_shifted
    {decimal other : Decimal}
    (zeros fraction : Nat)
    (exponent : decimal.exponent = zeros)
    (digits : other.digits = decimal.digits * 10 ^ (zeros + fraction))
    (otherExponent : other.exponent = -fraction) :
    other.nearestBits = decimal.nearestBits := by
  have ratio : decimal.ratio = (decimal.digits * 10 ^ zeros, 1) := by
    rw [Decimal.ratio, if_pos (by omega), exponent]
    rfl
  have otherRatio : other.ratio =
      (decimal.digits * 10 ^ zeros * 10 ^ fraction, 1 * 10 ^ fraction) := by
    rw [Decimal.ratio, digits, otherExponent, Nat.pow_add, Nat.mul_assoc]
    split
    next none =>
      have isZero : fraction = 0 := by omega
      simp [isZero]
    next => simp [Nat.mul_assoc]
  rw [nearestBits_eq, nearestBits_eq, ratio, otherRatio]
  exact Binary64.nearestBits_mul Nat.one_ne_zero (Nat.pow_pos (by decide))

end Decimal

namespace NumberText

/-! ## Positional forms -/

/-- A text spells a magnitude by digits before a point and digits behind it. There is no
point where nothing stands behind it, and no superfluous zero before the digits. -/
structure Spells (text whole fraction : List Char) (decimal : Decimal) : Prop where
  shape : text = whole ++ if fraction = [] then [] else '.' :: fraction
  plain : whole = ['0'] ∨ ∃ first others, whole = first :: others ∧ first ≠ '0'
  wholeDigits : ∀ character ∈ whole, isDigit character = true
  fractionDigits : ∀ character ∈ fraction, isDigit character = true
  value : (Decimal.ofParts decimal.negative whole fraction 0).nearestBits = decimal.nearestBits

variable {text whole fraction : List Char} {decimal : Decimal}

/-- Zero is spelled by its only digit, with another one behind the point or none. -/
theorem spells_zero (keepsFraction : Bool) (none : decimal.digits = 0) :
    Spells ('0' :: if keepsFraction then ['.', '0'] else []) ['0']
      (if keepsFraction then ['0'] else []) decimal := by
  have zeros : ∀ character ∈ ['0'], isDigit character = true :=
    List.all_iff_forall_prop.1 (by decide)
  have value : ∀ fraction : List Char, natOfDigits (['0'] ++ fraction) = 0 ->
      (Decimal.ofParts decimal.negative ['0'] fraction 0).nearestBits = decimal.nearestBits :=
    fun fraction zero => by
      have noDigits : (Decimal.ofParts decimal.negative ['0'] fraction 0).digits = 0 := zero
      rw [Decimal.nearestBits, Decimal.nearestBits, if_pos none, if_pos noDigits]
  cases keepsFraction with
  | true => exact ⟨rfl, Or.inl rfl, zeros, zeros, value ['0'] rfl⟩
  | false => exact ⟨rfl, Or.inl rfl, zeros, by simp, value [] rfl⟩

/-- Wherever the point lies, the digits of a magnitude spell it. -/
theorem exists_spells_positional
    (keepsFraction : Bool)
    (positive : 0 < decimal.digits) :
    let digits := Decimal.digitsOf decimal.digits
    ∃ whole fraction,
      Spells (positional keepsFraction digits (Int.ofNat digits.length + decimal.exponent))
        whole fraction decimal ∧
      (keepsFraction = true -> fraction ≠ []) := by
  extract_lets digits
  have areDigits : ∀ character ∈ digits, isDigit character = true := fun _ =>
    Decimal.isDigit_of_mem_digitsOf
  have nonempty : digits ≠ [] := Decimal.digitsOf_ne_nil decimal.digits
  have denoted : natOfDigits digits = decimal.digits := natOfDigits_digitsOf decimal.digits
  obtain ⟨first, others, shape, different⟩ := Decimal.digitsOf_eq_cons positive
  change digits = first :: others at shape
  have zero : ∀ character ∈ ['0'], isDigit character = true :=
    List.all_iff_forall_prop.1 (by decide)
  rw [positional]
  generalize position : Int.ofNat digits.length + decimal.exponent = point
  rw [Int.ofNat_eq_natCast] at position ⊢
  split
  next before =>
    -- The point lies before the digits.
    refine ⟨['0'], zeros point.natAbs ++ digits,
      ⟨by simp [nonempty], Or.inl rfl, zero, ?_, Decimal.nearestBits_of_parts ?_ ?_⟩,
      fun _ => by simp [nonempty]⟩
    · intro character member
      exact (List.mem_append.1 member).elim isDigit_of_mem_zeros (areDigits character)
    · rw [Decimal.ofParts, natOfDigits_append, natOfDigits_append, natOfDigits_zeros, denoted]
      simp [natOfDigits, digitValue]
    · simp only [Decimal.ofParts, zeros, List.length_append, List.length_replicate,
        Int.ofNat_eq_natCast]
      omega
  next positivePoint =>
    split
    next behind =>
      -- The point lies behind the digits.
      have whole : ∀ character ∈ digits ++ zeros (point - digits.length).natAbs,
          isDigit character = true := fun character member =>
        (List.mem_append.1 member).elim (areDigits character) isDigit_of_mem_zeros
      have plain : ∃ first others,
          digits ++ zeros (point - digits.length).natAbs = first :: others ∧ first ≠ '0' :=
        ⟨first, _, by rw [shape, List.cons_append], different⟩
      cases keepsFraction with
      | true =>
          refine ⟨_, ['0'], ⟨rfl, Or.inr plain, whole, zero, ?_⟩, fun _ => by simp⟩
          refine Decimal.nearestBits_of_shifted (point - digits.length).natAbs 1
            (by omega) ?_ rfl
          rw [Decimal.ofParts, natOfDigits_append, natOfDigits_append, natOfDigits_zeros, denoted]
          simp [zeros, natOfDigits, digitValue, Nat.pow_succ, Nat.mul_assoc]
      | false =>
          refine ⟨_, [], ⟨rfl, Or.inr plain, whole, by simp, ?_⟩, fun keeps => by cases keeps⟩
          refine Decimal.nearestBits_of_shifted (point - digits.length).natAbs 0
            (by omega) ?_ rfl
          rw [Decimal.ofParts, List.append_nil, natOfDigits_append, natOfDigits_zeros, denoted]
          simp [zeros]
    next among =>
      -- The point lies among the digits.
      have behind : digits.drop point.natAbs ≠ [] := by
        rw [Ne, List.drop_eq_nil_iff]
        omega
      have taken : digits.take point.natAbs = first :: others.take (point.natAbs - 1) := by
        rw [shape]
        exact List.take_cons (by omega)
      refine ⟨digits.take point.natAbs, digits.drop point.natAbs,
        ⟨by rw [if_neg behind], Or.inr ⟨_, _, taken, different⟩,
          fun character member => areDigits character (List.mem_of_mem_take member),
          fun character member => areDigits character (List.mem_of_mem_drop member),
          Decimal.nearestBits_of_parts ?_ ?_⟩, fun _ => behind⟩
      · rw [Decimal.ofParts, List.take_append_drop, denoted]
      · rw [Decimal.ofParts, List.length_drop]
        simp
        omega

/-- Every magnitude is spelled by its display form. -/
theorem exists_spells_display (decimal : Decimal) :
    ∃ whole fraction, Spells (ofMagnitude .display decimal) whole fraction decimal := by
  rw [ofMagnitude]
  split
  next none => exact ⟨_, _, spells_zero false none⟩
  next some =>
    obtain ⟨whole, fraction, spells, _⟩ :=
      exists_spells_positional false (Nat.pos_of_ne_zero some)
    exact ⟨whole, fraction, spells⟩

end NumberText

/-! ## Reading -/

namespace Decimal

/-- Digits have no lower case. -/
theorem toLower_of_isDigit {character : Char} (digit : isDigit character = true) :
    character.toLower = character := by
  rw [isDigit, Bool.and_eq_true, decide_eq_true_eq, decide_eq_true_eq, Char.le_def,
    Char.le_def] at digit
  rw [Char.toLower, dif_neg]
  intro letter
  have ordered := UInt32.le_trans letter.1 digit.2
  exact absurd ordered (by decide)

/-- A number is read part by part, if it starts with a digit. -/
theorem readFloat_of_parts
    (negative : Bool)
    {whole behind fraction : List Char}
    (nonempty : whole ≠ [])
    (areDigits : ∀ character ∈ whole, isDigit character = true)
    (stop : ∀ character ∈ behind.head?, isDigit character = false)
    (split : splitFraction behind = (fraction, [])) :
    readFloat ((if negative then ['-'] else []) ++ (whole ++ behind)) =
      some (ofParts negative whole fraction 0).toFloat := by
  have parted := splitDigits_append areDigits stop
  obtain ⟨first, others, rfl⟩ := List.exists_cons_of_ne_nil nonempty
  have digit := areDigits first List.mem_cons_self
  have other : ∀ sign, isDigit sign = false -> first ≠ sign := by
    rintro sign noDigit rfl
    exact Bool.false_ne_true (noDigit.symm.trans digit)
  have signed : splitSign ((if negative then ['-'] else []) ++ (first :: others ++ behind)) =
      (negative, first :: others ++ behind) := by
    cases negative with
    | true => rfl
    | false =>
        unfold splitSign
        split
        next equal => exact absurd (List.cons.inj equal).1 (other '-' (by decide))
        next equal => exact absurd (List.cons.inj equal).1 (other '+' (by decide))
        next => rfl
  have notName : ∀ letter rest, isDigit letter = false ->
      (first :: others ++ behind).map Char.toLower ≠ letter :: rest := by
    intro letter rest noDigit equal
    rw [List.cons_append, List.map_cons, toLower_of_isDigit digit] at equal
    exact other letter noDigit (List.cons.inj equal).1
  rw [readFloat, signed]
  dsimp only
  rw [if_neg, if_neg, parted]
  · simp [split, readPower]
  · exact notName 'n' _ (by decide)
  · rw [Bool.or_eq_true, decide_eq_true_eq, decide_eq_true_eq]
    exact fun isName => isName.elim (notName 'i' _ (by decide)) (notName 'i' _ (by decide))

end Decimal

namespace NumberText

/-- What spells a magnitude is read, behind the sign, as the double of the decimal. -/
theorem Spells.readFloat
    {text whole fraction : List Char}
    {decimal : Decimal}
    (spells : Spells text whole fraction decimal) :
    Decimal.readFloat ((if decimal.negative then ['-'] else []) ++ text) =
      some decimal.toFloat := by
  have nonempty : whole ≠ [] := by
    rcases spells.plain with rfl | ⟨first, others, rfl, _⟩ <;> exact List.cons_ne_nil _ _
  have split : Decimal.splitFraction (if fraction = [] then [] else '.' :: fraction) =
      (fraction, []) := by
    split
    next none =>
      rw [none]
      rfl
    next =>
      have digits : Decimal.splitDigits (fraction ++ []) = (fraction, []) :=
        Decimal.splitDigits_append spells.fractionDigits (by simp)
      rwa [List.append_nil] at digits
  have stop : ∀ character ∈ (if fraction = [] then [] else '.' :: fraction).head?,
      isDigit character = false := by
    split <;> simp [isDigit]
  rw [spells.shape, Decimal.readFloat_of_parts _ nonempty spells.wholeDigits stop split,
    Decimal.toFloat, spells.value]
  rfl

/-- Whole doubles are the decimals of their integer parts. -/
theorem toFloat_integerPart
    {x : Float}
    (whole : Binary64.isWhole x = true) :
    (Decimal.mk (Binary64.isNegative x) (Binary64.integerPart x) 0).toFloat = x := by
  have finite : x.isFinite = true := (Bool.and_eq_true _ _ ▸ whole).1
  have ratio : (Decimal.mk (Binary64.isNegative x) (Binary64.integerPart x) 0).ratio =
      (Binary64.integerPart x, 1) := by
    simp [Decimal.ratio]
  rw [Decimal.toFloat, Decimal.nearestBits_eq, ratio, ← Binary64.magnitudeBits_of_isWhole whole,
    Binary64.ofMagnitude_magnitudeBits finite]

/-- The display form of a finite double is read as that double. -/
theorem readFloat_display
    {x : Float}
    (finite : x.isFinite = true) :
    Decimal.readFloat (display x).toList = some x := by
  rw [display, Binary64.isNaN_of_isFinite finite, finite, if_neg Bool.false_ne_true,
    Bool.not_true, if_neg Bool.false_ne_true]
  split
  next isShort =>
    rw [Bool.and_eq_true] at isShort
    rw [String.toList_ofList]
    have read := Decimal.readFloat_of_parts (Binary64.isNegative x)
      (Decimal.digitsOf_ne_nil (Binary64.integerPart x))
      (fun _ => Decimal.isDigit_of_mem_digitsOf) (by simp) (rfl : Decimal.splitFraction [] = _)
    rw [List.append_nil] at read
    refine read.trans (congrArg some ?_)
    rw [Decimal.ofParts, List.append_nil, natOfDigits_digitsOf]
    exact toFloat_integerPart isShort.1
  next =>
    obtain ⟨whole, fraction, spells⟩ :=
      exists_spells_display (Shortest.ofFloat NumberFormat.display.tie x)
    rw [String.toList_ofList, ofFinite, ofDecimal_eq, spells.readFloat,
      Shortest.toFloat_ofFloat _ finite]

/-- No two finite doubles are displayed alike. -/
theorem display_injective
    {x y : Float}
    (finite : x.isFinite = true)
    (finiteOther : y.isFinite = true)
    (alike : display x = display y) :
    x = y := by
  have read := readFloat_display finite
  rw [alike, readFloat_display finiteOther] at read
  exact (Option.some.inj read).symm

end NumberText
end StrategyGraph
