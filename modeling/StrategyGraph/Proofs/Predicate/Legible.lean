import StrategyGraph.Proofs.Indicator.Key
import StrategyGraph.Proofs.Predicate.Wording

/-!
# Legible predicates

The first character of a worded predicate shows its form, a name ends at a bracket and a
constant at a blank or a parenthesis. So a wording determines the predicate, whatever follows
it, provided that groups have several parts: the wording of a negated group of one could be
that of a negated comparison.

Main result: `Wording.Clear.spell_injective`.
-/

namespace StrategyGraph

/-! ## Legible predicates -/

/-- An expression that reads a complete series at an exact position, or a finite constant. -/
def Expression.Legible : Expression -> Prop
  | .price _ offset => backPosition offset = offset + 1
  | .indicator series offset => series.Complete ∧ backPosition offset = offset + 1
  | .literal constant => constant.isFinite = true

namespace Predicate

/-- A predicate over legible expressions whose groups have at least two parts. -/
inductive Legible : Predicate -> Prop
  | always : Legible .always
  | compare (left : first.Legible) (right : second.Legible) :
      Legible (.compare first relation second)
  | all (several : 2 <= parts.length) (each : ∀ part ∈ parts, Legible part) :
      Legible (.all parts)
  | any (several : 2 <= parts.length) (each : ∀ part ∈ parts, Legible part) :
      Legible (.any parts)
  | negation (inner : Legible part) : Legible (.negation part)

theorem Legible.of_group
    {connective : Connective}
    {parts : List Predicate}
    (legible : (connective.group parts).Legible) :
    2 <= parts.length ∧ ∀ part ∈ parts, part.Legible := by
  cases connective with
  | and =>
      cases legible with
      | all several each => exact ⟨several, each⟩
  | or =>
      cases legible with
      | any several each => exact ⟨several, each⟩

/-- Groups are those of one of the connectives. -/
theorem exists_group_of_form {predicate : Predicate} (isGroup : predicate.form = .group) :
    ∃ (connective : Connective) (parts : List Predicate), predicate = connective.group parts := by
  cases predicate with
  | all parts => exact ⟨.and, parts, rfl⟩
  | any parts => exact ⟨.or, parts, rfl⟩
  | always => cases isGroup
  | compare left relation right => cases isGroup
  | negation inner => cases isGroup

/-- The form that a wording with a first character has. -/
def Form.ofFirst (first : Char) : Form :=
  if first = '(' then .group
  else if first = 'n' then .negation
  else if first = 't' ∨ first = 'T' then .always
  else .comparison

end Predicate

namespace Wording

open Predicate (Connective Form)
open NumberText (display)

/-! ## Names and constants -/

/-- Characters that constants start with. -/
def startsConstant (first : Char) : Bool :=
  isDigit first || first = '-'

/-- A name is free of brackets and starts otherwise than constants, groups, negations and the
word for no constraint. -/
structure IsName (name : String) : Prop where
  plain : '[' ∉ name.toList
  start : ∃ first rest, name.toList = first :: rest ∧ startsConstant first = false ∧
    Form.ofFirst first = .comparison

/-- A wording that gives the columns and the complete series different names. -/
structure Clear (wording : Wording) : Prop where
  always : ∃ first rest, wording.always.toList = first :: rest ∧ Form.ofFirst first = .always
  isColumnName : ∀ column, IsName (wording.column column)
  isSeriesName : ∀ series, series.Complete -> IsName (wording.series series)
  columns : ∀ column other, wording.column column = wording.column other -> column = other
  series : ∀ series other, series.Complete -> other.Complete ->
    wording.series series = wording.series other -> series = other
  apart : ∀ column series, series.Complete -> wording.column column ≠ wording.series series

/-- Text that can follow a constant: none, or one that starts with a blank or the end of a
group. -/
def Ends (rest : List Char) : Prop :=
  ∀ character ∈ rest.head?, character = ' ' ∨ character = ')'

theorem ends_blank (rest : List Char) : Ends (' ' :: rest) :=
  fun _ same => Or.inl (Option.some.inj same).symm

theorem ends_close (rest : List Char) : Ends (')' :: rest) :=
  fun _ same => Or.inr (Option.some.inj same).symm

section

variable {value other : Float} {rest behind : List Char}

theorem constant_of_mem_display
    (finite : value.isFinite = true) :
    ∀ character ∈ (display value).toList,
      (startsConstant character || character = '.') = true := by
  intro character member
  obtain ⟨content, isNumeral, shape⟩ := Python.exists_numeral finite
  rw [shape] at member
  rcases List.mem_append.1 member with sign | inContent
  · split at sign
    next => rw [List.mem_singleton.1 sign]; decide
    next => exact absurd sign List.not_mem_nil
  · by_cases point : character = '.'
    · simp [point]
    · simp [startsConstant, isNumeral.digit_of_ne inContent point]

theorem exists_start_display
    (finite : value.isFinite = true) :
    ∃ first rest, (display value).toList = first :: rest ∧ startsConstant first = true := by
  obtain ⟨content, isNumeral, shape⟩ := Python.exists_numeral finite
  obtain ⟨first, rest, rfl, digit⟩ := isNumeral.exists_digit
  split at shape
  next => exact ⟨'-', _, shape, by decide⟩
  next => exact ⟨first, rest, shape, by simp [startsConstant, digit]⟩

/-- A constant ends where other characters than those of numbers follow. -/
theorem display_append_injective
    (finite : value.isFinite = true)
    (finiteOther : other.isFinite = true)
    (ends : Ends rest)
    (endsOther : Ends behind)
    (alike : (display value).toList ++ rest = (display other).toList ++ behind) :
    value = other ∧ rest = behind := by
  have stops : ∀ text, Ends text -> ∀ character ∈ text.head?,
      (startsConstant character || character = '.') = false := by
    intro text isEnd character first
    rcases isEnd character first with rfl | rfl <;> decide
  obtain ⟨same, sameRest⟩ := eq_of_append_of_stop (constant_of_mem_display finite)
    (constant_of_mem_display finiteOther) (stops rest ends) (stops behind endsOther) alike
  exact ⟨NumberText.display_injective finite finiteOther (String.toList_inj.1 same), sameRest⟩

end

section

variable {name other : String} {offset back : Nat} {rest behind : List Char}

/-- A name ends at the bracket of the position, and the position at a bracket as well. -/
theorem name_append_injective
    (isName : IsName name)
    (isNameOther : IsName other)
    (alike : name.toList ++ (Expression.backText offset).toList ++ rest =
      other.toList ++ (Expression.backText back).toList ++ behind) :
    name = other ∧ Expression.backPosition offset = Expression.backPosition back ∧
      rest = behind := by
  have shape (offset : Nat) (rest : List Char) :
      (Expression.backText offset).toList ++ rest =
        '[' :: '-' :: ((Expression.backPosition offset).repr.toList ++ ']' :: rest) := by
    simp [Expression.backText]
  have digits (position : Nat) : ∀ character ∈ position.repr.toList,
      isDigit character = true := by
    rw [Nat.toList_repr]
    exact fun character => Decimal.isDigit_of_mem_digitsOf
  rw [List.append_assoc, List.append_assoc, shape, shape] at alike
  obtain ⟨sameName, positions⟩ := eq_of_append_of_notMem isName.plain isNameOther.plain
    (by simp) (by simp) alike
  have numbers := (List.cons.inj (List.cons.inj positions).2).2
  obtain ⟨samePosition, closed⟩ := eq_of_append_of_stop (digits _) (digits _)
    (by simp [isDigit]) (by simp [isDigit]) numbers
  exact ⟨String.toList_inj.1 sameName, eq_of_toList_repr_eq samePosition, (List.cons.inj closed).2⟩

/-- Constants start otherwise than names. -/
theorem name_append_ne_display
    {value : Float}
    (isName : IsName name)
    (finite : value.isFinite = true) :
    name.toList ++ rest ≠ (display value).toList ++ behind := by
  intro alike
  obtain ⟨first, others, shape, notConstant, _⟩ := isName.start
  obtain ⟨start, digits, written, constant⟩ := exists_start_display finite
  rw [shape, written] at alike
  rw [(List.cons.inj alike).1, constant] at notConstant
  cases notConstant

end

/-! ## Reading expressions -/

section

variable {wording : Wording} (clear : wording.Clear)

include clear

theorem spellExpression_injective
    {expression other : Expression}
    {rest behind : List Char}
    (legible : expression.Legible)
    (legibleOther : other.Legible)
    (ends : Ends rest)
    (endsOther : Ends behind)
    (alike : wording.spellExpression expression ++ rest =
      wording.spellExpression other ++ behind) :
    expression = other ∧ rest = behind := by
  cases expression with
  | price column offset =>
      have isName := clear.isColumnName column
      cases other with
      | price other back =>
          obtain ⟨sameName, samePosition, sameRest⟩ :=
            name_append_injective isName (clear.isColumnName other) alike
          rw [legible, legibleOther] at samePosition
          rw [clear.columns column other sameName, Nat.succ.inj samePosition]
          exact ⟨rfl, sameRest⟩
      | indicator series back =>
          obtain ⟨sameName, _⟩ :=
            name_append_injective isName (clear.isSeriesName series legibleOther.1) alike
          exact absurd sameName (clear.apart column series legibleOther.1)
      | literal constant =>
          rw [spellExpression, List.append_assoc] at alike
          exact absurd alike (name_append_ne_display isName legibleOther)
  | indicator series offset =>
      have isName := clear.isSeriesName series legible.1
      cases other with
      | price other back =>
          obtain ⟨sameName, _⟩ :=
            name_append_injective isName (clear.isColumnName other) alike
          exact absurd sameName.symm (clear.apart other series legible.1)
      | indicator other back =>
          obtain ⟨sameName, samePosition, sameRest⟩ :=
            name_append_injective isName (clear.isSeriesName other legibleOther.1) alike
          rw [legible.2, legibleOther.2] at samePosition
          rw [clear.series series other legible.1 legibleOther.1 sameName,
            Nat.succ.inj samePosition]
          exact ⟨rfl, sameRest⟩
      | literal constant =>
          rw [spellExpression, List.append_assoc] at alike
          exact absurd alike (name_append_ne_display isName legibleOther)
  | literal constant =>
      cases other with
      | price other back =>
          simp only [spellExpression, List.append_assoc] at alike
          exact absurd alike.symm (name_append_ne_display (clear.isColumnName other) legible)
      | indicator other back =>
          simp only [spellExpression, List.append_assoc] at alike
          exact absurd alike.symm
            (name_append_ne_display (clear.isSeriesName other legibleOther.1) legible)
      | literal other =>
          obtain ⟨same, sameRest⟩ :=
            display_append_injective legible legibleOther ends endsOther alike
          rw [same]
          exact ⟨rfl, sameRest⟩

theorem exists_start_expression {expression : Expression} (legible : expression.Legible) :
    ∃ first rest, wording.spellExpression expression = first :: rest ∧
      Form.ofFirst first = .comparison := by
  have named {name : String} (isName : IsName name) (rest : List Char) :
      ∃ first others, name.toList ++ rest = first :: others ∧
        Form.ofFirst first = .comparison := by
    obtain ⟨first, others, shape, _, isComparison⟩ := isName.start
    exact ⟨first, others ++ rest, by rw [shape, List.cons_append], isComparison⟩
  cases expression with
  | price column offset => exact named (clear.isColumnName column) _
  | indicator series offset => exact named (clear.isSeriesName series legible.1) _
  | literal constant =>
      obtain ⟨first, rest, shape, constant⟩ := exists_start_display legible
      refine ⟨first, rest, shape, ?_⟩
      have different : first ≠ '(' ∧ first ≠ 'n' ∧ first ≠ 't' ∧ first ≠ 'T' := by
        refine ⟨?_, ?_, ?_, ?_⟩ <;> rintro rfl <;> exact absurd constant (by decide)
      simp [Form.ofFirst, different]

/-! ## Reading predicates -/

/-- The first character of a wording shows the form of the predicate. -/
theorem exists_start {predicate : Predicate} (legible : predicate.Legible) :
    ∃ first rest, wording.spell predicate = first :: rest ∧
      Form.ofFirst first = predicate.form := by
  cases legible with
  | always => exact clear.always
  | compare left right =>
      obtain ⟨first, rest, shape, isComparison⟩ := exists_start_expression clear left
      exact ⟨first, _, by rw [spell, shape, List.cons_append], isComparison⟩
  | all several each => exact ⟨'(', _, rfl, rfl⟩
  | any several each => exact ⟨'(', _, rfl, rfl⟩
  | negation inner => exact ⟨'n', _, rfl, rfl⟩

variable {rest behind : List Char}

theorem form_eq
    {predicate other : Predicate}
    (legible : predicate.Legible)
    (legibleOther : other.Legible)
    (alike : wording.spell predicate ++ rest = wording.spell other ++ behind) :
    predicate.form = other.form := by
  obtain ⟨first, others, shape, isForm⟩ := exists_start clear legible
  obtain ⟨firstOther, othersOther, shapeOther, isFormOther⟩ := exists_start clear legibleOther
  rw [shape, shapeOther] at alike
  rw [← isForm, ← isFormOther, (List.cons.inj alike).1]

end

/-- A predicate can be read back from its wording, whatever follows: behind the parts of a
group there is more text. -/
def Tells (wording : Wording) (predicate : Predicate) : Prop :=
  ∀ other : Predicate, other.Legible -> ∀ rest behind, Ends rest -> Ends behind ->
    wording.spell predicate ++ rest = wording.spell other ++ behind ->
      predicate = other ∧ rest = behind

theorem relation_append_injective
    {relation other : Relation}
    {rest behind : List Char}
    (alike : relation.symbol.toList ++ ' ' :: rest = other.symbol.toList ++ ' ' :: behind) :
    relation = other ∧ rest = behind := by
  have plain (relation : Relation) : ' ' ∉ relation.symbol.toList := by
    cases relation <;> decide
  obtain ⟨same, sameRest⟩ :=
    eq_of_append_of_notMem (plain relation) (plain other) (by simp) (by simp) alike
  refine ⟨?_, (List.cons.inj sameRest).2⟩
  revert same
  cases relation <;> cases other <;> decide

section

variable {wording : Wording} {connective : Connective} {rest behind : List Char}

theorem spell_group (parts : List Predicate) :
    wording.spell (connective.group parts) = '(' :: wording.spellGroup connective parts := by
  cases connective <;> rfl

theorem ends_behind (parts : List Predicate) :
    Ends (wording.spellBehind connective parts ++ rest) := by
  cases parts with
  | nil => exact ends_close rest
  | cons part parts => cases connective <;> exact ends_blank _

/-- A group does not end before a part. -/
theorem close_ne_behind (part : Predicate) (parts : List Predicate) :
    ')' :: rest ≠ wording.spellBehind connective (part :: parts) ++ behind := by
  cases connective <;> exact fun alike => nomatch (List.cons.inj alike).1

/-- Parts that can be read back are so behind a part. -/
theorem spellBehind_injective
    {parts others : List Predicate}
    (tells : ∀ part ∈ parts, wording.Tells part)
    (legible : ∀ part ∈ others, part.Legible)
    (alike : wording.spellBehind connective parts ++ rest =
      wording.spellBehind connective others ++ behind) :
    parts = others ∧ rest = behind := by
  induction parts generalizing others with
  | nil =>
      cases others with
      | nil => exact ⟨rfl, (List.cons.inj alike).2⟩
      | cons other others => exact absurd alike (close_ne_behind other others)
  | cons part parts hypothesis =>
      cases others with
      | nil => exact absurd alike.symm (close_ne_behind part parts)
      | cons other others =>
          obtain ⟨tellsFirst, tellsRest⟩ := List.forall_mem_cons.1 tells
          obtain ⟨legibleFirst, legibleRest⟩ := List.forall_mem_cons.1 legible
          simp only [spellBehind, List.append_assoc, List.append_cancel_left_eq] at alike
          obtain ⟨rfl, behinds⟩ := tellsFirst other legibleFirst _ _
            (ends_behind parts) (ends_behind others) alike
          obtain ⟨rfl, sameRest⟩ := hypothesis tellsRest legibleRest behinds
          exact ⟨rfl, sameRest⟩

/-- What joins the parts of a group stands behind the first of them. -/
theorem spellGroup_injective
    {connectiveOther : Connective}
    {parts others : List Predicate}
    (several : 2 <= parts.length)
    (severalOther : 2 <= others.length)
    (tells : ∀ part ∈ parts, wording.Tells part)
    (legible : ∀ part ∈ others, part.Legible)
    (alike : wording.spellGroup connective parts ++ rest =
      wording.spellGroup connectiveOther others ++ behind) :
    connective = connectiveOther ∧ parts = others ∧ rest = behind := by
  match parts, others, several, severalOther with
  | first :: second :: parts, firstOther :: secondOther :: others, _, _ =>
      obtain ⟨tellsFirst, tellsRest⟩ := List.forall_mem_cons.1 tells
      obtain ⟨legibleFirst, legibleRest⟩ := List.forall_mem_cons.1 legible
      rw [spellGroup, spellGroup, List.append_assoc, List.append_assoc] at alike
      obtain ⟨rfl, behinds⟩ := tellsFirst firstOther legibleFirst _ _
        (ends_behind _) (ends_behind _) alike
      have sameConnective : connective = connectiveOther := by
        cases connective <;> cases connectiveOther
        · rfl
        · simp [spellBehind, Connective.separator] at behinds
        · simp [spellBehind, Connective.separator] at behinds
        · rfl
      subst sameConnective
      obtain ⟨same, sameRest⟩ := spellBehind_injective tellsRest legibleRest behinds
      rw [same]
      exact ⟨rfl, rfl, sameRest⟩

end

section

variable {wording : Wording} (clear : wording.Clear)

include clear

theorem tells_compare
    {first second : Expression}
    (relation : Relation)
    (left : first.Legible)
    (right : second.Legible) :
    wording.Tells (.compare first relation second) := by
  intro other legibleOther rest behind ends endsOther alike
  have sameForm := form_eq clear (.compare left right) legibleOther alike
  cases legibleOther with
  | always | all | any | negation => cases sameForm
  | compare leftOther rightOther =>
      rw [spell, spell, List.append_assoc, List.append_assoc, List.cons_append, List.cons_append,
        List.append_assoc, List.append_assoc] at alike
      obtain ⟨rfl, relations⟩ := spellExpression_injective clear left leftOther
        (ends_blank _) (ends_blank _) alike
      obtain ⟨rfl, rights⟩ := relation_append_injective (List.cons.inj relations).2
      obtain ⟨rfl, sameRest⟩ := spellExpression_injective clear right rightOther ends endsOther
        rights
      exact ⟨rfl, sameRest⟩

/-- What is negated with parentheses around it, such as a comparison, reads otherwise than what
is negated without them, which is a group if it starts with a parenthesis: groups have a second
part. -/
theorem enclosed_ne
    {inner other : Predicate}
    {rest behind : List Char}
    (legible : inner.Legible)
    (legibleOther : other.Legible)
    (isEnclosed : wording.encloses inner = true)
    (notEnclosed : wording.encloses other = false) :
    '(' :: (wording.spell inner ++ ')' :: rest) ≠ wording.spell other ++ behind := by
  intro alike
  have isGroup : other.form = .group := by
    obtain ⟨first, others, shape, isForm⟩ := exists_start clear legibleOther
    rw [shape] at alike
    rw [← isForm, ← (List.cons.inj alike).1]
    rfl
  have isComparison : inner.form = .comparison := by
    rw [encloses, (Bool.or_eq_false_iff.1 notEnclosed).1] at isEnclosed
    exact of_decide_eq_true isEnclosed
  obtain ⟨connective, parts, rfl⟩ := Predicate.exists_group_of_form isGroup
  obtain ⟨several, each⟩ := legibleOther.of_group
  rw [spell_group] at alike
  match parts, several with
  | first :: second :: parts, _ =>
      cases legible with
      | always | all | any | negation => cases isComparison
      | compare left right =>
          rw [spellGroup, List.cons_append, List.append_assoc] at alike
          obtain ⟨_, behinds⟩ := tells_compare clear _ left right first
            (each first List.mem_cons_self) _ _ (ends_close rest) (ends_behind _)
            (List.cons.inj alike).2
          exact close_ne_behind second parts behinds

theorem tells_negation
    {inner : Predicate}
    (legible : inner.Legible)
    (tells : wording.Tells inner) :
    wording.Tells (.negation inner) := by
  intro other legibleOther rest behind ends endsOther alike
  have sameForm := form_eq clear (.negation legible) legibleOther alike
  cases legibleOther with
  | always | compare | all | any => cases sameForm
  | @negation innerOther legibleInner =>
      rw [spell, spell, List.append_assoc, List.append_assoc, List.append_cancel_left_eq] at alike
      cases isEnclosed : wording.encloses inner <;>
        cases isEnclosedOther : wording.encloses innerOther <;>
          simp only [isEnclosed, isEnclosedOther, parenthesised_true, parenthesised_false] at alike
      case false.false =>
        obtain ⟨rfl, sameRest⟩ := tells innerOther legibleInner rest behind ends endsOther alike
        exact ⟨rfl, sameRest⟩
      case false.true =>
        exact absurd alike.symm
          (enclosed_ne clear legibleInner legible isEnclosedOther isEnclosed)
      case true.false =>
        exact absurd alike (enclosed_ne clear legible legibleInner isEnclosed isEnclosedOther)
      case true.true =>
        obtain ⟨rfl, closed⟩ := tells innerOther legibleInner _ _ (ends_close rest)
          (ends_close behind) (List.cons.inj alike).2
        exact ⟨rfl, (List.cons.inj closed).2⟩

theorem tells_group
    {connective : Connective}
    {parts : List Predicate}
    (legible : (connective.group parts).Legible)
    (tells : ∀ part ∈ parts, wording.Tells part) :
    wording.Tells (connective.group parts) := by
  intro other legibleOther rest behind ends endsOther alike
  have isGroup : other.form = .group := by
    rw [← form_eq clear legible legibleOther alike]
    cases connective <;> rfl
  obtain ⟨connectiveOther, others, rfl⟩ := Predicate.exists_group_of_form isGroup
  rw [spell_group, spell_group] at alike
  obtain ⟨rfl, rfl, sameRest⟩ := spellGroup_injective legible.of_group.1 legibleOther.of_group.1
    tells legibleOther.of_group.2 (List.cons.inj alike).2
  exact ⟨rfl, sameRest⟩

/-- Legible predicates can be read back. -/
theorem tells {predicate : Predicate} (legible : predicate.Legible) : wording.Tells predicate := by
  induction legible with
  | always =>
      intro other legibleOther rest behind ends endsOther alike
      have sameForm := form_eq clear .always legibleOther alike
      cases legibleOther with
      | always => exact ⟨rfl, List.append_cancel_left alike⟩
      | compare | all | any | negation => cases sameForm
  | compare left right => exact tells_compare clear _ left right
  | all several each hypothesis =>
      have legible : (Connective.and.group _).Legible := .all several each
      exact tells_group clear legible hypothesis
  | any several each hypothesis =>
      have legible : (Connective.or.group _).Legible := .any several each
      exact tells_group clear legible hypothesis
  | negation legibleInner hypothesis => exact tells_negation clear legibleInner hypothesis

/-- Legible predicates with one wording are equal. -/
theorem Clear.spell_injective
    {predicate other : Predicate}
    (legible : predicate.Legible)
    (legibleOther : other.Legible)
    (alike : wording.spell predicate = wording.spell other) :
    predicate = other := by
  have nothing : Ends [] := fun _ none => nomatch none
  exact (tells clear legible other legibleOther [] [] nothing nothing
    (congrArg (· ++ []) alike)).1

end

end Wording
end StrategyGraph
