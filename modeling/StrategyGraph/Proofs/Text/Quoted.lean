import Mathlib.Data.List.Basic
import Mathlib.Tactic.Common
import StrategyGraph.Text.Quoted

/-!
# Reading quoted texts back

Quoted texts tell texts apart. The form of every character shows where it ends: an escape
is known by the letter behind its backslash, and a code point ends with its brace.
-/

namespace StrategyGraph
namespace Quoted

/-! ## Digits -/

/-- What holds of every hexadecimal digit holds of those of a number. -/
theorem forall_mem_toDigits
    {holds : Char -> Prop}
    (single : ∀ digit < 16, holds (Nat.digitChar digit))
    (number : Nat) :
    ∀ character ∈ Nat.toDigits 16 number, holds character := by
  induction number using Nat.strongRecOn with
  | ind number hypothesis =>
      rw [Nat.toDigits_eq_if (by decide)]
      split
      next small => exact List.forall_mem_singleton.2 (single number small)
      next large =>
        rw [List.forall_mem_append, List.forall_mem_singleton]
        exact ⟨hypothesis (number / 16) (by omega),
          single (number % 16) (Nat.mod_lt number (by decide))⟩

/-- Numbers of the same hexadecimal digits are the same. -/
theorem eq_of_toDigits_eq
    {first second : Nat}
    (equal : Nat.toDigits 16 first = Nat.toDigits 16 second) :
    first = second := by
  have digits : ∀ one < 16, ∀ other < 16,
      Nat.digitChar one = Nat.digitChar other -> one = other := by decide
  have nonempty : ∀ number, Nat.toDigits 16 number ≠ [] := fun number =>
    List.ne_nil_of_length_pos Nat.length_toDigits_pos
  have unfolded := fun number => @Nat.toDigits_eq_if 16 number (by decide)
  induction first using Nat.strongRecOn generalizing second with
  | ind first hypothesis =>
      rw [unfolded first, unfolded second] at equal
      split at equal
      next small =>
        split at equal
        next smallOther => exact digits first small second smallOther (List.singleton_inj.1 equal)
        next => exact absurd (List.append_eq_singleton_iff.1 equal.symm) (by simp [nonempty])
      next large =>
        split at equal
        next => exact absurd (List.append_eq_singleton_iff.1 equal) (by simp [nonempty])
        next largeOther =>
          obtain ⟨before, last⟩ := List.append_inj' equal rfl
          have quotients := hypothesis (first / 16) (by omega) before
          have remainders := digits (first % 16) (Nat.mod_lt first (by decide))
            (second % 16) (Nat.mod_lt second (by decide)) (List.singleton_inj.1 last)
          omega

/-! ## Characters -/

/-- Characters with a short escape, each with the letter of the escape. -/
def escapes : List (Char × Char) :=
  [('\x00', '0'), ('\t', 't'), ('\n', 'n'), ('\r', 'r'), ('\"', '\"'), ('\\', '\\')]

/-- A character is written with a short escape, as itself or by its code point. -/
theorem encodeCharacter_cases (character : Char) :
    (∃ letter, (character, letter) ∈ escapes ∧ encodeCharacter character = ['\\', letter]) ∨
      (character ≠ '\\' ∧ encodeCharacter character = [character]) ∨
        encodeCharacter character =
          '\\' :: 'u' :: '\x7b' :: (Nat.toDigits 16 character.toNat ++ ['\x7d']) := by
  unfold encodeCharacter
  split
  next equal => exact Or.inl ⟨'0', by rw [equal]; decide, rfl⟩
  split
  next equal => exact Or.inl ⟨'t', by rw [equal]; decide, rfl⟩
  split
  next equal => exact Or.inl ⟨'n', by rw [equal]; decide, rfl⟩
  split
  next equal => exact Or.inl ⟨'r', by rw [equal]; decide, rfl⟩
  split
  next equal => exact Or.inl ⟨'\"', by rw [equal]; decide, rfl⟩
  split
  next equal => exact Or.inl ⟨'\\', by rw [equal]; decide, rfl⟩
  next notBackslash =>
    split
    next => exact Or.inr (Or.inl ⟨notBackslash, rfl⟩)
    next => exact Or.inr (Or.inr rfl)

theorem encodeCharacter_ne_nil (character : Char) : encodeCharacter character ≠ [] := by
  rcases encodeCharacter_cases character with ⟨letter, _, written⟩ | ⟨_, written⟩ | written <;>
    simp [written]

/-- The form of a character shows where it ends. -/
theorem encodeCharacter_append_inj
    {first second : Char}
    {others rest : List Char}
    (equal : encodeCharacter first ++ others = encodeCharacter second ++ rest) :
    first = second ∧ others = rest := by
  have byLetter : ∀ one ∈ escapes, ∀ other ∈ escapes, one.2 = other.2 -> one.1 = other.1 := by
    decide
  have notCodePoint : ∀ one ∈ escapes, one.2 ≠ 'u' := by decide
  have braceless : ∀ number, ∀ character ∈ Nat.toDigits 16 number, character ≠ '\x7d' :=
    forall_mem_toDigits (by decide)
  rcases encodeCharacter_cases first with ⟨letter, isEscape, written⟩ | ⟨notBackslash, written⟩ |
      written <;>
    rcases encodeCharacter_cases second with ⟨letterOther, isEscapeOther, writtenOther⟩ |
        ⟨notBackslashOther, writtenOther⟩ | writtenOther <;>
      rw [written, writtenOther] at equal <;>
      simp only [List.cons_append, List.nil_append, List.cons.injEq] at equal
  case inl.inl => exact ⟨byLetter _ isEscape _ isEscapeOther equal.2.1, equal.2.2⟩
  case inl.inr.inl => exact absurd equal.1.symm notBackslashOther
  case inl.inr.inr => exact absurd equal.2.1 (notCodePoint _ isEscape)
  case inr.inl.inl => exact absurd equal.1 notBackslash
  case inr.inl.inr.inl => exact equal
  case inr.inl.inr.inr => exact absurd equal.1 notBackslash
  case inr.inr.inl => exact absurd equal.2.1.symm (notCodePoint _ isEscapeOther)
  case inr.inr.inr.inl => exact absurd equal.1.symm notBackslashOther
  case inr.inr.inr.inr =>
    obtain ⟨_, _, _, codes⟩ := equal
    rw [List.append_assoc, List.append_assoc, List.singleton_append, List.singleton_append] at codes
    -- No digit is a brace, so the digits of both end at the first one.
    have cut : ∀ number behind, (Nat.toDigits 16 number ++ '\x7d' :: behind).takeWhile
        (fun character => character ≠ '\x7d') = Nat.toDigits 16 number := by
      intro number behind
      rw [List.takeWhile_append_of_pos fun character member => by
        simpa using braceless number character member]
      simp
    have digits : Nat.toDigits 16 first.toNat = Nat.toDigits 16 second.toNat := by
      rw [← cut first.toNat others, codes, cut]
    rw [digits, List.append_cancel_left_eq, List.cons.injEq] at codes
    exact ⟨Char.toNat_inj.1 (eq_of_toDigits_eq digits), codes.2⟩

/-- Quoted texts tell texts apart. -/
theorem encode_injective {first second : String} (equal : encode first = encode second) :
    first = second := by
  have forms : ∀ one other : List Char,
      one.flatMap encodeCharacter = other.flatMap encodeCharacter -> one = other := by
    intro one
    induction one with
    | nil =>
        intro other none
        cases other with
        | nil => rfl
        | cons character other =>
            exact absurd (List.append_eq_nil_iff.1 none.symm).1 (encodeCharacter_ne_nil character)
    | cons character one hypothesis =>
        intro other same
        cases other with
        | nil => exact absurd (List.append_eq_nil_iff.1 same).1 (encodeCharacter_ne_nil character)
        | cons characterOther other =>
            rw [List.flatMap_cons, List.flatMap_cons] at same
            obtain ⟨rfl, rest⟩ := encodeCharacter_append_inj same
            rw [hypothesis other rest]
  have characters := congrArg String.toList equal
  rw [encode, encode, String.toList_ofList, String.toList_ofList, List.cons.injEq,
    List.append_cancel_right_eq] at characters
  exact String.toList_inj.1 (forms _ _ characters.2)

end Quoted
end StrategyGraph
