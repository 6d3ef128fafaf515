import Mathlib.Tactic.SplitIfs
import StrategyGraph.Data.Json.Token
import StrategyGraph.Data.Json.Writer

/-!
# Reading quoted texts back

Every character of a text is read back from its written form: from its short escape, from
its code unit or as itself. The reader stops at the quote that ends the text.
-/

namespace StrategyGraph
namespace Json

/-- The code unit of a control character is read back. -/
theorem readCodePoint_of_control
    {character : Char}
    (control : character.toNat < 0x20)
    (rest : List Char) :
    readCodePoint
      ('0' :: '0' :: hexDigit (character.toNat / 16) :: hexDigit (character.toNat % 16) :: rest) =
        some (some character, rest) := by
  have hexadecimal : ∀ digit < 16, hexValue? (hexDigit digit) = some digit := by decide
  have zero : hexValue? '0' = some 0 := by decide
  have upper := hexadecimal (character.toNat / 16) (by omega)
  have lower := hexadecimal (character.toNat % 16) (by omega)
  have value : 16 * (character.toNat / 16) + character.toNat % 16 = character.toNat :=
    Nat.div_add_mod _ _
  have unit : readUnit ('0' :: '0' :: hexDigit (character.toNat / 16) ::
      hexDigit (character.toNat % 16) :: rest) = some (character.toNat, rest) := by
    simp [readUnit, zero, upper, lower, Nat.mul_comm _ 16, value]
  have plain : character.toNat < 0xD800 := by omega
  simp [readCodePoint, unit, plain, Char.ofNat_toNat]

/-- A written character is read back. -/
theorem readText_escapeCharacter
    (character : Char)
    (steps : Nat)
    (rest : List Char) :
    readText (steps + 1) (escapeCharacter character ++ rest) =
      (readText steps rest).map fun read => (some character :: read.1, read.2) := by
  have escape : ∀ written : List Char,
      readEscape (written ++ rest) = some (some character, rest) ->
        readText (steps + 1) ('\\' :: (written ++ rest)) =
          (readText steps rest).map fun read => (some character :: read.1, read.2) := by
    intro written escaped
    cases read : readText steps rest <;> simp [readText, escaped, read]
  unfold escapeCharacter
  split
  next equal => exact escape ['\"'] (by rw [equal]; rfl)
  next notQuote =>
  split
  next equal => exact escape ['\\'] (by rw [equal]; rfl)
  next notBackslash =>
  split
  next equal => exact escape ['b'] (by rw [equal]; rfl)
  split
  next equal => exact escape ['f'] (by rw [equal]; rfl)
  split
  next equal => exact escape ['n'] (by rw [equal]; rfl)
  split
  next equal => exact escape ['r'] (by rw [equal]; rfl)
  split
  next equal => exact escape ['t'] (by rw [equal]; rfl)
  split
  next control =>
    exact escape ['u', '0', '0', hexDigit (character.toNat / 16), hexDigit (character.toNat % 16)]
      (readCodePoint_of_control control rest)
  next plain =>
    cases read : readText steps rest <;>
      simp [readText, notQuote, notBackslash, plain, read]

/-- The characters of a text are read up to its closing quote. -/
theorem readText_characters
    {steps : Nat}
    {characters : List Char}
    (enough : characters.length < steps)
    (rest : List Char) :
    readText steps (characters.flatMap escapeCharacter ++ '\"' :: rest) =
      some (characters.map some, rest) := by
  induction characters generalizing steps with
  | nil =>
      obtain ⟨steps, rfl⟩ := Nat.exists_eq_add_of_le' enough
      simp [readText]
  | cons character characters hypothesis =>
      obtain ⟨steps, rfl⟩ := Nat.exists_eq_add_of_le' (Nat.zero_lt_of_lt enough)
      rw [List.flatMap_cons, List.append_assoc, readText_escapeCharacter,
        hypothesis (Nat.lt_of_succ_lt_succ enough)]
      rfl

theorem textOf?_characters (text : String) : textOf? (text.toList.map some) = some text := by
  have collected : ∀ characters : List Char,
      (characters.map some).mapM id = some characters := by
    intro characters
    induction characters with
    | nil => rfl
    | cons character characters hypothesis => simp [hypothesis]
  rw [textOf?, collected, Option.map_some, String.ofList_toList]

theorem length_escapeCharacter_pos (character : Char) :
    0 < (escapeCharacter character).length := by
  unfold escapeCharacter
  split_ifs <;> exact Nat.succ_pos _

/-- Every character takes up room in the written form. -/
theorem length_toList_quote (text : String) :
    text.toList.length + 2 <= (quote text).toList.length := by
  have characters : ∀ characters : List Char,
      characters.length <= (characters.flatMap escapeCharacter).length := by
    intro characters
    induction characters with
    | nil => exact Nat.le_refl 0
    | cons character characters hypothesis =>
        have positive := length_escapeCharacter_pos character
        rw [List.flatMap_cons, List.length_append, List.length_cons]
        omega
  have inside := characters text.toList
  rw [quote, String.toList_ofList, List.length_cons, List.length_append, List.length_singleton]
  omega

/-- A quoted text is read back behind its opening quote. -/
theorem readText_quote
    {steps : Nat}
    {text : String}
    (enough : text.toList.length < steps)
    (rest : List Char) :
    ∃ content, (quote text).toList ++ rest = '\"' :: content ∧
      readText steps content = some (text.toList.map some, rest) := by
  refine ⟨text.toList.flatMap escapeCharacter ++ '\"' :: rest, ?_,
    readText_characters enough rest⟩
  rw [quote, String.toList_ofList]
  simp

end Json
end StrategyGraph
