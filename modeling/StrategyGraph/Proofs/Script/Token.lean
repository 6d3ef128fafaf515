import Mathlib
import StrategyGraph.Backtest.Code
import StrategyGraph.Configuration
import StrategyGraph.Proofs.Number.Digits

/-!
# Tokens of script lines

A line of a script is a sequence of words, numerals, texts and signs, up to a
remark. Words and numerals extend as far as they can, and so do signs: `<=` is
one sign and `//` is one. Blanks only separate. Escapes in texts and characters
that no script uses are not read.
-/

namespace StrategyGraph
namespace Python

/-- A token of a line. -/
inductive Token where
  | word (content : String)
  | numeral (content : String)
  | text (content : String)
  | point
  | comma
  | colon
  | assign
  | openRound
  | closeRound
  | openSquare
  | closeSquare
  | operation (operation : Backtest.Arithmetic)
  | relation (relation : Relation)
  deriving DecidableEq, Repr

/-- Whether a character continues a word. -/
def continuesWord (character : Char) : Bool :=
  startsIdentifier character || isDigit character

/-- The rest of a numeral, its point and the digits behind it included. -/
def scanNumeral (text : List Char) : List Char × List Char :=
  let (whole, rest) := Decimal.splitDigits text
  match rest with
  | '.' :: behind =>
      let (fraction, remaining) := Decimal.splitDigits behind
      if fraction.isEmpty then (whole, rest) else (whole ++ '.' :: fraction, remaining)
  | _ => (whole, rest)

/-- The content of a text up to its closing quote. -/
def scanText : List Char -> Option (List Char × List Char)
  | [] => none
  | character :: rest =>
      if character = '\"' then some ([], rest)
      else if character = '\\' || character = '\n' then none
      else (scanText rest).map fun (content, remaining) => (character :: content, remaining)

/-- The longest sign at the start of a line. -/
def scanSign : List Char -> Option (Token × List Char)
  | '.' :: rest => some (.point, rest)
  | ',' :: rest => some (.comma, rest)
  | ':' :: rest => some (.colon, rest)
  | '(' :: rest => some (.openRound, rest)
  | ')' :: rest => some (.closeRound, rest)
  | '[' :: rest => some (.openSquare, rest)
  | ']' :: rest => some (.closeSquare, rest)
  | '+' :: rest => some (.operation .add, rest)
  | '-' :: rest => some (.operation .sub, rest)
  | '*' :: rest => if rest.head? = some '*' then none else some (.operation .mul, rest)
  | '/' :: '/' :: rest => some (.operation .floorDiv, rest)
  | '/' :: rest => some (.operation .div, rest)
  | '<' :: '=' :: rest => some (.relation .atMost, rest)
  | '<' :: rest => some (.relation .less, rest)
  | '>' :: '=' :: rest => some (.relation .atLeast, rest)
  | '>' :: rest => some (.relation .greater, rest)
  | '=' :: '=' :: rest => some (.relation .equal, rest)
  | '=' :: rest => some (.assign, rest)
  | _ => none

/-- The token at the start of a line and what follows it. -/
def scan : List Char -> Option (Token × List Char)
  | [] => none
  | first :: rest =>
      if startsIdentifier first then
        some (.word (String.ofList (first :: rest.takeWhile continuesWord)),
          rest.dropWhile continuesWord)
      else if isDigit first then
        let (numeral, remaining) := scanNumeral (first :: rest)
        some (.numeral (String.ofList numeral), remaining)
      else if first = '\"' then
        (scanText rest).map fun (content, remaining) =>
          (.text (String.ofList content), remaining)
      else scanSign (first :: rest)

/-- Characters that may stand in a remark: all but those that end a line or a
script. -/
def allowedInRemark (character : Char) : Bool :=
  character != '\n' && character != '\r' && character != '\x00'

/-- Tokens of a line, up to its remark. Every token takes a character at least. -/
def lex (text : List Char) : Option (List Token) :=
  match text with
  | [] => some []
  | first :: rest =>
      if first = ' ' then lex rest
      else if first = '#' then if rest.all allowedInRemark then some [] else none
      else
        match scan (first :: rest) with
        | none => none
        | some (token, remaining) =>
            if remaining.length <= rest.length then (lex remaining).map (token :: ·)
            else none
termination_by text.length

/-! ## Reading single tokens -/

/-- A text that continues neither a word nor a numeral. -/
def Apart : List Char -> Prop
  | [] => True
  | first :: rest =>
      continuesWord first = false ∧
        (first = '.' -> ∀ digit ∈ rest.head?, isDigit digit = false)

/-- Characters of a word. -/
def IsWord (content : List Char) : Prop :=
  ∃ first rest, content = first :: rest ∧ startsIdentifier first = true ∧
    ∀ character ∈ rest, continuesWord character = true

/-- Characters of a numeral: digits, and a point between digits or none. -/
def IsNumeral (content : List Char) : Prop :=
  (content ≠ [] ∧ ∀ character ∈ content, isDigit character = true) ∨
    ∃ whole fraction, content = whole ++ '.' :: fraction ∧ whole ≠ [] ∧ fraction ≠ [] ∧
      (∀ character ∈ whole, isDigit character = true) ∧
      ∀ character ∈ fraction, isDigit character = true

/-- Characters of a text without escapes. -/
def IsPlain (content : List Char) : Prop :=
  ∀ character ∈ content, character ≠ '\"' ∧ character ≠ '\\' ∧ character ≠ '\n'

section

variable {content rest : List Char}

theorem Apart.stopsWord (apart : Apart rest) :
    ∀ character ∈ rest.head?, continuesWord character = false := by
  cases rest with
  | nil => simp
  | cons first rest =>
      intro character member
      cases member
      exact apart.1

theorem Apart.stopsDigits (apart : Apart rest) :
    ∀ character ∈ rest.head?, isDigit character = false := by
  intro character member
  have stopped := apart.stopsWord character member
  exact (Bool.or_eq_false_iff.1 stopped).2

/-- A word is scanned up to its end. -/
theorem scan_word (isWord : IsWord content) (apart : Apart rest) :
    scan (content ++ rest) = some (.word (String.ofList content), rest) := by
  obtain ⟨first, others, rfl, starts, continues⟩ := isWord
  obtain ⟨taken, dropped⟩ := takeWhile_append_of_stop continues apart.stopsWord
  rw [List.cons_append, scan, if_pos starts, taken, dropped]

/-- A digit starts no word. -/
theorem startsIdentifier_of_isDigit
    {character : Char}
    (digit : isDigit character = true) :
    startsIdentifier character = false := by
  simp only [isDigit, Bool.and_eq_true, decide_eq_true_eq, Char.le_def,
    UInt32.le_iff_toNat_le] at digit
  have upper : character.val.toNat <= 57 := digit.2
  have notLower : ¬ 'a' <= character := by
    rw [Char.le_def, UInt32.le_iff_toNat_le]
    intro above
    have bound : 97 <= character.val.toNat := above
    omega
  have notUpper : ¬ 'A' <= character := by
    rw [Char.le_def, UInt32.le_iff_toNat_le]
    intro above
    have bound : 65 <= character.val.toNat := above
    omega
  have notUnderscore : character ≠ '_' := by
    rintro rfl
    exact absurd upper (by decide)
  simp [startsIdentifier, notLower, notUpper, notUnderscore]

/-- A numeral is scanned up to its end. -/
theorem scanNumeral_append (isNumeral : IsNumeral content) (apart : Apart rest) :
    scanNumeral (content ++ rest) = (content, rest) := by
  rcases isNumeral with ⟨_, digits⟩ | ⟨whole, fraction, rfl, _, nonempty, digits, behind⟩
  · rw [scanNumeral, Decimal.splitDigits_append digits apart.stopsDigits]
    dsimp only
    split
    next behind =>
      have none : (Decimal.splitDigits behind).1 = [] := by
        rw [Decimal.splitDigits, List.span_eq_takeWhile_dropWhile]
        cases behind with
        | nil => rfl
        | cons next behind =>
            have notDigit := apart.2 rfl next rfl
            simp [notDigit]
      simp [none]
    next => rfl
  · have point : ∀ character ∈ ('.' :: (fraction ++ rest)).head?,
        isDigit character = false := by
      intro character member
      cases member
      decide
    rw [List.append_assoc, List.cons_append, scanNumeral, Decimal.splitDigits_append digits point]
    simp [Decimal.splitDigits_append behind apart.stopsDigits, nonempty]

/-- A numeral starts with a digit. -/
theorem IsNumeral.exists_digit (isNumeral : IsNumeral content) :
    ∃ first others, content = first :: others ∧ isDigit first = true := by
  rcases isNumeral with ⟨nonempty, digits⟩ | ⟨whole, fraction, rfl, nonempty, _, digits, _⟩
  · obtain ⟨first, others, rfl⟩ := List.exists_cons_of_ne_nil nonempty
    exact ⟨first, others, rfl, digits first List.mem_cons_self⟩
  · obtain ⟨first, others, rfl⟩ := List.exists_cons_of_ne_nil nonempty
    exact ⟨first, others ++ '.' :: fraction, rfl, digits first List.mem_cons_self⟩

theorem scan_numeral (isNumeral : IsNumeral content) (apart : Apart rest) :
    scan (content ++ rest) = some (.numeral (String.ofList content), rest) := by
  have scanned := scanNumeral_append isNumeral apart
  obtain ⟨first, others, rfl, digit⟩ := isNumeral.exists_digit
  have notLetter := startsIdentifier_of_isDigit digit
  rw [List.cons_append] at scanned ⊢
  rw [scan, if_neg (by simp [notLetter]), if_pos digit, scanned]

/-- A text is scanned up to its closing quote. -/
theorem scan_text (plain : IsPlain content) :
    scan ('\"' :: (content ++ '\"' :: rest)) = some (.text (String.ofList content), rest) := by
  have scanned : scanText (content ++ '\"' :: rest) = some (content, rest) := by
    induction content with
    | nil => rfl
    | cons first content hypothesis =>
        obtain ⟨notQuote, notEscape, notBreak⟩ := plain first List.mem_cons_self
        have remaining := hypothesis fun character member =>
          plain character (List.mem_cons_of_mem first member)
        rw [List.cons_append, scanText, if_neg notQuote, if_neg (by simp [notEscape, notBreak]),
          remaining]
        rfl
  rw [scan, if_neg (by decide), if_neg (by decide), if_pos rfl, scanned]
  rfl

end

/-! ## Line breaks -/

theorem mem_dropWhile
    {keeps : Char -> Bool}
    {text : List Char}
    {character : Char}
    (stops : keeps character = false)
    (member : character ∈ text) :
    character ∈ text.dropWhile keeps := by
  rw [← List.takeWhile_append_dropWhile (p := keeps) (l := text)] at member
  rcases List.mem_append.1 member with taken | dropped
  · rw [List.mem_takeWhile_imp taken] at stops
    cases stops
  · exact dropped

theorem newline_of_scanText
    {text content rest : List Char}
    (scanned : scanText text = some (content, rest))
    (member : '\n' ∈ text) :
    '\n' ∈ rest := by
  induction text generalizing content with
  | nil => cases member
  | cons character text hypothesis =>
      rw [scanText] at scanned
      split at scanned
      next quote =>
        cases scanned
        rcases List.mem_cons.1 member with rfl | behind
        · exact absurd quote (by decide)
        · exact behind
      next =>
        split at scanned
        next => cases scanned
        next notBreak =>
          obtain ⟨⟨inner, remaining⟩, scannedRest, equal⟩ := Option.map_eq_some_iff.1 scanned
          cases equal
          refine hypothesis scannedRest ?_
          rcases List.mem_cons.1 member with rfl | behind
          · simp at notBreak
          · exact behind

theorem newline_of_scanNumeral {text : List Char} (member : '\n' ∈ text) :
    '\n' ∈ (scanNumeral text).2 := by
  have digits : ∀ {text : List Char}, '\n' ∈ text ->
      '\n' ∈ (Decimal.splitDigits text).2 := by
    intro text member
    rw [Decimal.splitDigits, List.span_eq_takeWhile_dropWhile]
    exact mem_dropWhile (by decide) member
  have behindWhole := digits member
  rw [scanNumeral]
  split
  next whole rest split =>
    rw [split] at behindWhole
    dsimp only at behindWhole ⊢
    split
    next behind =>
      split
      next => exact behindWhole
      next =>
        exact digits (by simpa using behindWhole)
    next => exact behindWhole

/-- Scanning a token passes over no line break. -/
theorem newline_of_scan
    {text rest : List Char}
    {token : Token}
    (scanned : scan text = some (token, rest))
    (member : '\n' ∈ text) :
    '\n' ∈ rest := by
  cases text with
  | nil => cases member
  | cons first text =>
      rw [scan] at scanned
      have behind : first ≠ '\n' -> '\n' ∈ text := by
        intro different
        rcases List.mem_cons.1 member with equal | inside
        · exact absurd equal.symm different
        · exact inside
      split at scanned
      next starts =>
        cases scanned
        refine mem_dropWhile (by decide) (behind ?_)
        rintro rfl
        exact absurd starts (by decide)
      next =>
        split at scanned
        next =>
          cases scanned
          exact newline_of_scanNumeral member
        next =>
          split at scanned
          next quote =>
            obtain ⟨⟨content, remaining⟩, scannedText, equal⟩ :=
              Option.map_eq_some_iff.1 scanned
            cases equal
            refine newline_of_scanText scannedText (behind ?_)
            rintro rfl
            exact absurd quote (by decide)
          next =>
            unfold scanSign at scanned
            split at scanned
            all_goals simp_all

/-- A line that can be read has no line break. -/
theorem newline_not_mem_of_lex
    {text : List Char}
    {tokens : List Token}
    (lexed : lex text = some tokens) :
    '\n' ∉ text := by
  fun_induction lex text generalizing tokens with
  | case1 => exact List.not_mem_nil
  | case2 rest hypothesis =>
      intro member
      rcases List.mem_cons.1 member with equal | inside
      · exact absurd equal (by decide)
      · exact hypothesis lexed inside
  | case3 rest allowed notBlank =>
      intro member
      rcases List.mem_cons.1 member with equal | inside
      · exact absurd equal (by decide)
      · have allowedHere := List.all_eq_true.1 allowed '\n' inside
        exact absurd allowedHere (by decide)
  | case4 => cases lexed
  | case5 => cases lexed
  | case6 first rest notBlank notRemark token remaining scanned shorter hypothesis =>
      obtain ⟨others, lexedRest, _⟩ := Option.map_eq_some_iff.1 lexed
      exact fun member => hypothesis lexedRest (newline_of_scan scanned member)
  | case7 => cases lexed

/-- Blanks between tokens are passed over. -/
theorem lex_blank (rest : List Char) : lex (' ' :: rest) = lex rest := by
  rw [lex, if_pos rfl]

/-- A line starts with the token that is scanned there. -/
theorem lex_of_scan
    {text rest : List Char}
    {token : Token}
    (scanned : scan text = some (token, rest))
    (shorter : rest.length < text.length)
    (visible : ∀ first ∈ text.head?, first ≠ ' ' ∧ first ≠ '#') :
    lex text = (lex rest).map (token :: ·) := by
  cases text with
  | nil => cases scanned
  | cons first text =>
      obtain ⟨notBlank, notRemark⟩ := visible first rfl
      rw [lex, if_neg notBlank, if_neg notRemark, scanned]
      exact if_pos (Nat.le_of_lt_succ shorter)

end Python
end StrategyGraph
