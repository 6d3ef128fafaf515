import StrategyGraph.Proofs.Script.Levels

/-!
# Consumption of lines

Tokens are grouped as they come, so a line can be read from its start with the items
read so far at hand. Every token at the start of a text adds an item to them, or opens
or closes a bracket, and the rest of the text is read from there on.
-/

namespace StrategyGraph
namespace Python

/-- Read a text behind what has been grouped so far. -/
def consume (grouping : Grouping) (text : List Char) : Option Grouping :=
  (lex text).bind fun tokens => tokens.foldlM Grouping.step grouping

namespace Grouping

/-- Put items behind those read so far. -/
def append (grouping : Grouping) (items : List Item) : Grouping :=
  ⟨grouping.outer, grouping.items ++ items⟩

@[simp] theorem append_append (grouping : Grouping) (items others : List Item) :
    (grouping.append items).append others = grouping.append (items ++ others) := by
  simp [append]

@[simp] theorem append_push (grouping : Grouping) (items : List Item) (item : Item) :
    (grouping.append items).push item = grouping.append (items ++ [item]) := by
  simp [append, push]

@[simp] theorem push_append (grouping : Grouping) (items : List Item) (item : Item) :
    (grouping.push item).append items = grouping.append (item :: items) := by
  simp [append, push]

/-- Whether a term may begin: the last item neither ends an operand nor announces the
name of a class. -/
def Ready (grouping : Grouping) : Prop :=
  ∀ item ∈ grouping.items.getLast?, item.endsOperand = false ∧ item.isWord "class" = false

theorem ready_start : start.Ready := by
  intro item member
  cases member

theorem ready_enter (grouping : Grouping) (bracket : Bracket) :
    (grouping.enter bracket).Ready := by
  intro item member
  cases member

theorem ready_push
    {item : Item}
    (notOperand : item.endsOperand = false)
    (notClass : item.isWord "class" = false)
    (grouping : Grouping) :
    (grouping.push item).Ready := by
  intro last member
  rw [push, List.getLast?_append, List.getLast?_singleton, Option.some_or,
    Option.mem_some_iff] at member
  rw [← member]
  exact ⟨notOperand, notClass⟩

theorem Ready.afterOperand {grouping : Grouping} (ready : grouping.Ready) :
    grouping.afterOperand = false := by
  rw [Grouping.afterOperand]
  cases last : grouping.items.getLast? with
  | none => rfl
  | some item => exact (ready item last).1

theorem Ready.namesClass {grouping : Grouping} (ready : grouping.Ready) :
    grouping.namesClass = false := by
  rw [Grouping.namesClass]
  split
  next items =>
    have notClass := (ready (.word "class") (by rw [items]; rfl)).2
    exact absurd notClass (by decide)
  next => rfl

/-- Behind an operand a minus takes two operands. -/
theorem afterOperand_append
    {items : List Item}
    (operand : items.getLast?.any Item.endsOperand = true)
    (grouping : Grouping) :
    (grouping.append items).afterOperand = true := by
  rw [afterOperand, append, List.getLast?_append]
  cases last : items.getLast? with
  | none => simp [last] at operand
  | some item => simpa [last] using operand

end Grouping

/-! ## Tokens at the start of a text -/

section

variable {rest : List Char} (grouping : Grouping)

theorem consume_nil : consume grouping [] = some grouping := by
  simp [consume, lex]

theorem consume_blank (rest : List Char) :
    consume grouping (' ' :: rest) = consume grouping rest := by
  rw [consume, lex_blank]
  rfl

/-- A remark ends a line. -/
theorem consume_remark (allowed : rest.all allowedInRemark = true) :
    consume grouping ('#' :: rest) = some grouping := by
  simp [consume, lex, allowed]

theorem consume_of_scan
    {text : List Char}
    {token : Token}
    (scanned : scan text = some (token, rest))
    (shorter : rest.length < text.length)
    (visible : ∀ first ∈ text.head?, first ≠ ' ' ∧ first ≠ '#') :
    consume grouping text =
      (grouping.step token).bind fun grouping => consume grouping rest := by
  rw [consume, lex_of_scan scanned shorter visible]
  cases lexed : lex rest with
  | none => cases grouping.step token <;> simp [consume, lexed]
  | some tokens => simp [consume, lexed]

/-- Letters are neither blanks nor the start of a remark. -/
theorem visible_of_startsIdentifier
    {first : Char}
    (starts : startsIdentifier first = true) :
    first ≠ ' ' ∧ first ≠ '#' := by
  constructor
  · rintro rfl
    exact absurd starts (by decide)
  · rintro rfl
    exact absurd starts (by decide)

theorem visible_of_isDigit
    {first : Char}
    (digit : isDigit first = true) :
    first ≠ ' ' ∧ first ≠ '#' := by
  constructor
  · rintro rfl
    exact absurd digit (by decide)
  · rintro rfl
    exact absurd digit (by decide)

theorem consume_word
    {content : List Char}
    (isWord : IsWord content)
    (notLambda : String.ofList content ≠ "lambda")
    (apart : Apart rest) :
    consume grouping (content ++ rest) =
      consume (grouping.push (.word (String.ofList content))) rest := by
  have scanned := scan_word isWord apart
  obtain ⟨first, others, rfl, starts, _⟩ := isWord
  rw [consume_of_scan grouping scanned (by simp) (by
    intro other member
    cases member
    exact visible_of_startsIdentifier starts)]
  rw [Grouping.step, if_neg (by simp only [notLambda, decide_false, Bool.false_and]; decide)]
  rfl

theorem consume_numeral
    {content : List Char}
    (isNumeral : IsNumeral content)
    (apart : Apart rest) :
    consume grouping (content ++ rest) =
      consume (grouping.push (.numeral (String.ofList content))) rest := by
  have scanned := scan_numeral isNumeral apart
  obtain ⟨first, others, rfl, digit⟩ := isNumeral.exists_digit
  rw [consume_of_scan grouping scanned (by simp) (by
    intro other member
    cases member
    exact visible_of_isDigit digit)]
  rfl

theorem consume_text
    {content : List Char}
    (plain : IsPlain content) :
    consume grouping ('\"' :: (content ++ '\"' :: rest)) =
      consume (grouping.push (.text (String.ofList content))) rest := by
  rw [consume_of_scan grouping (scan_text plain) (by simp; omega) (by
    intro other member
    cases member
    decide)]
  rfl

/-- Whether a character starts a sign. -/
def startsSign (character : Char) : Bool :=
  !startsIdentifier character && !isDigit character && character != '\"' &&
    character != ' ' && character != '#'

theorem consume_sign
    (first : Char)
    {text : List Char}
    (token : Token)
    (starts : startsSign first = true)
    (scanned : scanSign (first :: text) = some (token, rest))
    (shorter : rest.length <= text.length) :
    consume grouping (first :: text) =
      (grouping.step token).bind fun grouping => consume grouping rest := by
  simp only [startsSign, Bool.and_eq_true, Bool.not_eq_true', bne_iff_ne] at starts
  obtain ⟨⟨⟨⟨notLetter, notDigit⟩, notQuote⟩, notBlank⟩, notRemark⟩ := starts
  refine consume_of_scan grouping ?_ (Nat.lt_succ_of_le shorter) ?_
  · simp [scan, notLetter, notDigit, notQuote, scanned]
  · intro other member
    cases member
    exact ⟨notBlank, notRemark⟩

variable (rest)

theorem consume_point :
    consume grouping ('.' :: rest) = consume (grouping.push .point) rest :=
  consume_sign grouping '.' .point (by decide) rfl (Nat.le_refl _)

theorem consume_comma :
    consume grouping (',' :: rest) = consume (grouping.push .comma) rest :=
  consume_sign grouping ',' .comma (by decide) rfl (Nat.le_refl _)

theorem consume_openRound :
    consume grouping ('(' :: rest) = consume (grouping.enter .round) rest :=
  consume_sign grouping '(' .openRound (by decide) rfl (Nat.le_refl _)

theorem consume_openSquare :
    consume grouping ('[' :: rest) = consume (grouping.enter .square) rest :=
  consume_sign grouping '[' .openSquare (by decide) rfl (Nat.le_refl _)

/-- Round brackets are closed with the arguments between them. -/
theorem consume_closeRound
    {before items : List Item}
    {outer : List (Bracket × List Item)}
    {terms : List Term}
    (reads : arguments items = some terms) :
    consume ⟨(.round, before) :: outer, items⟩ (')' :: rest) =
      consume ⟨outer, before ++ [.enclosed terms]⟩ rest := by
  rw [consume_sign _ ')' .closeRound (by decide) rfl (Nat.le_refl _)]
  simp [Grouping.step, Grouping.close, reads]

/-- Square brackets are closed with the position between them. -/
theorem consume_closeSquare
    {before items : List Item}
    {outer : List (Bracket × List Item)}
    {term : Term}
    (reads : expression items = some term) :
    consume ⟨(.square, before) :: outer, items⟩ (']' :: rest) =
      consume ⟨outer, before ++ [.index term]⟩ rest := by
  rw [consume_sign _ ']' .closeSquare (by decide) rfl (Nat.le_refl _)]
  simp [Grouping.step, Grouping.close, reads]

/-- A colon ends the parameters of a function. -/
theorem consume_headerColon
    {before items : List Item}
    {outer : List (Bracket × List Item)}
    {names : List String}
    (reads : parameterNames items = some names) :
    consume ⟨(.lambda, before) :: outer, items⟩ (':' :: rest) =
      consume ⟨outer, before ++ [.header names]⟩ rest := by
  rw [consume_sign _ ':' .colon (by decide) rfl (Nat.le_refl _)]
  simp [Grouping.step, Grouping.inParameters, Grouping.close, reads]

/-- A colon outside of all brackets ends a header. -/
theorem consume_colon (items : List Item) :
    consume ⟨[], items⟩ (':' :: rest) = consume ⟨[], items ++ [.colon]⟩ rest :=
  consume_sign _ ':' .colon (by decide) rfl (Nat.le_refl _)

theorem consume_assign (separate : rest.head? ≠ some '=') :
    consume grouping ('=' :: rest) = consume (grouping.push .assign) rest := by
  have scanned : scanSign ('=' :: rest) = some (.assign, rest) := by
    unfold scanSign
    split
    all_goals simp_all
  exact consume_sign grouping '=' .assign (by decide) scanned (Nat.le_refl _)

/-- A minus without an operand before it. -/
theorem consume_negative (ready : grouping.Ready) :
    consume grouping ('-' :: rest) = consume (grouping.push .negative) rest := by
  rw [consume_sign grouping '-' (.operation .sub) (by decide) rfl (Nat.le_refl _)]
  simp [Grouping.step, ready.afterOperand]

/-- A sign of an operation between blanks, behind an operand. -/
theorem consume_operation
    (operation : Backtest.Arithmetic)
    (operand : grouping.afterOperand = true) :
    consume grouping (' ' :: (operation.sign.toList ++ ' ' :: rest)) =
      consume (grouping.push (.operation operation)) rest := by
  rw [consume_blank, ← consume_blank (grouping.push (.operation operation)) rest]
  cases operation with
  | add => exact consume_sign grouping '+' (.operation .add) (by decide) rfl (Nat.le_refl _)
  | sub =>
      refine (consume_sign grouping '-' (.operation .sub) (by decide) rfl (Nat.le_refl _)).trans ?_
      simp [Grouping.step, operand]
  | mul => exact consume_sign grouping '*' (.operation .mul) (by decide) rfl (Nat.le_refl _)
  | div => exact consume_sign grouping '/' (.operation .div) (by decide) rfl (Nat.le_refl _)
  | floorDiv =>
      exact consume_sign grouping '/' (.operation .floorDiv) (by decide) rfl (Nat.le_succ _)

/-- A sign of a relation between blanks. -/
theorem consume_relation (relation : Relation) :
    consume grouping (' ' :: (relation.symbol.toList ++ ' ' :: rest)) =
      consume (grouping.push (.relation relation)) rest := by
  rw [consume_blank, ← consume_blank (grouping.push (.relation relation)) rest]
  cases relation with
  | greater => exact consume_sign grouping '>' (.relation .greater) (by decide) rfl (Nat.le_refl _)
  | less => exact consume_sign grouping '<' (.relation .less) (by decide) rfl (Nat.le_refl _)
  | equal => exact consume_sign grouping '=' (.relation .equal) (by decide) rfl (Nat.le_succ _)
  | atLeast => exact consume_sign grouping '>' (.relation .atLeast) (by decide) rfl (Nat.le_succ _)
  | atMost => exact consume_sign grouping '<' (.relation .atMost) (by decide) rfl (Nat.le_succ _)

end

end Python
end StrategyGraph
