import StrategyGraph.Proofs.Script.Reading

/-!
# Rendered code

The text of readable code is read as the items of the code, whatever stands before it
and behind it.
-/

namespace StrategyGraph
namespace Python

open Backtest (Code Arithmetic)
open NumberText (display isSigned unsigned)

/-- Whether a text is read as items, wherever a term may begin and whatever stands
behind it. -/
def ReadsAs (text : String) (items : List Item) : Prop :=
  ∀ (grouping : Grouping) (rest : List Char), grouping.Ready -> Apart rest ->
    consume grouping (text.toList ++ rest) = consume (grouping.append items) rest

theorem apart_blank (rest : List Char) : Apart (' ' :: rest) :=
  ⟨by decide, by simp⟩

/-- Signs are apart from words and numerals. -/
theorem apart_sign
    {first : Char}
    (sign : continuesWord first = false)
    (notPoint : first ≠ '.')
    (rest : List Char) :
    Apart (first :: rest) :=
  ⟨sign, fun point => absurd point notPoint⟩

theorem startsIdentifier_notDigit
    {first : Char}
    (starts : startsIdentifier first = true) :
    isDigit first = false := by
  cases digit : isDigit first with
  | false => rfl
  | true =>
      rw [startsIdentifier_of_isDigit digit] at starts
      cases starts

/-- A point before a word is no part of a numeral. -/
theorem apart_point
    {content : List Char}
    (isWord : IsWord content)
    (rest : List Char) :
    Apart ('.' :: (content ++ rest)) := by
  obtain ⟨first, others, rfl, starts, _⟩ := isWord
  refine ⟨by decide, fun _ digit member => ?_⟩
  rw [List.cons_append, List.head?_cons, Option.mem_some_iff] at member
  rw [← member]
  exact startsIdentifier_notDigit starts

theorem isWord_of_isIdentifier
    {content : String}
    (isIdentifier : StrategyGraph.isIdentifier content = true) :
    IsWord content.toList := by
  rw [StrategyGraph.isIdentifier] at isIdentifier
  cases characters : content.toList with
  | nil => simp [characters] at isIdentifier
  | cons first others =>
      rw [characters, Bool.and_eq_true, List.all_eq_true] at isIdentifier
      exact ⟨first, others, rfl, isIdentifier.1, isIdentifier.2⟩

/-- A word is read as itself. -/
theorem readsAs_word {content : String} (isName : IsName content) :
    ReadsAs content [.word content] := by
  intro grouping rest _ apart
  have notLambda : String.ofList content.toList ≠ "lambda" := by
    rw [String.ofList_toList]
    exact isName.ne_lambda
  rw [consume_word grouping isName.1 notLambda apart, String.ofList_toList]
  rfl

theorem readsAs_numeral
    {content : String}
    (isNumeral : IsNumeral content.toList) :
    ReadsAs content [.numeral content] := by
  intro grouping rest _ apart
  rw [consume_numeral grouping isNumeral apart, String.ofList_toList]
  rfl

/-- A number is read as a numeral behind a minus or none. -/
theorem readsAs_display {value : Float} (finite : value.isFinite = true) :
    ReadsAs (display value) (codeItems (.number value)) := by
  intro grouping rest ready apart
  have isNumeral := isNumeral_unsigned finite
  rw [NumberText.toList_display, codeItems, if_pos finite]
  cases isSigned value with
  | false =>
      simp only [Bool.false_eq_true, if_false, List.nil_append]
      exact readsAs_numeral isNumeral grouping rest ready apart
  | true =>
      have readyBehind : (grouping.push .negative).Ready :=
        Grouping.ready_push rfl rfl grouping
      simp only [if_true, List.cons_append, List.nil_append]
      rw [consume_negative _ grouping ready,
        readsAs_numeral isNumeral _ rest readyBehind apart, Grouping.push_append]

/-- Texts between separators are read one by one. -/
theorem readsAs_intercalate
    {separatorText : String}
    {separator : Item}
    (readsSeparator : ∀ grouping rest,
      consume grouping (separatorText.toList ++ rest) =
        consume (grouping.push separator) rest)
    (apart : ∀ rest, Apart (separatorText.toList ++ rest))
    (notOperand : separator.endsOperand = false)
    (notClass : separator.isWord "class" = false)
    {texts : List String}
    {lists : List (List Item)}
    (each : List.Forall₂ ReadsAs texts lists) :
    ReadsAs (String.intercalate separatorText texts) (List.intercalate [separator] lists) := by
  intro grouping rest ready apartRest
  rw [String.toList_intercalate]
  induction each generalizing grouping with
  | nil => simp [Grouping.append]
  | @cons text items texts lists first others hypothesis =>
      cases others with
      | nil =>
          simpa using first grouping rest ready apartRest
      | @cons second secondItems texts lists readsSecond others =>
          have readyBehind := Grouping.ready_push notOperand notClass (grouping.append items)
          rw [List.map_cons, List.map_cons, List.intercalate_cons_cons,
            List.intercalate_cons_cons, List.append_assoc, List.append_assoc,
            first grouping _ ready (apart _), readsSeparator, ← List.map_cons,
            hypothesis _ readyBehind]
          simp

/-! ## Texts between terms -/

/-- A word and the blank behind it. -/
theorem consume_wordBlank
    (content : String)
    (isIdentifier : StrategyGraph.isIdentifier content = true)
    (notLambda : content ≠ "lambda")
    (grouping : Grouping)
    (rest : List Char) :
    consume grouping (content.toList ++ ' ' :: rest) =
      consume (grouping.push (.word content)) rest := by
  have notLambdaList : String.ofList content.toList ≠ "lambda" := by
    rwa [String.ofList_toList]
  rw [consume_word grouping (isWord_of_isIdentifier isIdentifier) notLambdaList
    (apart_blank rest), consume_blank, String.ofList_toList]

theorem consume_and (grouping : Grouping) (rest : List Char) :
    consume grouping (" and ".toList ++ rest) = consume (grouping.push (.word "and")) rest := by
  have reads := consume_wordBlank "and" (by decide) (by decide) grouping rest
  rw [← consume_blank] at reads
  exact reads

theorem consume_or (grouping : Grouping) (rest : List Char) :
    consume grouping (" or ".toList ++ rest) = consume (grouping.push (.word "or")) rest := by
  have reads := consume_wordBlank "or" (by decide) (by decide) grouping rest
  rw [← consume_blank] at reads
  exact reads

theorem consume_not (grouping : Grouping) (rest : List Char) :
    consume grouping ("not ".toList ++ rest) = consume (grouping.push (.word "not")) rest :=
  consume_wordBlank "not" (by decide) (by decide) grouping rest

theorem consume_isNone (grouping : Grouping) {rest : List Char} (apart : Apart rest) :
    consume grouping (" is None".toList ++ rest) =
      consume (grouping.append [.word "is", .word "None"]) rest := by
  have isName : IsWord "None".toList := isWord_of_isIdentifier (by decide)
  have reads := consume_word (grouping.push (.word "is")) isName (by decide) apart
  have before := consume_wordBlank "is" (by decide) (by decide) grouping ("None".toList ++ rest)
  rw [← consume_blank, reads] at before
  simpa [Grouping.push, Grouping.append] using before

theorem consume_isNotNone (grouping : Grouping) {rest : List Char} (apart : Apart rest) :
    consume grouping (" is not None".toList ++ rest) =
      consume (grouping.append [.word "is", .word "not", .word "None"]) rest := by
  have isName : IsWord "None".toList := isWord_of_isIdentifier (by decide)
  have reads := consume_word ((grouping.push (.word "is")).push (.word "not")) isName
    (by decide) apart
  have behind := consume_not (grouping.push (.word "is")) ("None".toList ++ rest)
  have before := consume_wordBlank "is" (by decide) (by decide) grouping
    ("not ".toList ++ ("None".toList ++ rest))
  rw [← consume_blank, behind, reads] at before
  simpa [Grouping.push, Grouping.append] using before

theorem consume_separator (grouping : Grouping) (rest : List Char) :
    consume grouping (", ".toList ++ rest) = consume (grouping.push .comma) rest := by
  have reads := consume_comma (' ' :: rest) grouping
  rw [consume_blank] at reads
  exact reads

/-- Texts between commas are read one by one. -/
theorem readsAs_separated
    {texts : List String}
    {lists : List (List Item)}
    (each : List.Forall₂ ReadsAs texts lists) :
    ReadsAs (String.intercalate ", " texts) (List.intercalate [.comma] lists) :=
  readsAs_intercalate consume_separator (fun _ => apart_sign (by decide) (by decide) _)
    rfl rfl each

/-- A word of its own begins the parameters of a function without a name. -/
theorem consume_lambda
    {grouping : Grouping}
    (ready : grouping.Ready)
    (rest : List Char) :
    consume grouping ("lambda ".toList ++ rest) = consume (grouping.enter .lambda) rest := by
  have isWord : IsWord "lambda".toList := isWord_of_isIdentifier (by decide)
  have scanned := scan_word isWord (apart_blank rest)
  have reads := consume_of_scan grouping scanned (by simp) (by
    intro first member
    cases member
    decide)
  rw [Grouping.step, if_pos (by rw [ready.namesClass]; decide), Option.bind_some,
    consume_blank] at reads
  exact reads

/-- Names of parameters are read between commas. -/
theorem parameterNames_intercalate
    {parameters : List String}
    (fields : ∀ parameter ∈ parameters, IsField parameter) :
    parameterNames
        (List.intercalate [.comma] (parameters.map fun name => [.word name])) =
      some parameters := by
  induction parameters with
  | nil => rfl
  | cons parameter parameters hypothesis =>
      have notKeyword : ¬ keywords.contains parameter = true := by
        rw [(fields parameter List.mem_cons_self).2]
        decide
      cases parameters with
      | nil => exact if_neg notKeyword
      | cons second parameters =>
          have others := hypothesis fun other member =>
            fields other (List.mem_cons_of_mem _ member)
          rw [List.map_cons, List.map_cons, List.intercalate_cons_cons, List.append_assoc,
            List.singleton_append, List.singleton_append, parameterNames, if_neg notKeyword]
          exact congrArg (Option.map (parameter :: ·)) others

/-- Parameters of a function without a name are read up to their colon. -/
theorem consume_parameters
    {parameters : List String}
    (fields : ∀ parameter ∈ parameters, IsField parameter)
    (before : List Item)
    (outer : List (Bracket × List Item))
    (rest : List Char) :
    consume ⟨(.lambda, before) :: outer, []⟩
        ((String.intercalate ", " parameters).toList ++ (": ".toList ++ rest)) =
      consume ⟨outer, before ++ [.header parameters]⟩ rest := by
  have each : List.Forall₂ ReadsAs parameters (parameters.map fun name => [.word name]) := by
    rw [List.forall₂_map_right_iff, List.forall₂_same]
    exact fun parameter member => readsAs_word (fields parameter member).isName
  have ready : (⟨(.lambda, before) :: outer, []⟩ : Grouping).Ready := by
    intro item member
    cases member
  have apart : Apart (": ".toList ++ rest) := apart_sign (by decide) (by decide) _
  refine (readsAs_separated each _ _ ready apart).trans ?_
  refine (consume_headerColon (' ' :: rest) (parameterNames_intercalate fields)).trans ?_
  exact consume_blank _ rest

/-- Arguments are read between commas. -/
theorem arguments_intercalate
    {codes : List Code}
    (readable : ∀ code ∈ codes, Readable 9 code) :
    arguments (List.intercalate [.comma] (codes.map codeItems)) =
      some (codes.map term) := by
  by_cases nonempty : codes = []
  · subst nonempty
    rfl
  have items : List.intercalate [.comma] (codes.map codeItems) ≠ [] := by
    refine intercalate_ne_nil (by simpa using nonempty) ?_
    intro items member
    obtain ⟨code, isCode, rfl⟩ := List.mem_map.1 member
    exact (readable code isCode).codeItems_ne_nil
  have free : ∀ code ∈ codes, ∀ item ∈ codeItems code, item.isComma = false :=
    fun code member item inside =>
      Item.isComma_eq_false ((readable code member).looseness_le item inside)
  have separates : Item.comma.isComma = true := rfl
  have reads := mapM_splitOnP separates nonempty free fun code member =>
    (readable code member).reader_codeItems
  rw [arguments, if_neg (by simpa using items)]
  exact reads

/-! ## Code -/

/-- Whether a text starts with a visible character that joins no equals sign before
it and starts no remark. -/
def Separate (content : List Char) : Prop :=
  ∃ first rest, content = first :: rest ∧ first ≠ '=' ∧ first ≠ ' ' ∧ first ≠ '#'

theorem Separate.append
    {content : List Char}
    (separate : Separate content)
    (others : List Char) :
    Separate (content ++ others) := by
  obtain ⟨first, rest, rfl, different⟩ := separate
  exact ⟨first, rest ++ others, rfl, different⟩

theorem IsWord.separate {content : List Char} (isWord : IsWord content) :
    Separate content := by
  obtain ⟨first, others, rfl, starts, _⟩ := isWord
  refine ⟨first, others, rfl, ?_, visible_of_startsIdentifier starts⟩
  rintro rfl
  exact absurd starts (by decide)

theorem IsNumeral.separate {content : List Char} (isNumeral : IsNumeral content) :
    Separate content := by
  obtain ⟨first, others, rfl, digit⟩ := isNumeral.exists_digit
  refine ⟨first, others, rfl, ?_, visible_of_isDigit digit⟩
  rintro rfl
  exact absurd digit (by decide)

theorem Separate.intercalate
    {texts : List String}
    (nonempty : texts ≠ [])
    (each : ∀ text ∈ texts, Separate text.toList)
    (separator : String) :
    Separate (String.intercalate separator texts).toList := by
  obtain ⟨text, others, rfl⟩ := List.exists_cons_of_ne_nil nonempty
  have start := each text List.mem_cons_self
  rw [String.toList_intercalate]
  cases others with
  | nil => simpa using start
  | cons second others =>
      rw [List.map_cons, List.map_cons, List.intercalate_cons_cons, List.append_assoc]
      exact start.append _

theorem Readable.separate
    {level : Nat}
    {code : Code}
    (readable : Readable level code) :
    Separate code.render.toList := by
  induction readable with
  | name isName => exact isName.1.separate
  | count => exact (isNumeral_repr _).separate
  | text => exact ⟨'\"', _, String.toList_ofList, by decide⟩
  | member _ _ hypothesis | item _ hypothesis | itemFromEnd _ hypothesis
  | call _ _ hypothesis | isNone _ hypothesis | isNotNone _ hypothesis =>
      simp only [Code.render, String.toList_append, List.append_assoc]
      exact hypothesis.append _
  | special _ isName => exact isName.1.separate
  | @number value finite =>
      rw [Code.render, NumberText.toList_display]
      cases isSigned value with
      | false => simpa using (isNumeral_unsigned finite).separate
      | true => exact ⟨'-', _, rfl, by decide⟩
  | product _ _ _ left | sum _ _ _ left | comparison _ _ left =>
      simp only [Code.render, String.toList_append, List.append_assoc]
      exact left.append _
  | conjunction nonempty _ hypothesis | disjunction nonempty _ hypothesis =>
      rw [Code.render, renderAll_eq_map]
      refine Separate.intercalate (by simpa using nonempty) ?_ _
      intro text member
      obtain ⟨code, isCode, rfl⟩ := List.mem_map.1 member
      exact hypothesis code isCode
  | keyword isField =>
      simp only [Code.render, String.toList_append, List.append_assoc]
      exact isField.1.separate.append _
  | enclosed | negation | lambda =>
      simp [Code.render, Separate]
  | looser _ hypothesis => exact hypothesis

/-- The text of a plain text between quotes. -/
theorem readsAs_encode
    {content : String}
    (plain : ∀ character ∈ content.toList,
      Quoted.encodeCharacter character = [character]) :
    ReadsAs (Quoted.encode content) [.text content] := by
  intro grouping rest _ _
  have unchanged : content.toList.flatMap Quoted.encodeCharacter = content.toList := by
    rw [List.flatMap_congr plain]
    simp
  have isPlain : IsPlain content.toList := by
    intro character member
    have same := plain character member
    refine ⟨?_, ?_, ?_⟩ <;>
      · rintro rfl
        exact absurd same (by decide)
  rw [Quoted.encode, String.toList_ofList, unchanged, List.cons_append, List.append_assoc,
    List.singleton_append, consume_text grouping isPlain, String.ofList_toList]
  rfl

/-- An operation between operands. -/
theorem readsAs_arithmetic
    {first second : Code}
    (operation : Arithmetic)
    (operand : (codeItems first).getLast?.any Item.endsOperand = true)
    (readsLeft : ReadsAs first.render (codeItems first))
    (readsRight : ReadsAs second.render (codeItems second)) :
    ReadsAs (Code.arithmetic first operation second).render
      (codeItems (.arithmetic first operation second)) := by
  intro grouping rest ready apart
  simp only [Code.render, String.toList_append, List.append_assoc]
  refine (readsLeft grouping _ ready (apart_blank _)).trans ?_
  refine (consume_operation _ _ operation (Grouping.afterOperand_append operand _)).trans ?_
  refine (readsRight _ rest (Grouping.ready_push rfl rfl _) apart).trans ?_
  simp [codeItems]

/-- The text of readable code is read as its items. -/
theorem Readable.readsAs
    {level : Nat}
    {code : Code}
    (readable : Readable level code) :
    ReadsAs code.render (codeItems code) := by
  induction readable with
  | name isName => exact readsAs_word isName
  | count => exact readsAs_numeral (isNumeral_repr _)
  | text plain => exact readsAs_encode plain
  | @member owner field _ isField hypothesis =>
      intro grouping rest ready apart
      rw [Code.render, String.toList_append, String.toList_append, List.append_assoc,
        List.append_assoc]
      refine (hypothesis grouping _ ready (apart_point isField.1 rest)).trans ?_
      refine (consume_point _ _).trans ?_
      refine (readsAs_word isField.isName _ rest (Grouping.ready_push rfl rfl _) apart).trans ?_
      simp [codeItems]
  | @item owner position _ hypothesis =>
      intro grouping rest ready apart
      have reads : expression [.numeral position.repr] = some (.numeral position.repr) := rfl
      simp only [Code.render, String.toList_append, List.append_assoc]
      refine (hypothesis grouping _ ready (apart_sign (by decide) (by decide) _)).trans ?_
      refine (consume_openSquare _ _).trans ?_
      refine (readsAs_numeral (isNumeral_repr position) _ _ (Grouping.ready_enter _ _)
        (apart_sign (by decide) (by decide) _)).trans ?_
      refine (consume_closeSquare rest reads).trans ?_
      simp [codeItems, Grouping.append]
  | @itemFromEnd owner position _ hypothesis =>
      intro grouping rest ready apart
      have reads : expression [.negative, .numeral position.repr] =
        some (.negative (.numeral position.repr)) := rfl
      simp only [Code.render, String.toList_append, List.append_assoc]
      refine (hypothesis grouping _ ready (apart_sign (by decide) (by decide) _)).trans ?_
      refine (consume_openSquare _ _).trans ?_
      refine (consume_negative _ _ (Grouping.ready_enter _ _)).trans ?_
      refine (readsAs_numeral (isNumeral_repr position) _ _ (Grouping.ready_push rfl rfl _)
        (apart_sign (by decide) (by decide) _)).trans ?_
      refine (consume_closeSquare rest reads).trans ?_
      simp [codeItems, Grouping.append]
  | @call function codes _ readable hypothesis each =>
      intro grouping rest ready apart
      simp only [Code.render, String.toList_append, List.append_assoc, renderAll_eq_map]
      have separated : List.Forall₂ ReadsAs (codes.map Code.render) (codes.map codeItems) := by
        rw [List.forall₂_map_left_iff, List.forall₂_map_right_iff, List.forall₂_same]
        exact each
      refine (hypothesis grouping _ ready (apart_sign (by decide) (by decide) _)).trans ?_
      refine (consume_openRound _ _).trans ?_
      refine (readsAs_separated separated _ _ (Grouping.ready_enter _ _)
        (apart_sign (by decide) (by decide) _)).trans ?_
      refine (consume_closeRound rest (arguments_intercalate readable)).trans ?_
      simp [codeItems, Grouping.append]
  | @enclosed inner readable hypothesis =>
      intro grouping rest ready apart
      simp only [Code.render, String.toList_append, List.append_assoc]
      have alone : ∀ code ∈ [inner], Readable 9 code := by
        simpa using Readable.looser readable
      have reads : arguments (codeItems inner) = some [term inner] := by
        simpa using arguments_intercalate alone
      refine (consume_openRound _ _).trans ?_
      refine (hypothesis _ _ (Grouping.ready_enter _ _)
        (apart_sign (by decide) (by decide) _)).trans ?_
      exact consume_closeRound rest reads
  | number finite => exact readsAs_display finite
  | special infinite isName =>
      rw [codeItems, infinite, if_neg Bool.false_ne_true]
      exact readsAs_word isName
  | product _ left _ readsLeft readsRight =>
      exact readsAs_arithmetic _ (left.endsOperand (by decide)) readsLeft readsRight
  | sum _ left _ readsLeft readsRight =>
      exact readsAs_arithmetic _ (left.endsOperand (by decide)) readsLeft readsRight
  | @comparison first second relation _ _ readsLeft readsRight =>
      intro grouping rest ready apart
      simp only [Code.render, String.toList_append, List.append_assoc]
      refine (readsLeft grouping _ ready (apart_blank _)).trans ?_
      refine (consume_relation _ _ relation).trans ?_
      refine (readsRight _ rest (Grouping.ready_push rfl rfl _) apart).trans ?_
      simp [codeItems]
  | isNone _ hypothesis =>
      intro grouping rest ready apart
      rw [Code.render, String.toList_append, List.append_assoc]
      refine (hypothesis grouping _ ready (apart_blank _)).trans ?_
      refine (consume_isNone _ apart).trans ?_
      simp [codeItems]
  | isNotNone _ hypothesis =>
      intro grouping rest ready apart
      rw [Code.render, String.toList_append, List.append_assoc]
      refine (hypothesis grouping _ ready (apart_blank _)).trans ?_
      refine (consume_isNotNone _ apart).trans ?_
      simp [codeItems]
  | negation _ hypothesis =>
      intro grouping rest ready apart
      rw [Code.render, String.toList_append, List.append_assoc]
      refine (consume_not grouping _).trans ?_
      refine (hypothesis _ rest (Grouping.ready_push (by decide) (by decide) _) apart).trans ?_
      simp [codeItems]
  | @conjunction codes _ _ each =>
      rw [Code.render, renderAll_eq_map, codeItems, listItems_eq_map]
      refine readsAs_intercalate consume_and (fun _ => apart_blank _) (by decide) (by decide) ?_
      rw [List.forall₂_map_left_iff, List.forall₂_map_right_iff, List.forall₂_same]
      exact each
  | @disjunction codes _ _ each =>
      rw [Code.render, renderAll_eq_map, codeItems, listItems_eq_map]
      refine readsAs_intercalate consume_or (fun _ => apart_blank _) (by decide) (by decide) ?_
      rw [List.forall₂_map_left_iff, List.forall₂_map_right_iff, List.forall₂_same]
      exact each
  | @lambda parameters body fields _ hypothesis =>
      intro grouping rest ready apart
      simp only [Code.render, String.toList_append, List.append_assoc]
      refine (consume_lambda ready _).trans ?_
      refine (consume_parameters fields _ _ _).trans ?_
      refine (hypothesis (grouping.push (.header parameters)) rest
        (Grouping.ready_push rfl rfl _) apart).trans ?_
      simp [codeItems]
  | @keyword key value isField readable hypothesis =>
      intro grouping rest ready apart
      obtain ⟨first, others, shape, different, _⟩ := readable.separate
      simp only [Code.render, String.toList_append, List.append_assoc]
      refine (readsAs_word isField.isName grouping _ ready
        (apart_sign (by decide) (by decide) _)).trans ?_
      refine (consume_assign _ _ (by simp [shape, different])).trans ?_
      refine (hypothesis _ rest (Grouping.ready_push rfl rfl _) apart).trans ?_
      simp [codeItems]
  | looser _ hypothesis => exact hypothesis

end Python
end StrategyGraph
