import StrategyGraph.Proofs.Script.Statement

/-!
# Lines of scripts

Every line of a readable statement is read as what the statement says there.
-/

namespace StrategyGraph
namespace Python

open Backtest (Code Statement)

/-- A line that starts with a visible character and what it states, given the remark
before it. -/
structure LineStates (content : String) (line : Option String -> Line) : Prop where
  separate : Separate content.toList
  reads : ∃ items, consume .start content.toList = some ⟨[], items⟩ ∧
    ∀ remark, readItems remark items = some (line remark)

section

variable {content : String} {line : Option String -> Line}

theorem LineStates.readLine (states : LineStates content line) (remark : Option String) :
    Python.readLine remark content.toList = some (line remark) := by
  obtain ⟨items, consumed, reads⟩ := states.reads
  obtain ⟨tokens, lexed, grouped⟩ := Option.bind_eq_some_iff.1 consumed
  simp [Python.readLine, lexed, itemize, grouped, reads]

theorem LineStates.newline_not_mem (states : LineStates content line) :
    '\n' ∉ content.toList := by
  obtain ⟨items, consumed, _⟩ := states.reads
  obtain ⟨tokens, lexed, _⟩ := Option.bind_eq_some_iff.1 consumed
  exact newline_not_mem_of_lex lexed

end

/-- Whole terms are read by the reader of expressions. -/
theorem Readable.expression
    {level : Nat}
    {code : Code}
    (readable : Readable level code)
    (tight : level <= 8) :
    Python.expression (codeItems code) = some (term code) :=
  (readable.mono tight).reader_codeItems

/-- Terms start with no word that starts an instruction. -/
theorem readItems_of_primary
    {items : List Item}
    {read : Term}
    (reads : primary items = some read)
    (others : List Item)
    (remark : Option String) :
    readItems remark (items ++ others) = readPlain remark (items ++ others) := by
  cases items with
  | nil => cases reads
  | cons item items =>
      obtain ⟨start, isStart, _⟩ := Option.bind_eq_some_iff.1 reads
      rw [List.cons_append]
      unfold readItems
      split
      next word rest equal =>
        cases equal
        rw [if_neg]
        intro isInstruction
        simp only [instructionWords, List.contains_iff_mem, List.mem_cons,
          List.not_mem_nil, or_false] at isInstruction
        rcases isInstruction with rfl | rfl | rfl | rfl | rfl | rfl <;> cases isStart
      next => rfl

theorem apart_nil : Apart [] := trivial

/-- A remark behind a line is passed over. -/
theorem consume_trailingRemark
    {note : Option String}
    (isRemark : ∀ content ∈ note, IsRemark content)
    (grouping : Grouping) :
    consume grouping (Statement.trailingRemark note).toList = some grouping := by
  cases note with
  | none => exact consume_nil grouping
  | some content =>
      have allowed := isRemark content rfl
      rw [Statement.trailingRemark, Statement.remarkText, String.toList_append,
        String.toList_append]
      refine (consume_blank grouping _).trans ?_
      refine (consume_blank grouping _).trans ?_
      refine consume_remark grouping ?_
      rw [List.all_eq_true]
      intro character member
      rcases List.mem_cons.1 member with rfl | inside
      · decide
      · exact allowed character inside

theorem apart_trailingRemark (note : Option String) :
    Apart (Statement.trailingRemark note).toList := by
  cases note with
  | none => exact apart_nil
  | some content =>
      rw [Statement.trailingRemark, String.toList_append]
      exact apart_blank _

theorem head?_blank (rest : List Char) : (' ' :: rest).head? ≠ some '=' := by
  simp

theorem lineStates_assign
    {target value : Code}
    {note : Option String}
    (readsTarget : Readable 0 target)
    (readsValue : Readable 8 value)
    (isRemark : ∀ content ∈ note, IsRemark content) :
    LineStates (target.render ++ " = " ++ value.render ++ Statement.trailingRemark note)
      fun _ => .simple (.assign (term target) (term value)) := by
  refine ⟨?_, codeItems target ++ .assign :: codeItems value, ?_, ?_⟩
  · simp only [String.toList_append, List.append_assoc]
    exact readsTarget.separate.append _
  · simp only [String.toList_append, List.append_assoc]
    refine (readsTarget.readsAs .start _ Grouping.ready_start (apart_blank _)).trans ?_
    refine (consume_blank _ _).trans ?_
    refine (consume_assign _ _ (head?_blank _)).trans ?_
    refine (consume_blank _ _).trans ?_
    refine (readsValue.readsAs _ _ (Grouping.ready_push rfl rfl _)
      (apart_trailingRemark note)).trans ?_
    refine (consume_trailingRemark isRemark _).trans ?_
    simp [Grouping.append, Grouping.push, Grouping.start]
  · intro remark
    have freeTarget := fun item member =>
      Item.isAssign_eq_false (Nat.le_trans (readsTarget.looseness_le item member) (by decide))
    have freeValue := fun item member =>
      Item.isAssign_eq_false (readsValue.looseness_le item member)
    rw [readItems_of_primary readsTarget.reader_codeItems, readPlain,
      List.splitOnP_append_cons_of_forall_mem freeTarget _ rfl,
      List.splitOnP_eq_singleton freeValue]
    simp [readsTarget.expression (by decide), readsValue.expression (by decide)]

theorem lineStates_evaluate {code : Code} (readable : Readable 0 code) :
    LineStates code.render fun remark => .simple (.evaluate remark (term code)) := by
  refine ⟨readable.separate, codeItems code, ?_, ?_⟩
  · have reads := readable.readsAs .start [] Grouping.ready_start apart_nil
    rw [List.append_nil, consume_nil] at reads
    exact reads
  · intro remark
    have free := fun item member =>
      Item.isAssign_eq_false (Nat.le_trans (readable.looseness_le item member) (by decide))
    have plain := readItems_of_primary readable.reader_codeItems [] remark
    rw [List.append_nil] at plain
    rw [plain, readPlain, List.splitOnP_eq_singleton free]
    simp [readable.expression (by decide)]

theorem lineStates_leave : LineStates "return" fun _ => .simple .leave := by
  have isWord : IsWord "return".toList := isWord_of_isIdentifier (by decide)
  refine ⟨isWord.separate, [.word "return"], ?_, fun _ => rfl⟩
  have reads := consume_word .start isWord (by decide) apart_nil
  rw [List.append_nil, consume_nil] at reads
  exact reads

theorem lineStates_conditional {code : Code} (readable : Readable 8 code) :
    LineStates ("if " ++ code.render ++ ":") fun _ => .header (.conditional (term code)) := by
  have isWord : IsWord "if".toList := isWord_of_isIdentifier (by decide)
  refine ⟨?_, .word "if" :: (codeItems code ++ [.colon]), ?_, ?_⟩
  · simp only [String.toList_append, List.append_assoc]
    exact (isWord.separate.append [' ']).append _
  · simp only [String.toList_append, List.append_assoc]
    refine (consume_wordBlank "if" (by decide) (by decide) .start _).trans ?_
    refine (readable.readsAs _ _ (Grouping.ready_push (by decide) (by decide) _)
      (apart_sign (by decide) (by decide) _)).trans ?_
    refine (consume_colon [] _).trans ?_
    rw [consume_nil]
    simp [Grouping.push, Grouping.start]
  · intro remark
    have reads := readable.expression (Nat.le_refl 8)
    rw [readItems, if_pos (by decide), readInstruction.eq_def, if_neg (by decide), if_pos rfl]
    simp [reads]

/-- A word that starts an instruction, and the blank behind it. -/
theorem lineStates_word
    (word : String)
    (isIdentifier : StrategyGraph.isIdentifier word = true)
    (notLambda : word ≠ "lambda")
    (isInstruction : instructionWords.contains word = true)
    (text : List Char)
    (items : List Item)
    (consumed : consume (Grouping.start.push (.word word)) text = some ⟨[], .word word :: items⟩)
    {content : String}
    (shape : content.toList = word.toList ++ ' ' :: text)
    {line : Line}
    (reads : readInstruction word items = some line) :
    LineStates content fun _ => line := by
  refine ⟨?_, .word word :: items, ?_, ?_⟩
  · rw [shape]
    exact (isWord_of_isIdentifier isIdentifier).separate.append _
  · rw [shape, consume_wordBlank word isIdentifier notLambda]
    exact consumed
  · intro remark
    exact (if_pos isInstruction).trans reads

/-- Names of parameters are read as arguments that are names. -/
theorem readsAs_parameters
    {parameters : List String}
    (fields : ∀ parameter ∈ parameters, IsField parameter) :
    ReadsAs (String.intercalate ", " parameters)
        (List.intercalate [.comma] (parameters.map fun name => [.word name])) ∧
      arguments (List.intercalate [.comma] (parameters.map fun name => [.word name])) =
        some (parameters.map .name) := by
  have readable : ∀ code ∈ parameters.map Code.name, Readable 9 code := by
    intro code member
    obtain ⟨name, isParameter, rfl⟩ := List.mem_map.1 member
    exact (Readable.name (fields name isParameter).isName).mono (by decide)
  have reads := arguments_intercalate readable
  have names : parameters.map (nameTerm ·) = parameters.map Term.name := by
    refine List.map_congr_left fun name isParameter => ?_
    exact nameTerm_of_isField (fields name isParameter)
  constructor
  · refine readsAs_separated ?_
    rw [List.forall₂_map_right_iff, List.forall₂_same]
    exact fun parameter member => readsAs_word (fields parameter member).isName
  · rw [List.map_map, List.map_map] at reads
    rw [← names]
    exact reads

theorem lineStates_method
    {name : String}
    {parameters : List String}
    (isName : IsField name)
    (fields : ∀ parameter ∈ parameters, IsField parameter) :
    LineStates ("def " ++ name ++ Statement.parameterList parameters ++ ":")
      fun _ => .header (.function name parameters) := by
  obtain ⟨readsParameters, reads⟩ := readsAs_parameters fields
  refine lineStates_word "def" (by decide) (by decide) (by decide)
    (name.toList ++ (Statement.parameterList parameters ++ ":").toList)
    [.word name, .enclosed (parameters.map .name), .colon] ?_ ?_ ?_
  · rw [Statement.parameterList]
    simp only [String.toList_append, List.append_assoc]
    refine (readsAs_word isName.isName _ _ (Grouping.ready_push (by decide) (by decide) _)
      (apart_sign (by decide) (by decide) _)).trans ?_
    refine (consume_openRound _ _).trans ?_
    refine (readsParameters _ _ (Grouping.ready_enter _ _)
      (apart_sign (by decide) (by decide) _)).trans ?_
    refine (consume_closeRound _ reads).trans ?_
    refine (consume_colon [] _).trans ?_
    rw [consume_nil]
    simp [Grouping.push, Grouping.start, Grouping.append]
  · simp [String.toList_append]
  · have names : (parameters.map Term.name).mapM parameter? = some parameters := by
      clear fields readsParameters reads
      induction parameters with
      | nil => rfl
      | cons parameter parameters hypothesis =>
          rw [List.map_cons, List.mapM_cons, hypothesis]
          rfl
    rw [readInstruction.eq_def, if_neg (by decide), if_neg (by decide), if_pos rfl]
    simp [names]

/-- Behind `class` any word is a name. -/
theorem consume_className
    {content : String}
    (isWord : IsWord content.toList)
    {rest : List Char}
    (apart : Apart rest) :
    consume (Grouping.start.push (.word "class")) (content.toList ++ rest) =
      consume ⟨[], [.word "class", .word content]⟩ rest := by
  have scanned := scan_word isWord apart
  obtain ⟨first, others, shape, starts, _⟩ := isWord
  rw [consume_of_scan _ scanned (by simp [shape]) (by
    intro other member
    rw [shape] at member
    cases member
    exact visible_of_startsIdentifier starts)]
  rw [String.ofList_toList, Grouping.step, if_neg (by
    rw [Bool.and_eq_true, Bool.not_eq_true']
    exact fun both => absurd both.2 (by decide))]
  rfl

theorem lineStates_classOf
    {name base : String}
    (isName : IsWord name.toList)
    (isBase : IsField base) :
    LineStates ("class " ++ name ++ "(" ++ base ++ "):")
      fun _ => .header (.classOf name base) := by
  have fields : ∀ parameter ∈ [base], IsField parameter := by simpa using isBase
  obtain ⟨readsBase, reads⟩ := readsAs_parameters fields
  refine lineStates_word "class" (by decide) (by decide) (by decide)
    (name.toList ++ ("(" ++ base ++ "):").toList)
    [.word name, .enclosed [.name base], .colon] ?_ ?_ rfl
  · simp only [String.toList_append, List.append_assoc]
    refine (consume_className isName (apart_sign (by decide) (by decide) _)).trans ?_
    refine (consume_openRound _ _).trans ?_
    refine (readsBase _ _ (Grouping.ready_enter _ _)
      (apart_sign (by decide) (by decide) _)).trans ?_
    refine (consume_closeRound _ reads).trans ?_
    refine (consume_colon [] _).trans ?_
    rw [consume_nil]
    rfl
  · simp [String.toList_append]

/-- A word at the end of a line. -/
theorem consume_lastWord
    {content : String}
    (isName : IsName content)
    {grouping : Grouping}
    (ready : grouping.Ready) :
    consume grouping content.toList = some (grouping.push (.word content)) := by
  have reads := readsAs_word isName grouping [] ready apart_nil
  rw [List.append_nil, consume_nil] at reads
  exact reads

theorem lineStates_importModule
    {module : String}
    {shortName : Option String}
    (isModule : IsField module)
    (isName : ∀ name ∈ shortName, IsField name) :
    LineStates
      (match shortName with
        | none => "import " ++ module
        | some shortName => "import " ++ module ++ " as " ++ shortName)
      fun _ => .simple (.importModule module (shortName.getD module)) := by
  have ready : (Grouping.start.push (.word "import")).Ready :=
    Grouping.ready_push (by decide) (by decide) _
  cases shortName with
  | none =>
      refine lineStates_word "import" (by decide) (by decide) (by decide) module.toList
        [.word module] ?_ ?_ rfl
      · rw [consume_lastWord isModule.isName ready]
        rfl
      · simp [String.toList_append]
  | some name =>
      refine lineStates_word "import" (by decide) (by decide) (by decide)
        (module.toList ++ (" as " ++ name).toList)
        [.word module, .word "as", .word name] ?_ ?_ rfl
      · rw [String.toList_append]
        refine (readsAs_word isModule.isName _ _ ready (apart_blank _)).trans ?_
        refine (consume_blank _ _).trans ?_
        refine (consume_wordBlank "as" (by decide) (by decide) _ _).trans ?_
        exact consume_lastWord (isName name rfl).isName
          (Grouping.ready_push (by decide) (by decide) _)
      · simp [String.toList_append]

theorem lineStates_importFrom
    {module name : String}
    (isModule : IsField module)
    (isName : IsField name) :
    LineStates ("from " ++ module ++ " import " ++ name)
      fun _ => .simple (.importFrom module name) := by
  refine lineStates_word "from" (by decide) (by decide) (by decide)
    (module.toList ++ (" import " ++ name).toList)
    [.word module, .word "import", .word name] ?_ ?_ rfl
  · rw [String.toList_append]
    refine (readsAs_word isModule.isName _ _ (Grouping.ready_push (by decide) (by decide) _)
      (apart_blank _)).trans ?_
    refine (consume_blank _ _).trans ?_
    refine (consume_wordBlank "import" (by decide) (by decide) _ _).trans ?_
    exact consume_lastWord isName.isName
      (Grouping.ready_push (by decide) (by decide) _)
  · simp [String.toList_append]

end Python
end StrategyGraph
