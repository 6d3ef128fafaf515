import StrategyGraph.Proofs.Script.Line

/-!
# Layout of scripts

The lines of a script are read as the instructions that its statements stand for.
Blocks are found again by their indentation.
-/

namespace StrategyGraph
namespace Python

open Backtest (Code Statement)

/-- Read lines and collect their blocks. -/
def readBlock (remark : Option String) (texts : List (List Char)) :
    Option (List (Nat × Instruction)) :=
  (readLines remark texts).bind layout

section

variable {content : String} {line : Option String -> Line} (level : Nat)

theorem toList_line (content : String) :
    (Statement.line level content).toList =
      List.replicate (4 * level) ' ' ++ content.toList := by
  rw [Statement.line, String.toList_append, String.toList_ofList]

/-- A line that starts visibly is read behind its indentation. -/
theorem readLines_line
    (states : LineStates content line)
    (remark : Option String)
    (texts : List (List Char)) :
    readLines remark ((Statement.line level content).toList :: texts) =
      (readLines remark texts).map ((4 * level, line remark) :: ·) := by
  obtain ⟨first, rest, shape, _, notBlank, notRemark⟩ := states.separate
  have blanks : ∀ character ∈ List.replicate (4 * level) ' ',
      (character == ' ') = true := by
    intro character member
    rw [List.eq_of_mem_replicate member]
    decide
  have stop : ∀ character ∈ (first :: rest).head?, (character == ' ') = false := by
    simpa using notBlank
  obtain ⟨taken, dropped⟩ := takeWhile_append_of_stop blanks stop
  have reads := states.readLine remark
  rw [shape] at reads
  rw [toList_line, shape, readLines, taken, dropped]
  simp only [if_neg notRemark, reads, List.length_replicate]
  cases readLines remark texts with
  | none => rfl
  | some lines => rfl

/-- A remark is remembered for the lines behind it. -/
theorem readLines_remark
    (isRemark : IsRemark content)
    (remark : Option String)
    (texts : List (List Char)) :
    readLines remark ((Statement.line level (Statement.remarkText content)).toList :: texts) =
      readLines (some content) texts := by
  have blanks : ∀ character ∈ List.replicate (4 * level) ' ',
      (character == ' ') = true := by
    intro character member
    rw [List.eq_of_mem_replicate member]
    decide
  have shape : (Statement.remarkText content).toList = '#' :: ' ' :: content.toList := by
    simp [Statement.remarkText, String.toList_append]
  have stop : ∀ character ∈ ('#' :: ' ' :: content.toList).head?,
      (character == ' ') = false := by
    simp
  obtain ⟨taken, dropped⟩ := takeWhile_append_of_stop blanks stop
  have allowed : (' ' :: content.toList).all allowedInRemark = true := by
    rw [List.all_eq_true]
    intro character member
    rcases List.mem_cons.1 member with rfl | inside
    · decide
    · exact isRemark character inside
  rw [toList_line, shape, readLines, taken, dropped]
  simp [allowed]

theorem readBlock_simple
    {instruction : Option String -> Instruction}
    (states : LineStates content fun remark => .simple (instruction remark))
    (remark : Option String)
    {texts : List (List Char)}
    {entries : List (Nat × Instruction)}
    (behind : readBlock remark texts = some entries) :
    readBlock remark ((Statement.line level content).toList :: texts) =
      some ((4 * level, instruction remark) :: entries) := by
  obtain ⟨lines, readsLines, laid⟩ := Option.bind_eq_some_iff.1 behind
  rw [readBlock, readLines_line level states, readsLines]
  simp [layout, laid]

/-- A header takes the block behind it. -/
theorem readBlock_header
    {header : Header}
    (states : LineStates content fun _ => .header header)
    (remark : Option String)
    {texts : List (List Char)}
    {body : List Instruction}
    {entries : List (Nat × Instruction)}
    (nonempty : body ≠ [])
    (behind : readBlock remark texts =
      some (body.map (fun instruction => (4 * (level + 1), instruction)) ++ entries))
    (ends : ∀ entry ∈ entries.head?, entry.1 <= 4 * level) :
    readBlock remark ((Statement.line level content).toList :: texts) =
      some ((4 * level, header.with body) :: entries) := by
  obtain ⟨lines, readsLines, laid⟩ := Option.bind_eq_some_iff.1 behind
  have inside : ∀ entry ∈ body.map (fun instruction => (4 * (level + 1), instruction)),
      decide (4 * level < entry.1) = true := by
    intro entry member
    obtain ⟨instruction, _, rfl⟩ := List.mem_map.1 member
    exact decide_eq_true (by omega)
  have stop : entries.takeWhile (fun entry => decide (4 * level < entry.1)) = [] ∧
      entries.dropWhile (fun entry => decide (4 * level < entry.1)) = entries := by
    cases entries with
    | nil => exact ⟨rfl, rfl⟩
    | cons entry entries =>
        have outside := ends entry rfl
        simp [Nat.not_lt.2 outside]
  obtain ⟨first, others, rfl⟩ := List.exists_cons_of_ne_nil nonempty
  rw [readBlock, readLines_line level states, readsLines, Option.map_some, Option.bind_some,
    layout, laid]
  simp only [Option.bind_eq_bind, Option.bind_some, List.takeWhile_append_of_pos inside,
    List.dropWhile_append_of_pos inside, stop, List.append_nil]
  simp [Function.comp_def]

end

/-! ## Statements -/

/-- An empty line is passed over. -/
theorem readLines_empty (remark : Option String) (texts : List (List Char)) :
    readLines remark ([] :: texts) = readLines remark texts := by
  rw [readLines]
  rfl

section

variable {texts : List (List Char)} {entries : List (Nat × Instruction)}

/-- What a statement stands for is read from its lines, whatever is read behind them
at its level or further left. -/
def StatementReads (statement : Statement) : Prop :=
  ∀ (level : Nat) (remark : Option String) (texts : List (List Char))
    (entries : List (Nat × Instruction)),
    readBlock (remarkBehind remark statement) texts = some entries ->
      (∀ entry ∈ entries.head?, entry.1 <= 4 * level) ->
        readBlock remark ((statement.lines level).map String.toList ++ texts) =
          some ((instructions remark statement).map (fun one => (4 * level, one)) ++ entries)

theorem head?_instructions
    {level : Nat}
    (ends : ∀ entry ∈ entries.head?, entry.1 <= 4 * level)
    (before : List Instruction) :
    ∀ entry ∈ (before.map (fun one => (4 * level, one)) ++ entries).head?,
      entry.1 <= 4 * level := by
  cases before with
  | nil => exact ends
  | cons instruction before =>
      intro entry member
      cases member
      exact Nat.le_refl _

/-- Statements are read one after the other. -/
theorem readBlock_linesOf
    {statements : List Statement}
    (each : ∀ statement ∈ statements, StatementReads statement)
    (level : Nat)
    (remark : Option String)
    (behind : readBlock (remarkBehindAll remark statements) texts = some entries)
    (ends : ∀ entry ∈ entries.head?, entry.1 <= 4 * level) :
    readBlock remark ((Statement.linesOf level statements).map String.toList ++ texts) =
      some ((allInstructions remark statements).map (fun one => (4 * level, one)) ++
        entries) := by
  induction statements generalizing remark with
  | nil => exact behind
  | cons statement statements hypothesis =>
      have others := hypothesis (fun other member => each other (List.mem_cons_of_mem _ member))
        (remarkBehind remark statement) behind
      have first := each statement List.mem_cons_self level remark _ _ others
        (head?_instructions ends _)
      rw [Statement.linesOf, List.map_append, List.append_assoc, first, allInstructions,
        List.map_append, List.append_assoc]

/-- A header and the statements below it are read as one instruction. -/
theorem readBlock_compound
    {body : List Statement}
    {content : String}
    {header : Header}
    (states : LineStates content fun _ => .header header)
    (each : ∀ statement ∈ body, StatementReads statement)
    {level : Nat}
    {remark : Option String}
    (acts : allInstructions remark body ≠ [])
    (behind : readBlock (remarkBehindAll remark body) texts = some entries)
    (ends : ∀ entry ∈ entries.head?, entry.1 <= 4 * level) :
    readBlock remark
        ((Statement.line level content).toList ::
          ((Statement.linesOf (level + 1) body).map String.toList ++ texts)) =
      some ((4 * level, header.with (allInstructions remark body)) :: entries) := by
  refine readBlock_header level states remark acts ?_ ends
  exact readBlock_linesOf each (level + 1) remark behind fun entry member =>
    Nat.le_trans (ends entry member) (by omega)

end

/-- Readable statements are read as what they stand for. -/
theorem ReadableStatement.reads
    {statement : Statement}
    (readable : ReadableStatement statement) :
    StatementReads statement := by
  induction readable with
  | blank =>
      intro level remark texts entries behind ends
      exact (congrArg (Option.bind · layout) (readLines_empty remark texts)).trans behind
  | @remark content isRemark =>
      intro level remark texts entries behind ends
      exact (congrArg (Option.bind · layout)
        (readLines_remark level isRemark remark texts)).trans behind
  | @importModule module shortName isModule isName =>
      intro level remark texts entries behind ends
      have states := lineStates_importModule isModule isName
      cases shortName with
      | none => exact readBlock_simple level states remark behind
      | some name => exact readBlock_simple level states remark behind
  | importFrom isModule isName =>
      intro level remark texts entries behind ends
      exact readBlock_simple level (lineStates_importFrom isModule isName) remark behind
  | assign target value isRemark =>
      intro level remark texts entries behind ends
      exact readBlock_simple level (lineStates_assign target value isRemark) remark behind
  | evaluate code =>
      intro level remark texts entries behind ends
      exact readBlock_simple level (lineStates_evaluate code) remark behind
  | leave =>
      intro level remark texts entries behind ends
      exact readBlock_simple level lineStates_leave remark behind
  | conditional condition acts _ each =>
      intro level remark texts entries behind ends
      exact readBlock_compound (lineStates_conditional condition) each (acts remark) behind ends
  | method isName fields acts _ each =>
      intro level remark texts entries behind ends
      exact readBlock_compound (lineStates_method isName fields) each (acts remark) behind ends
  | classOf isName isBase acts _ each =>
      intro level remark texts entries behind ends
      exact readBlock_compound (lineStates_classOf isName isBase) each (acts remark) behind ends

/-! ## Scripts -/

theorem newline_not_mem_line
    {content : String}
    (free : '\n' ∉ content.toList)
    (level : Nat) :
    '\n' ∉ (Statement.line level content).toList := by
  rw [toList_line, List.mem_append]
  rintro (blank | inside)
  · exact absurd (List.eq_of_mem_replicate blank) (by decide)
  · exact free inside

theorem mem_linesOf
    {level : Nat}
    {statements : List Statement}
    {text : String}
    (member : text ∈ Statement.linesOf level statements) :
    ∃ statement ∈ statements, text ∈ statement.lines level := by
  induction statements with
  | nil => cases member
  | cons statement statements hypothesis =>
      rw [Statement.linesOf, List.mem_append] at member
      rcases member with first | behind
      · exact ⟨statement, List.mem_cons_self, first⟩
      · obtain ⟨other, listed, inside⟩ := hypothesis behind
        exact ⟨other, List.mem_cons_of_mem statement listed, inside⟩

/-- Lines of readable statements have no line breaks. -/
theorem ReadableStatement.newline_not_mem
    {statement : Statement}
    (readable : ReadableStatement statement)
    (level : Nat) :
    ∀ text ∈ statement.lines level, '\n' ∉ text.toList := by
  have compound : ∀ {content : String} {body : List Statement} {level : Nat},
      '\n' ∉ content.toList ->
        (∀ statement ∈ body, ∀ (level : Nat), ∀ text ∈ statement.lines level,
          '\n' ∉ text.toList) ->
          ∀ text ∈ Statement.line level content :: Statement.linesOf (level + 1) body,
            '\n' ∉ text.toList := by
    intro content body level free each text member
    rcases List.mem_cons.1 member with rfl | below
    · exact newline_not_mem_line free level
    · obtain ⟨statement, listed, inside⟩ := mem_linesOf below
      exact each statement listed (level + 1) text inside
  have single : ∀ {content : String} {level : Nat}, '\n' ∉ content.toList ->
      ∀ text ∈ [Statement.line level content], '\n' ∉ text.toList := by
    intro content level free text member
    rw [List.mem_singleton.1 member]
    exact newline_not_mem_line free level
  induction readable generalizing level with
  | blank => simp [Statement.lines]
  | remark isRemark =>
      refine single fun member => ?_
      rw [Statement.remarkText, String.toList_append, List.mem_append] at member
      rcases member with sign | inside
      · exact absurd sign (by decide)
      · exact absurd (isRemark _ inside) (by decide)
  | @importModule module shortName isModule isName =>
      have states := lineStates_importModule isModule isName
      cases shortName with
      | none => exact single states.newline_not_mem
      | some name => exact single states.newline_not_mem
  | importFrom isModule isName =>
      exact single (lineStates_importFrom isModule isName).newline_not_mem
  | assign target value isRemark =>
      exact single (lineStates_assign target value isRemark).newline_not_mem
  | evaluate code => exact single (lineStates_evaluate code).newline_not_mem
  | leave => exact single lineStates_leave.newline_not_mem
  | conditional condition _ _ each =>
      exact compound (lineStates_conditional condition).newline_not_mem each
  | method isName fields _ _ each =>
      exact compound (lineStates_method isName fields).newline_not_mem each
  | classOf isName isBase _ _ each =>
      exact compound (lineStates_classOf isName isBase).newline_not_mem each

/-- Lines that are each ended by a line break are found again at the line breaks. -/
theorem splitOnP_join
    {texts : List String}
    (free : ∀ text ∈ texts, '\n' ∉ text.toList) :
    (String.join (texts.map fun text => text ++ "\n")).toList.splitOnP (· == '\n') =
      texts.map String.toList ++ [[]] := by
  induction texts with
  | nil => rfl
  | cons text texts hypothesis =>
      have others := hypothesis fun other member => free other (List.mem_cons_of_mem text member)
      have freeHere : ∀ character ∈ text.toList, (character == '\n') = false := by
        intro character member
        rw [beq_eq_false_iff_ne]
        rintro rfl
        exact free text List.mem_cons_self member
      rw [List.map_cons, String.join_cons, String.toList_append, String.toList_append,
        List.append_assoc]
      refine (List.splitOnP_append_cons_of_forall_mem freeHere '\n' rfl _).trans ?_
      exact congrArg (text.toList :: ·) others

/-- The text of a script is read as the instructions that its statements stand for. -/
theorem read_script
    {statements : List Statement}
    (readable : ∀ statement ∈ statements, ReadableStatement statement) :
    read (Statement.script statements) = some (allInstructions none statements) := by
  have free : ∀ text ∈ Statement.linesOf 0 statements, '\n' ∉ text.toList := by
    intro text member
    obtain ⟨statement, listed, inside⟩ := mem_linesOf member
    exact (readable statement listed).newline_not_mem 0 text inside
  have atEnd : readBlock (remarkBehindAll none statements) [[]] = some [] := by
    rw [readBlock, readLines_empty]
    rfl
  have reads := readBlock_linesOf (fun statement member => (readable statement member).reads)
    0 none atEnd (by simp)
  obtain ⟨lines, readsLines, laid⟩ := Option.bind_eq_some_iff.1 reads
  rw [read, Statement.script, splitOnP_join free, readsLines]
  simp [laid, Function.comp_def]

end Python
end StrategyGraph
