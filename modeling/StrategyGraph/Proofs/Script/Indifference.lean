import StrategyGraph.Proofs.Script.Emission

/-!
# Identities in scripts

The identities of nodes may be any texts, with quotes, line ends and number signs among
them, and the script of a strategy is run as it stands. Identities go into remarks only,
where none of them can end its line.

The main result: the scripts of two strategies that differ in nothing but identities have
as many lines as each other, and up to its first number sign every line of one is that of
the other.
-/

namespace StrategyGraph
namespace Python

open Backtest (Code Statement)

/-- How the ends of lines are told: by line feeds alone, or by carriage returns as well. -/
inductive LineEnds where
  | feeds
  | feedsAndReturns

/-- Whether a character ends a line. -/
def LineEnds.isEnd : LineEnds -> Char -> Bool
  | .feeds, character => character == '\n'
  | .feedsAndReturns, character => character == '\n' || character == '\r'

/-- A line up to its first number sign. -/
def codeOf (line : List Char) : List Char :=
  line.takeWhile fun character => character != '#'

/-- The lines of a text. -/
def linesOf (ends : LineEnds) (text : String) : List (List Char) :=
  text.toList.splitOnP ends.isEnd

/-- The lines of a text, each up to its first number sign. -/
def codeLines (ends : LineEnds) (text : String) : List (List Char) :=
  (linesOf ends text).map codeOf

/-! ## Lines with the same code -/

section

variable (ends : LineEnds) {first second : List Char}

theorem LineEnds.isEnd_newline : ends.isEnd '\n' = true := by
  cases ends <;> rfl

/-- A remark does not end its line. -/
theorem LineEnds.isEnd_of_allowed {character : Char} (allowed : allowedInRemark character = true) :
    ends.isEnd character = false := by
  rw [allowedInRemark] at allowed
  cases ends with
  | feeds => simp_all [LineEnds.isEnd]
  | feedsAndReturns => simp_all [LineEnds.isEnd]

theorem splitOnP_of_free {rest : List Char}
    (free : ∀ character ∈ rest, ends.isEnd character = false) :
    rest.splitOnP ends.isEnd = [rest] := by
  induction rest with
  | nil => rfl
  | cons character rest hypothesis =>
      rw [List.forall_mem_cons] at free
      rw [List.splitOnP_cons_eq_if_modifyHead, free.1, hypothesis free.2]
      rfl

/-- Texts that agree up to a number sign have the same code, if no line ends behind it. -/
theorem codes_of_remark (code : List Char)
    (isFirst : ∀ character ∈ first, allowedInRemark character = true)
    (isSecond : ∀ character ∈ second, allowedInRemark character = true) :
    ((code ++ '#' :: first).splitOnP ends.isEnd).map codeOf =
      ((code ++ '#' :: second).splitOnP ends.isEnd).map codeOf := by
  have alone : ∀ {rest : List Char}, (∀ character ∈ rest, allowedInRemark character = true) ->
      (('#' :: rest).splitOnP ends.isEnd).map codeOf = [[]] := by
    intro rest isRemark
    rw [splitOnP_of_free ends]
    · rfl
    · exact List.forall_mem_cons.2 ⟨ends.isEnd_of_allowed (by decide), fun character member =>
        ends.isEnd_of_allowed (isRemark character member)⟩
  induction code with
  | nil => rw [List.nil_append, List.nil_append, alone isFirst, alone isSecond]
  | cons character code hypothesis =>
      -- The character is put in front of the first line, and of what is left of it.
      have push : ∀ lines : List (List Char),
          (lines.modifyHead (character :: ·)).map codeOf =
            (lines.map codeOf).modifyHead fun line =>
              if character != '#' then character :: line else [] := by
        intro lines
        cases lines with
        | nil => rfl
        | cons line lines => simp [codeOf, List.takeWhile_cons]
      rw [List.cons_append, List.cons_append, List.splitOnP_cons_eq_if_modifyHead,
        List.splitOnP_cons_eq_if_modifyHead]
      split
      next => rw [List.map_cons, List.map_cons, hypothesis]
      next => rw [push, push, hypothesis]

end

/-- Two lines are the same, or they are the same up to a remark at their end. -/
def SameLine (first second : String) : Prop :=
  first = second ∨ ∃ code remark other, IsRemark remark ∧ IsRemark other ∧
    first = code ++ Statement.remarkText remark ∧ second = code ++ Statement.remarkText other

/-- Texts of the same lines have the same code. -/
theorem codeLines_join (ends : LineEnds) {lines others : List String}
    (same : List.Forall₂ SameLine lines others) :
    codeLines ends (String.join (lines.map fun line => line ++ "\n")) =
      codeLines ends (String.join (others.map fun line => line ++ "\n")) := by
  induction same with
  | nil => rfl
  | @cons line other lines others isSame _ hypothesis =>
      have here : (line.toList.splitOnP ends.isEnd).map codeOf =
          (other.toList.splitOnP ends.isEnd).map codeOf := by
        rcases isSame with rfl | ⟨code, remark, another, isRemark, isAnother, rfl, rfl⟩
        · rfl
        · have blank : allowedInRemark ' ' = true := by decide
          simpa [Statement.remarkText] using codes_of_remark ends code.toList
            (List.forall_mem_cons.2 ⟨blank, isRemark⟩) (List.forall_mem_cons.2 ⟨blank, isAnother⟩)
      have unfolded : ∀ (line : String) (lines : List String),
          codeLines ends (String.join ((line :: lines).map fun line => line ++ "\n")) =
            (line.toList.splitOnP ends.isEnd).map codeOf ++
              codeLines ends (String.join (lines.map fun line => line ++ "\n")) := by
        intro line lines
        rw [codeLines, linesOf, List.map_cons, String.join_cons, String.toList_append,
          String.toList_append, List.append_assoc]
        refine (congrArg (List.map codeOf)
          (List.splitOnP_append_cons line.toList _ ends.isEnd_newline)).trans ?_
        rw [List.map_append]
        rfl
      rw [unfolded, unfolded, here, hypothesis]

/-! ## Statements with the same code -/

/-- Statements that are written in the same lines, at every level. -/
def Alike (statements others : List Statement) : Prop :=
  ∀ level, List.Forall₂ SameLine (Statement.linesOf level statements)
    (Statement.linesOf level others)

namespace Alike

variable {statements others : List Statement}

theorem linesOf_singleton (level : Nat) (statement : Statement) :
    Statement.linesOf level [statement] = statement.lines level := by
  rw [Statement.linesOf, Statement.linesOf, List.append_nil]

theorem refl (statements : List Statement) : Alike statements statements := fun _ =>
  List.forall₂_same.2 fun _ _ => Or.inl rfl

theorem append
    (here : Alike statements others)
    {behind othersBehind : List Statement}
    (later : Alike behind othersBehind) :
    Alike (statements ++ behind) (others ++ othersBehind) := by
  have split : ∀ level (statements behind : List Statement),
      Statement.linesOf level (statements ++ behind) =
        Statement.linesOf level statements ++ Statement.linesOf level behind := by
    intro level statements behind
    induction statements with
    | nil => rfl
    | cons statement statements hypothesis =>
        rw [List.cons_append, Statement.linesOf, hypothesis, Statement.linesOf,
          List.append_assoc]
  intro level
  rw [split, split]
  exact List.rel_append (here level) (later level)

theorem cons (statement : Statement) (later : Alike statements others) :
    Alike (statement :: statements) (statement :: others) :=
  (refl [statement]).append later

theorem remark
    {content other : String}
    (isContent : IsRemark content)
    (isOther : IsRemark other)
    (later : Alike statements others) :
    Alike (.remark content :: statements) (.remark other :: others) := by
  have here : Alike [.remark content] [.remark other] := fun _ =>
    .cons (Or.inr ⟨_, content, other, isContent, isOther, rfl, rfl⟩) .nil
  exact here.append later

theorem note
    (target value : Code)
    {content other : String}
    (isContent : IsRemark content)
    (isOther : IsRemark other) :
    Alike [.assign target value (some content)] [.assign target value (some other)] := by
  have written : ∀ (level : Nat) (content : String),
      (Statement.assign target value (some content)).lines level =
        [Statement.line level (target.render ++ " = " ++ value.render ++ "  ") ++
          Statement.remarkText content] := by
    intro level content
    simp only [Statement.lines, Statement.line, Statement.trailingRemark, String.append_assoc]
  intro level
  rw [linesOf_singleton, linesOf_singleton, written, written]
  exact .cons (Or.inr ⟨_, content, other, isContent, isOther, rfl, rfl⟩) .nil

/-- A compound statement is alike when its body is. -/
theorem compound
    {whole : List Statement -> Statement}
    (header : String)
    (isWhole : ∀ level body, (whole body).lines level =
      Statement.line level header :: Statement.linesOf (level + 1) body)
    (body : Alike statements others) :
    Alike [whole statements] [whole others] := by
  intro level
  rw [linesOf_singleton, linesOf_singleton, isWhole, isWhole]
  exact .cons (Or.inl rfl) (body (level + 1))

/-- Statements for the parts of a list are alike when those for each part are. -/
theorem flatMap
    {Part : Type}
    (write : Part -> List Statement)
    (change : Part -> Part)
    (each : ∀ part, Alike (write part) (write (change part)))
    (parts : List Part) :
    Alike (parts.flatMap write) ((parts.map change).flatMap write) := by
  induction parts with
  | nil => exact refl []
  | cons part parts hypothesis => exact (each part).append hypothesis

end Alike

/-! ## Strategies with other identities -/

end Python

/-- An action rule without the identity of its node. -/
def ActionRule.withoutNode (rule : ActionRule) : ActionRule :=
  { rule with node := "" }

/-- A risk exit without the identity of its node. -/
def ExitRule.withoutNode (rule : ExitRule) : ExitRule :=
  { rule with node := "" }

/-- A state slot without the identity of a node. -/
def StateSlot.withoutNode : StateSlot -> StateSlot
  | .entryPrice => .entryPrice
  | .trailingStop _ => .trailingStop ""

namespace Strategy

/-- A strategy without the identities of nodes. -/
def withoutNodes (strategy : Strategy) : Strategy where
  indicators := strategy.indicators
  actions := strategy.actions.map ActionRule.withoutNode
  exits := strategy.exits.map ExitRule.withoutNode
  stateSlots := strategy.stateSlots.map StateSlot.withoutNode

/-- Two strategies differ in nothing but the identities of nodes. -/
def DiffersInNodes (strategy other : Strategy) : Prop :=
  strategy.withoutNodes = other.withoutNodes

end Strategy

namespace Python

open Backtest (Code Statement)

section

variable (strategy : Strategy)

theorem historyRequired_withoutNodes :
    strategy.withoutNodes.historyRequired = strategy.historyRequired := by
  have offsets : strategy.withoutNodes.requiredOffsets = strategy.requiredOffsets := by
    simp [Strategy.withoutNodes, Strategy.requiredOffsets, ActionRule.withoutNode,
      List.filterMap_map, Function.comp_def]
  rw [Strategy.historyRequired, offsets, Strategy.historyRequired]

theorem rulesOf_withoutNodes (direction : Direction) :
    Backtest.rulesOf direction strategy.withoutNodes =
      (Backtest.rulesOf direction strategy).map ActionRule.withoutNode := by
  rw [Backtest.rulesOf, Strategy.withoutNodes, List.filter_map]
  rfl

theorem trailingRules_withoutNodes :
    Backtest.trailingRules strategy.withoutNodes =
      (Backtest.trailingRules strategy).map fun entry => (entry.1, entry.2.withoutNode) := by
  simp [Strategy.withoutNodes, Backtest.trailingRules, List.mapIdx_eq_zipIdx_map, List.zipIdx_map,
    List.filter_map, Function.comp_def, ExitRule.withoutNode, ExitRule.isTrailing]

/-! ## Parts of a script -/

/-- Checks of risk exits differ in their first remarks only. -/
theorem alike_exitCheck (index : Nat) (rule : ExitRule) :
    Alike (Backtest.exitCheck index rule) (Backtest.exitCheck index rule.withoutNode) := by
  have isRemark : ∀ node, IsRemark (rule.kind.text ++ " " ++ Quoted.encode node) := by
    intro node
    refine .append ?_ (isRemark_encode node)
    cases rule.kind <;> decide
  exact .remark (isRemark rule.node) (isRemark "") (.refl _)

theorem alike_exitRuleCheck (rule : ActionRule) :
    Alike (Backtest.exitRuleCheck rule) (Backtest.exitRuleCheck rule.withoutNode) :=
  .remark (isRemark_encode rule.node) (isRemark_encode "") (.refl _)

theorem alike_entryRuleCheck (rule : ActionRule) :
    Alike (Backtest.entryRuleCheck rule) (Backtest.entryRuleCheck rule.withoutNode) :=
  .remark (isRemark_encode rule.node) (isRemark_encode "") (.refl _)

/-- Checks of risk exits are alike one by one, in the positions that they have. -/
theorem alike_exitChecks
    {write : Nat -> ExitRule -> List Statement}
    (each : ∀ index rule, Alike (write index rule) (write index rule.withoutNode))
    (exits : List ExitRule) :
    Alike (exits.mapIdx write).flatten ((exits.map ExitRule.withoutNode).mapIdx write).flatten := by
  induction exits generalizing write with
  | nil => exact .refl []
  | cons rule exits hypothesis =>
      rw [List.map_cons, List.mapIdx_cons, List.mapIdx_cons]
      exact (each 0 rule).append (hypothesis fun index => each (index + 1))

theorem alike_declarations :
    Alike [Backtest.declarations strategy] [Backtest.declarations strategy.withoutNodes] := by
  refine .compound _ (fun _ _ => rfl) (.cons _ (.append ?_ (.refl _)))
  rw [trailingRules_withoutNodes, List.map_eq_flatMap, List.map_eq_flatMap]
  refine .flatMap _ _ (fun entry => ?_) _
  exact .note _ _ (isRemark_encode entry.2.node) (isRemark_encode "")

theorem alike_holding :
    Alike (Backtest.holding strategy) (Backtest.holding strategy.withoutNodes) := by
  refine .append (.append ?_ ?_) (.refl _)
  · exact alike_exitChecks alike_exitCheck strategy.exits
  · rw [rulesOf_withoutNodes]
    exact .flatMap _ _ alike_exitRuleCheck _

theorem alike_decisions :
    Alike [Backtest.decisions strategy] [Backtest.decisions strategy.withoutNodes] := by
  refine .compound _ (fun _ _ => rfl) (.append (.append ?_ (.cons _ ?_)) ?_)
  · rw [Backtest.waiting, Backtest.waiting, historyRequired_withoutNodes]
    exact .refl _
  · exact .compound _ (fun _ _ => rfl) (alike_holding strategy)
  · rw [rulesOf_withoutNodes]
    exact .flatMap _ _ alike_entryRuleCheck _

theorem resetting_withoutNodes (name : String) (parameters : List String) (price : Code) :
    Backtest.resetting name parameters price strategy.withoutNodes =
      Backtest.resetting name parameters price strategy := by
  rw [Backtest.resetting, Backtest.resetting, trailingRules_withoutNodes, List.map_map]
  rfl

theorem alike_statements (className : String) :
    Alike (Backtest.statements strategy className)
      (Backtest.statements strategy.withoutNodes className) := by
  refine .append (.refl _) (.cons _ (.cons _ (.compound _ (fun _ _ => rfl) ?_)))
  rw [resetting_withoutNodes, resetting_withoutNodes]
  exact (alike_declarations strategy).append
    (.cons _ ((alike_decisions strategy).append (.refl _)))

end

/-- The code of a script does not depend on the identities of nodes. -/
theorem codeLines_statements (ends : LineEnds) (strategy : Strategy) (className : String) :
    codeLines ends (Statement.script (Backtest.statements strategy className)) =
      codeLines ends (Statement.script (Backtest.statements strategy.withoutNodes className)) :=
  codeLines_join ends (alike_statements strategy className 0)

end Python

namespace Strategy

open Python

/-- Strategies that differ in nothing but the identities of nodes have scripts of as many
lines, and up to its first number sign every line of one is that of the other. -/
theorem script_indifferent_to_nodes
    {first second : Strategy}
    (differ : first.DiffersInNodes second)
    {className : String}
    (accepted : checkClassName className = .ok ())
    (ends : LineEnds) :
    ∃ text other,
      first.script className = .ok text ∧ second.script className = .ok other ∧
        (linesOf ends text).length = (linesOf ends other).length ∧
          (linesOf ends text).map codeOf = (linesOf ends other).map codeOf := by
  refine ⟨_, _, by rw [script, accepted]; rfl, by rw [script, accepted]; rfl, ?_⟩
  have same : codeLines ends (Backtest.Statement.script (Backtest.statements first className)) =
      codeLines ends (Backtest.Statement.script (Backtest.statements second className)) := by
    rw [codeLines_statements, codeLines_statements ends second, differ]
  exact ⟨by simpa [codeLines] using congrArg List.length same, same⟩

/-- A strategy with a rule of each direction and a trailing stop, under given identities. -/
def guardedBy (enter leave trail : NodeId) : Strategy where
  indicators := [.withDefaults .rsi]
  actions := [
    ⟨enter, .buy, .entry,
      .compare (.indicator (.withDefaults .rsi) 0) .less (.literal 30), .fixedCash 1000⟩,
    ⟨leave, .sell, .exit, .compare (.price .close 0) .greater (.price .high 1), .allAvailable⟩]
  exits := [⟨trail, .trailingStop, .percent, 5, none⟩]
  stateSlots := [.entryPrice, .trailingStop trail]

/-- The strategy under names. -/
def named : Strategy := guardedBy "enter" "leave" "trail"

/-- The strategy under texts that would end a quotation, a line or a remark. -/
def injected : Strategy :=
  guardedBy "#\n\"" "\"\r\nself.buy()\r" "\n    def next(self): return"

theorem script_indifferent_to_nodes_injected :
    named.DiffersInNodes injected ∧
      checkClassName "Guarded" = .ok () ∧
      ∃ text other,
        named.script "Guarded" = .ok text ∧ injected.script "Guarded" = .ok other ∧
          (linesOf .feedsAndReturns text).length = (linesOf .feedsAndReturns other).length ∧
            (linesOf .feedsAndReturns text).map codeOf =
              (linesOf .feedsAndReturns other).map codeOf := by
  have differ : named.DiffersInNodes injected := rfl
  have accepted : checkClassName "Guarded" = .ok () := by decide
  exact ⟨differ, accepted, script_indifferent_to_nodes differ accepted .feedsAndReturns⟩

end Strategy
end StrategyGraph
