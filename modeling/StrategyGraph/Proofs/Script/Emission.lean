import StrategyGraph.Proofs.Compile.Sound
import StrategyGraph.Proofs.Script.Layout
import StrategyGraph.Proofs.Text.Quoted

/-!
# Emitted scripts

The script of a sound strategy can be read: it is made of readable statements, and
they stand for the instructions it is read as.
-/

namespace StrategyGraph
namespace Python

open Backtest (Code Statement)

/-! ## Remarks -/

/-- Characters that end a line or a script are written in other ones. -/
theorem allowedInRemark_encodeCharacter (character : Char) :
    ∀ written ∈ Quoted.encodeCharacter character, allowedInRemark written = true := by
  have digits : ∀ written ∈ Nat.toDigits 16 character.toNat, allowedInRemark written = true :=
    Quoted.forall_mem_toDigits (by decide) character.toNat
  have escape : ∀ letter ∈ ['0', 't', 'n', 'r', '\"', '\\'],
      ∀ written ∈ ['\\', letter], allowedInRemark written = true := by
    intro letter isLetter
    have allowed : allowedInRemark letter = true := List.all_eq_true.1 (by decide) letter isLetter
    exact List.forall_mem_cons.2 ⟨by decide, List.forall_mem_singleton.2 allowed⟩
  rw [Quoted.encodeCharacter]
  split
  next => exact escape '0' (by decide)
  next notZero =>
    split
    next => exact escape 't' (by decide)
    next =>
      split
      next => exact escape 'n' (by decide)
      next notNewline =>
        split
        next => exact escape 'r' (by decide)
        next notReturn =>
          split
          next => exact escape '\"' (by decide)
          next =>
            split
            next => exact escape '\\' (by decide)
            next =>
              split
              next =>
                intro written member
                rw [List.mem_singleton.1 member]
                simp [allowedInRemark, notZero, notNewline, notReturn]
              next =>
                intro written member
                simp only [List.mem_cons, List.mem_append, List.not_mem_nil, or_false] at member
                rcases member with rfl | rfl | rfl | digit | rfl
                · decide
                · decide
                · decide
                · exact digits written digit
                · decide

/-- Quoted texts may stand in remarks. -/
theorem isRemark_encode (content : String) : IsRemark (Quoted.encode content) := by
  intro character member
  rw [Quoted.encode, String.toList_ofList] at member
  rcases List.mem_cons.1 member with rfl | behind
  · decide
  · rcases List.mem_append.1 behind with inside | quote
    · obtain ⟨original, _, written⟩ := List.mem_flatMap.1 inside
      exact allowedInRemark_encodeCharacter original character written
    · rw [List.mem_singleton.1 quote]
      decide

theorem IsRemark.append
    {first second : String}
    (isFirst : IsRemark first)
    (isSecond : IsRemark second) :
    IsRemark (first ++ second) := by
  intro character member
  rw [String.toList_append, List.mem_append] at member
  rcases member with inFirst | inSecond
  · exact isFirst character inFirst
  · exact isSecond character inSecond

/-! ## Terms -/

variable {declared : List IndicatorSeries}

/-- Names of trailing levels can name attributes. -/
theorem isField_trailing (index : Nat) : IsField ("trail_" ++ index.repr) := by
  constructor
  · rw [String.toList_append]
    refine (isWord_of_isIdentifier (by decide)).append fun character member => ?_
    rw [Nat.toList_repr] at member
    exact continuesWord_of_isDigit (Decimal.isDigit_of_mem_digitsOf member)
  · rw [← Bool.not_eq_true, List.contains_iff_mem]
    intro isKeyword
    refine underscore_not_mem_keyword _ isKeyword ?_
    rw [String.toList_append]
    exact List.mem_append_left _ (by decide)

theorem readable_entryPrice : Readable 0 Backtest.entryPrice :=
  readable_own (isField_of_isIdentifier (by decide))

theorem readable_position : Readable 0 Backtest.position :=
  readable_own (isField_of_isIdentifier (by decide))

theorem readable_close : Readable 0 Backtest.close :=
  readable_name (isField_of_isIdentifier (by decide))

theorem readable_trailingLevel (index : Nat) : Readable 0 (Backtest.trailingLevel index) :=
  readable_own (isField_trailing index)

theorem readable_none : Readable 0 Code.none :=
  .name ⟨isWord_of_isIdentifier (by decide), by decide⟩

theorem readable_latest
    {series : IndicatorSeries}
    (unsigned : series.Unsigned) :
    Readable 0 (Backtest.latest series) :=
  .itemFromEnd (readable_own (isField_key unsigned))

theorem readable_isMissing
    {value : Code}
    (readable : Readable 0 value) :
    Readable 0 (Backtest.isMissing value) := by
  refine .call (.member (readable_name (isField_of_isIdentifier (by decide)))
    (isField_of_isIdentifier (by decide))) fun argument member => ?_
  rw [List.mem_singleton.1 member]
  exact readable.mono (by decide)

theorem readable_expressionCode
    {expression : Expression}
    (sound : expression.Sound declared) :
    Readable 1 (Backtest.expressionCode expression) := by
  cases expression with
  | price column offset => exact .looser (.itemFromEnd (readable_columnCode column))
  | indicator series offset => exact .looser (.itemFromEnd (readable_own (isField_key sound.1)))
  | literal constant => exact .number sound

theorem predicateCodes_eq_map (parts : List Predicate) :
    Backtest.predicateCodes parts = parts.map Backtest.predicateCode := by
  induction parts with
  | nil => rfl
  | cons part parts hypothesis => rw [Backtest.predicateCodes, hypothesis, List.map_cons]

/-- Predicates can stand in groups and behind negations. -/
theorem readable_predicateCode
    {predicate : Predicate}
    (sound : predicate.Sound declared) :
    Readable 5 (Backtest.predicateCode predicate) := by
  induction sound with
  | always =>
      have truth : IsName "True" := ⟨isWord_of_isIdentifier (by decide), by decide⟩
      exact (Readable.name truth).mono (by decide)
  | compare left right =>
      have readsLeft := (readable_expressionCode left).mono (show 1 <= 3 by decide)
      have readsRight := (readable_expressionCode right).mono (show 1 <= 3 by decide)
      exact .looser (.comparison readsLeft readsRight)
  | @all parts nonempty _ hypothesis =>
      have group : Readable 6 (.conjunction (Backtest.predicateCodes parts)) := by
        rw [predicateCodes_eq_map]
        refine .conjunction (by simpa using nonempty) fun operand member => ?_
        obtain ⟨part, listed, rfl⟩ := List.mem_map.1 member
        exact hypothesis part listed
      exact (Readable.enclosed (group.mono (by decide))).mono (by decide)
  | @any parts nonempty _ hypothesis =>
      have group : Readable 7 (.disjunction (Backtest.predicateCodes parts)) := by
        rw [predicateCodes_eq_map]
        refine .disjunction (by simpa using nonempty) fun operand member => ?_
        obtain ⟨part, listed, rfl⟩ := List.mem_map.1 member
        exact (hypothesis part listed).looser
      exact (Readable.enclosed (group.mono (by decide))).mono (by decide)
  | negation _ hypothesis =>
      exact .negation ((Readable.enclosed (hypothesis.mono (by decide))).mono (by decide))

section

variable {rule : ExitRule} (sound : rule.Sound declared)

theorem isSum_levelOperation (rule : ExitRule) :
    Item.sumSign? (.operation (Backtest.levelOperation rule)) =
      some (Backtest.levelOperation rule) := by
  rw [Backtest.levelOperation]
  cases rule.kind.isStop <;> rfl

include sound

theorem readable_levelCode
    {reference : Code}
    (readable : Readable 0 reference) :
    Readable 3 (Backtest.levelCode rule reference) := by
  have isSum := isSum_levelOperation rule
  have magnitude : Readable 1 (.number rule.magnitude) := .number sound.finite
  rw [Backtest.levelCode]
  split
  next =>
    have ratio : Readable 2 (.arithmetic (.number rule.magnitude) .div (.count 100)) :=
      .product rfl magnitude.looser (Readable.count.mono (by decide))
    have factor : Readable 3
        (.arithmetic (.count 1) (Backtest.levelOperation rule)
          (.arithmetic (.number rule.magnitude) .div (.count 100))) :=
      .sum isSum (Readable.count.mono (by decide)) ratio
    have enclosed := Readable.enclosed (factor.mono (show 3 <= 8 by decide))
    exact .looser (.product rfl (readable.mono (by decide)) enclosed.looser)
  next series _ range =>
    have latest := readable_latest (sound.isDeclared series range).1
    have product : Readable 2
        (.arithmetic (.number rule.magnitude) .mul (Backtest.latest series)) :=
      .product rfl magnitude.looser latest.looser
    exact .sum isSum (readable.mono (by decide)) product
  next => exact .sum isSum (readable.mono (by decide)) magnitude.looser

theorem readable_guards : ∀ guard ∈ Backtest.guards rule, Readable 5 guard := by
  intro guard member
  obtain ⟨series, isRange, rfl⟩ := List.mem_map.1 member
  have latest := readable_latest (sound.isDeclared series (Option.mem_toList.1 isRange)).1
  exact .negation ((readable_isMissing latest).mono (by decide))

end

/-! ## Statements -/

theorem readable_closing : ∀ statement ∈ Backtest.closing, ReadableStatement statement := by
  have none : ∀ argument ∈ ([] : List Code), Readable 9 argument := by simp
  intro statement member
  simp only [Backtest.closing, List.mem_cons, List.not_mem_nil, or_false] at member
  rcases member with rfl | rfl | rfl
  · exact .evaluate (.call (.member readable_position (isField_of_isIdentifier (by decide))) none)
  · exact .evaluate (.call (readable_own (isField_of_isIdentifier (by decide))) none)
  · exact .leave

theorem acts_closing (remark : Option String) :
    allInstructions remark Backtest.closing ≠ [] := by
  simp [Backtest.closing, allInstructions, instructions]

/-- A condition and the statements that close the position. -/
theorem readable_closingIf
    {condition : Code}
    (readable : Readable 8 condition) :
    ReadableStatement (.conditional condition Backtest.closing) :=
  .conditional readable acts_closing readable_closing

/-- An assignment without a remark behind it. -/
theorem readable_assign
    {target value : Code}
    (readsTarget : Readable 0 target)
    (readsValue : Readable 8 value) :
    ReadableStatement (.assign target value none) :=
  .assign readsTarget readsValue (by simp)

theorem forall_mem_pair
    {Item : Type}
    {holds : Item -> Prop}
    {first second : Item}
    (isFirst : holds first)
    (isSecond : holds second) :
    ∀ item ∈ [first, second], holds item := by
  intro item member
  rcases List.mem_cons.1 member with rfl | later
  · exact isFirst
  · rw [List.mem_singleton.1 later]
    exact isSecond

section

variable {rule : ExitRule} (sound : rule.Sound declared) (index : Nat)

include sound

theorem readable_ratcheting :
    ∀ statement ∈ Backtest.ratcheting index rule, ReadableStatement statement := by
  have level := readable_trailingLevel index
  have candidate : Readable 0 (.name "candidate") :=
    readable_name (isField_of_isIdentifier (by decide))
  have unset : Readable 4 (.isNone (Backtest.trailingLevel index)) :=
    .isNone (level.mono (by decide))
  have above : Readable 4
      (.comparison (.name "candidate") .greater (Backtest.trailingLevel index)) :=
    .comparison (candidate.mono (by decide)) (level.mono (by decide))
  have condition := Readable.disjunction (List.cons_ne_nil _ _)
    (forall_mem_pair (unset.mono (show 4 <= 6 by decide)) (above.mono (show 4 <= 6 by decide)))
  refine forall_mem_pair (readable_assign candidate ?_)
    (.conditional (condition.mono (by decide)) ?_ ?_)
  · exact (readable_levelCode sound readable_close).mono (by decide)
  · simp [allInstructions, instructions]
  · intro statement member
    rw [List.mem_singleton.1 member]
    exact readable_assign level (candidate.mono (by decide))

theorem readable_trailingCheck :
    ∀ statement ∈ Backtest.trailingCheck index rule, ReadableStatement statement := by
  have moving := readable_ratcheting sound index
  have level := readable_trailingLevel index
  have isSet : Readable 4 (.isNotNone (Backtest.trailingLevel index)) :=
    .isNotNone (level.mono (by decide))
  have reached : Readable 4
      (.comparison Backtest.close .atMost (Backtest.trailingLevel index)) :=
    .comparison (readable_close.mono (by decide)) (level.mono (by decide))
  intro statement member
  rw [Backtest.trailingCheck] at member
  rcases List.mem_append.1 member with inMoving | isCheck
  · split at inMoving
    next => exact moving statement inMoving
    next series range =>
      rw [List.mem_singleton.1 inMoving]
      have latest := readable_latest (sound.isDeclared series range).1
      have available : Readable 5 (.negation (Backtest.isMissing (Backtest.latest series))) :=
        .negation ((readable_isMissing latest).mono (by decide))
      refine .conditional (available.mono (by decide)) ?_ moving
      simp [Backtest.ratcheting, allInstructions, instructions]
  · rw [List.mem_singleton.1 isCheck]
    refine readable_closingIf ((Readable.conjunction (by simp) fun operand inGroup => ?_).mono
      (show 6 <= 8 by decide))
    rcases List.mem_append.1 inGroup with isGuard | later
    · exact readable_guards sound operand isGuard
    · exact forall_mem_pair isSet.looser reached.looser operand later

theorem readable_fixedCheck :
    ∀ statement ∈ Backtest.fixedCheck rule, ReadableStatement statement := by
  have reached : ∀ relation, Readable 4
      (.comparison Backtest.close relation (Backtest.levelCode rule Backtest.entryPrice)) :=
    fun relation => .comparison (readable_close.mono (by decide))
      (readable_levelCode sound readable_entryPrice)
  intro statement member
  rw [List.mem_singleton.1 member]
  refine readable_closingIf ((Readable.conjunction (by simp) fun operand inGroup => ?_).mono
    (show 6 <= 8 by decide))
  rcases List.mem_append.1 inGroup with isGuard | later
  · exact readable_guards sound operand isGuard
  · rw [List.mem_singleton.1 later]
    exact (reached _).looser

/-- Statements that try a risk exit can be read. -/
theorem readable_exitCheck :
    ∀ statement ∈ Backtest.exitCheck index rule, ReadableStatement statement := by
  have kind : IsRemark (rule.kind.text ++ " ") := by
    cases rule.kind <;> decide
  intro statement member
  rcases List.mem_cons.1 member with rfl | later
  · exact .remark (kind.append (isRemark_encode rule.node))
  · split at later
    next => exact readable_trailingCheck sound index statement later
    next => exact readable_fixedCheck sound statement later

end

/-- Statements that try an exit rule of an action can be read. -/
theorem readable_exitRuleCheck
    {rule : ActionRule}
    (sound : rule.predicate.Sound declared) :
    ∀ statement ∈ Backtest.exitRuleCheck rule, ReadableStatement statement :=
  forall_mem_pair (.remark (isRemark_encode rule.node))
    (readable_closingIf ((readable_predicateCode sound).mono (by decide)))

theorem readable_quotient
    {amount : Float}
    (finite : amount.isFinite = true) :
    Readable 2 (.arithmetic (.number amount) .floorDiv Backtest.close) :=
  .product rfl (Readable.number finite).looser (readable_close.mono (by decide))

theorem readable_sizeGuards
    {sizing : Sizing}
    (sound : sizing.Sound) :
    ∀ guard ∈ Backtest.sizeGuards sizing, Readable 5 guard := by
  intro guard member
  cases sizing with
  | fixedCash amount =>
      rw [List.mem_singleton.1 member]
      exact (Readable.comparison (readable_quotient sound.1).looser
        (Readable.count.mono (by decide))).looser
  | _ => cases member

/-- Sizes of orders can be read, unless nothing is ever bought. -/
theorem readable_orderSize
    {sizing : Sizing}
    (sound : sizing.Sound)
    (buys : Backtest.canBuy sizing = true) :
    ∀ size ∈ Backtest.orderSize? sizing, Readable 8 size := by
  intro size member
  cases sizing with
  | allAvailable => cases member
  | fixedShares shares =>
      cases member
      exact (Readable.number (Backtest.isFinite_wholeShares sound.1 sound.2)).mono (by decide)
  | fixedCash amount =>
      cases member
      refine (Readable.call (readable_name (isField_of_isIdentifier (by decide)))
        fun argument inCall => ?_).mono (show 0 <= 8 by decide)
      rw [List.mem_singleton.1 inCall]
      exact (readable_quotient sound.1).mono (by decide)
  | percentOfEquity percent =>
      cases member
      have positive : 0 < percent := by
        refine (Binary64.not_le_zero_iff sound).1 ?_
        simpa [Backtest.canBuy] using buys
      exact (Readable.number (Backtest.isFinite_equityFraction sound positive)).mono (by decide)

theorem readable_opening
    {sizing : Sizing}
    (sound : sizing.Sound)
    (buys : Backtest.canBuy sizing = true) :
    ∀ statement ∈ Backtest.opening sizing, ReadableStatement statement := by
  intro statement member
  simp only [Backtest.opening, List.mem_cons, List.not_mem_nil, or_false] at member
  rcases member with rfl | rfl | rfl
  · refine .evaluate (.call (readable_own (isField_of_isIdentifier (by decide)))
      fun argument inCall => ?_)
    obtain ⟨size, isSize, rfl⟩ := List.mem_map.1 inCall
    exact .keyword (isField_of_isIdentifier (by decide))
      (readable_orderSize sound buys size (Option.mem_toList.1 isSize))
  · refine .evaluate (.call (readable_own (isField_of_isIdentifier (by decide)))
      fun argument inCall => ?_)
    rw [List.mem_singleton.1 inCall]
    exact readable_close.mono (by decide)
  · exact .leave

/-- Statements that try an entry rule can be read. -/
theorem readable_entryRuleCheck
    {rule : ActionRule}
    (sound : rule.predicate.Sound declared)
    (sized : rule.sizing.Sound) :
    ∀ statement ∈ Backtest.entryRuleCheck rule, ReadableStatement statement := by
  intro statement member
  rcases List.mem_cons.1 member with rfl | later
  · exact .remark (isRemark_encode rule.node)
  · split at later
    next buys =>
      rw [List.mem_singleton.1 later]
      have condition : Readable 6
          (.conjunction (Backtest.predicateCode rule.predicate ::
            Backtest.sizeGuards rule.sizing)) := by
        refine .conjunction (List.cons_ne_nil _ _) fun operand inGroup => ?_
        rcases List.mem_cons.1 inGroup with rfl | isGuard
        · exact readable_predicateCode sound
        · exact readable_sizeGuards sized operand isGuard
      refine .conditional (condition.mono (by decide)) ?_ (readable_opening sized buys)
      simp [Backtest.opening, allInstructions, instructions]
    next =>
      rw [List.mem_singleton.1 later]
      have content : IsRemark "sizes to zero, never enters" := by decide
      exact .remark content

/-! ## Methods -/

section

variable {strategy : Strategy} (sound : strategy.Sound)

theorem readable_resetting
    {name : String}
    {parameters : List String}
    {price : Code}
    (isName : IsField name)
    (fields : ∀ parameter ∈ parameters, IsField parameter)
    (readable : Readable 8 price) :
    ReadableStatement (Backtest.resetting name parameters price strategy) := by
  refine .method isName ?_ ?_ ?_
  · intro parameter member
    rcases List.mem_cons.1 member with rfl | later
    · exact isField_of_isIdentifier (by decide)
    · exact fields parameter later
  · simp [allInstructions, instructions]
  · intro statement member
    rcases List.mem_cons.1 member with rfl | later
    · exact readable_assign readable_entryPrice readable
    · obtain ⟨entry, _, rfl⟩ := List.mem_map.1 later
      exact readable_assign (readable_trailingLevel entry.1) (readable_none.mono (by decide))

theorem readable_wait (count : Nat) :
    ReadableStatement
      (.conditional
        (.comparison (.call (.name "len") [Code.own "data"]) .less (.count count)) [.leave]) := by
  have length : Readable 0 (.call (.name "len") [Code.own "data"]) := by
    refine .call (readable_name (isField_of_isIdentifier (by decide))) fun argument member => ?_
    rw [List.mem_singleton.1 member]
    exact (readable_own (isField_of_isIdentifier (by decide))).mono (by decide)
  have condition : Readable 4
      (.comparison (.call (.name "len") [Code.own "data"]) .less (.count count)) :=
    .comparison (length.mono (by decide)) (Readable.count.mono (by decide))
  refine .conditional (condition.mono (by decide)) ?_ ?_
  · simp [allInstructions, instructions]
  · intro statement member
    rw [List.mem_singleton.1 member]
    exact .leave

theorem readable_imports (strategy : Strategy) :
    ∀ statement ∈ Backtest.imports strategy, ReadableStatement statement := by
  intro statement member
  rcases List.mem_cons.1 member with rfl | later
  · refine .importModule (isField_of_isIdentifier (by decide)) fun name isName => ?_
    cases isName
    exact isField_of_isIdentifier (by decide)
  · rcases List.mem_append.1 later with isLibrary | isBase
    · split at isLibrary
      next => cases isLibrary
      next =>
        rw [List.mem_singleton.1 isLibrary]
        exact .importModule (isField_of_isIdentifier (by decide)) (by simp)
    · rw [List.mem_singleton.1 isBase]
      exact .importFrom (isField_of_isIdentifier (by decide))
        (isField_of_isIdentifier (by decide))

include sound

theorem readable_declarations : ReadableStatement (Backtest.declarations strategy) := by
  have none := readable_none.mono (show 0 <= 8 by decide)
  refine .method (isField_of_isIdentifier (by decide)) ?_ ?_ ?_
  · intro parameter member
    rw [List.mem_singleton.1 member]
    exact isField_of_isIdentifier (by decide)
  · simp [allInstructions, instructions]
  · intro statement member
    rcases List.mem_cons.1 member with rfl | later
    · exact readable_assign readable_entryPrice none
    · rcases List.mem_append.1 later with isLevel | isSeries
      · obtain ⟨entry, _, rfl⟩ := List.mem_map.1 isLevel
        refine .assign (readable_trailingLevel entry.1) none fun content isNote => ?_
        cases isNote
        exact isRemark_encode entry.2.node
      · obtain ⟨series, listed, rfl⟩ := List.mem_map.1 isSeries
        have unsigned := sound.series series listed
        exact readable_assign (readable_own (isField_key unsigned))
          ((readable_declaration unsigned).mono (by decide))

theorem readable_holding :
    ∀ statement ∈ Backtest.holding strategy, ReadableStatement statement := by
  intro statement member
  rcases List.mem_append.1 member with checks | last
  · rcases List.mem_append.1 checks with isExit | isRule
    · obtain ⟨statements, listed, inside⟩ := List.mem_flatten.1 isExit
      obtain ⟨index, bound, rfl⟩ := List.mem_mapIdx.1 listed
      exact readable_exitCheck (sound.exits _ (List.getElem_mem bound)) index statement inside
    · obtain ⟨rule, listed, inside⟩ := List.mem_flatMap.1 isRule
      exact readable_exitRuleCheck (sound.predicates rule (List.mem_of_mem_filter listed))
        statement inside
  · rw [List.mem_singleton.1 last]
    exact .leave

theorem readable_decisions : ReadableStatement (Backtest.decisions strategy) := by
  refine .method (isField_of_isIdentifier (by decide)) ?_ ?_ ?_
  · intro parameter member
    rw [List.mem_singleton.1 member]
    exact isField_of_isIdentifier (by decide)
  · simp [allInstructions, instructions]
  · intro statement member
    rcases List.mem_append.1 member with before | isEntry
    · rcases List.mem_append.1 before with isWait | isHold
      · rw [Backtest.waiting] at isWait
        split at isWait
        next =>
          rw [List.mem_singleton.1 isWait]
          exact readable_wait strategy.historyRequired
        next => cases isWait
      · refine forall_mem_pair ?_ ?_ statement isHold
        · exact readable_assign readable_close
            ((Readable.itemFromEnd (readable_columnCode .close)).mono (by decide))
        · refine .conditional (readable_position.mono (by decide)) ?_ (readable_holding sound)
          simp [Backtest.holding, allInstructions, instructions]
    · obtain ⟨rule, listed, inside⟩ := List.mem_flatMap.1 isEntry
      have isRule := List.mem_of_mem_filter listed
      exact readable_entryRuleCheck (sound.predicates rule isRule) (sound.sizings rule isRule)
        statement inside

/-- The script of a sound strategy is made of readable statements. -/
theorem readable_statements
    {className : String}
    (accepted : isIdentifier className = true) :
    ∀ statement ∈ Backtest.statements strategy className, ReadableStatement statement := by
  intro statement member
  rcases List.mem_append.1 member with isImport | isClass
  · exact readable_imports strategy statement isImport
  · simp only [List.mem_cons, List.not_mem_nil, or_false] at isClass
    rcases isClass with rfl | rfl | rfl
    · exact .blank
    · exact .blank
    · refine .classOf (isWord_of_isIdentifier accepted) (isField_of_isIdentifier (by decide))
        ?_ fun statement inBody => ?_
      · simp [Backtest.declarations, allInstructions, instructions]
      · simp only [List.mem_cons, List.not_mem_nil, or_false] at inBody
        rcases inBody with rfl | rfl | rfl | rfl | rfl | rfl | rfl
        · exact readable_declarations sound
        · exact .blank
        · exact readable_decisions sound
        · exact .blank
        · refine readable_resetting (isField_of_isIdentifier (by decide)) ?_ ?_
          · intro parameter inList
            rw [List.mem_singleton.1 inList]
            exact isField_of_isIdentifier (by decide)
          · exact (readable_name (isField_of_isIdentifier (by decide))).mono (by decide)
        · exact .blank
        · refine readable_resetting (isField_of_isIdentifier (by decide)) (by simp) ?_
          exact readable_none.mono (by decide)

/-- The emitted text is read as the instructions of its statements. -/
theorem read_script_statements
    {className : String}
    (accepted : isIdentifier className = true) :
    read (Statement.script (Backtest.statements strategy className)) =
      some (allInstructions none (Backtest.statements strategy className)) :=
  read_script (readable_statements sound accepted)

/-- A script that is emitted is read as the instructions of its statements. -/
theorem read_of_script
    {className text : String}
    (emitted : strategy.script className = .ok text) :
    read text = some (allInstructions none (Backtest.statements strategy className)) := by
  obtain ⟨isClass, rendered⟩ := Outcome.check_then_eq_ok_iff.1 emitted
  cases rendered
  refine read_script_statements sound ?_
  rw [checkClassName] at isClass
  split at isClass
  next accepted => exact accepted
  next => cases isClass

end

end Python
end StrategyGraph
