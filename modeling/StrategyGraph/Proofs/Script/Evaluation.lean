import StrategyGraph.Proofs.Predicate.Truth
import StrategyGraph.Proofs.Script.Emission
import StrategyGraph.Proofs.Script.Machine

/-!
# Values of emitted terms

At a bar the terms of a script have the values that the rules of its strategy go by:
expressions the numbers they read, predicates whether they hold, levels of risk exits
where they lie.
-/

namespace StrategyGraph
namespace Python

open Backtest (Code)
open NumberText (isSigned unsigned)

/-- The number that is read where a double is written. -/
def reading (numeral : String -> ℚ) (x : Float) : ℚ :=
  if isSigned x then -numeral (unsigned x) else numeral (unsigned x)

/-- Whether counts read back, as far as all numbers are written digit by digit. -/
def ReadsCounts (numeral : String -> ℚ) : Prop :=
  ∀ count < NumberText.wholeBound, numeral count.repr = count

/-- Whether doubles read back as the numbers they are. -/
def ReadsBack (numeral : String -> ℚ) (numbers : List Float) : Prop :=
  ∀ x ∈ numbers, reading numeral x = Binary64.exact x

/-- A scope of a method of the instance that has the series of a strategy. -/
structure Scope.Ready (scope : Scope) (declared : List IndicatorSeries) : Prop where
  self : scope.value? "self" = some .self
  library : scope.value? "np" = some (.library "numpy")
  length : scope.value? "len" = some (.builtin .len)
  whole : scope.value? "int" = some (.builtin .int)
  series : ∀ key ∈ declared.map IndicatorSeries.key,
    scope.attributes key = some (.series key)

/-- A scope stays ready where what methods go by stays. -/
theorem Scope.Ready.of_eq
    {scope other : Scope}
    {declared : List IndicatorSeries}
    (ready : scope.Ready declared)
    (names : ∀ name ∈ ["self", "np", "len", "int"], other.value? name = scope.value? name)
    (attributes : ∀ series : IndicatorSeries,
      other.attributes series.key = scope.attributes series.key) :
    other.Ready declared where
  self := (names "self" (by simp)).trans ready.self
  library := (names "np" (by simp)).trans ready.library
  length := (names "len" (by simp)).trans ready.length
  whole := (names "int" (by simp)).trans ready.whole
  series key isKey := by
    obtain ⟨series, _, rfl⟩ := List.mem_map.1 isKey
    exact (attributes series).trans (ready.series _ isKey)

/-! ## Groups -/

section

variable {here : Surroundings} {scope : Scope}

theorem eval_grouped_conjunction {terms : List Term} (nonempty : terms ≠ []) :
    eval here scope (grouped .conjunction terms) = evalUntil here scope false terms := by
  match terms with
  | [] => exact absurd rfl nonempty
  | [only] => exact (evalUntil_singleton false only).symm
  | first :: second :: others => rw [grouped, eval]; simp

theorem eval_grouped_disjunction {terms : List Term} (nonempty : terms ≠ []) :
    eval here scope (grouped .disjunction terms) = evalUntil here scope true terms := by
  match terms with
  | [] => exact absurd rfl nonempty
  | [only] => exact (evalUntil_singleton true only).symm
  | first :: second :: others => rw [grouped, eval]; simp

theorem eval_conjunction {codes : List Code} (nonempty : codes ≠ []) :
    eval here scope (term (.conjunction codes)) =
      evalUntil here scope false (codes.map term) := by
  rw [term, terms_eq_map]
  exact eval_grouped_conjunction (by simpa using nonempty)

theorem eval_disjunction {codes : List Code} (nonempty : codes ≠ []) :
    eval here scope (term (.disjunction codes)) =
      evalUntil here scope true (codes.map term) := by
  rw [term, terms_eq_map]
  exact eval_grouped_disjunction (by simpa using nonempty)

theorem eval_negation
    {code : Code}
    {holds : Bool}
    (isTruth : eval here scope (term code) = some (.truth holds)) :
    eval here scope (term (.negation code)) = some (.truth !holds) := by
  rw [term, eval, isTruth]
  rfl

theorem eval_comparison
    {left right : Code}
    {first second : Exact}
    (isFirst : eval here scope (term left) = some (.number first))
    (isSecond : eval here scope (term right) = some (.number second))
    (relation : Relation) :
    eval here scope (term (.comparison left relation right)) =
      some (.truth (relation.holds first second)) := by
  rw [term, eval, isFirst, isSecond]
  rfl

theorem eval_arithmetic
    {left right : Code}
    {first second : Exact}
    (isFirst : eval here scope (term left) = some (.number first))
    (isSecond : eval here scope (term right) = some (.number second))
    (operation : Backtest.Arithmetic) :
    eval here scope (term (.arithmetic left operation right)) =
      Value.arithmetic operation (.number first) (.number second) := by
  rw [term, eval, isFirst, isSecond]
  rfl

variable (scope) in
theorem eval_count
    (counts : ReadsCounts here.numeral)
    {count : Nat}
    (small : count < NumberText.wholeBound) :
    eval here scope (term (.count count)) = some (.number (.number count)) := by
  rw [term, eval, counts count small]

variable (scope) in
theorem eval_number
    {x : Float}
    (finite : x.isFinite = true)
    (reads : reading here.numeral x = Binary64.exact x) :
    eval here scope (term (.number x)) = some (.number (Quantity.ofFloat x)) := by
  rw [term, numberTerm, if_pos finite, Exact.ofFloat_of_isFinite finite, ← reads, reading]
  cases isSigned x with
  | false =>
      rw [if_neg Bool.false_ne_true, if_neg Bool.false_ne_true, eval]
  | true =>
      rw [if_pos rfl, if_pos rfl, eval, eval]
      rfl

end

/-! ## Attributes -/

theorem term_own (field : String) :
    term (Code.own field) = .attribute (.name "self") field :=
  rfl

section

variable
  {here : Surroundings}
  {scope : Scope}
  {declared : List IndicatorSeries}
  (ready : scope.Ready declared)

include ready

theorem eval_own
    {field : String}
    (notData : field ≠ "data")
    (notPosition : field ≠ "position") :
    eval here scope (term (Code.own field)) = scope.attributes field := by
  rw [term_own, eval, eval_name, ready.self, Option.bind_some, Value.member, if_neg notData,
    if_neg notPosition]

theorem eval_market : eval here scope (term (Code.own "data")) = some .market := by
  rw [term_own, eval, eval_name, ready.self]
  rfl

variable (here) in
theorem eval_position : eval here scope (term Backtest.position) = some .position := by
  rw [Backtest.position, term_own, eval, eval_name, ready.self]
  rfl

theorem eval_columnCode (column : Column) :
    eval here scope (term (Backtest.columnCode column)) = some (.series column.key) := by
  rw [Backtest.columnCode, term, eval, eval_market ready]
  cases column <;> rfl

theorem eval_key
    {series : IndicatorSeries}
    (isDeclared : series.key ∈ declared.map IndicatorSeries.key) :
    eval here scope (term (Code.own series.key)) = some (.series series.key) := by
  rw [eval_own ready (key_ne (by decide) series) (key_ne (by decide) series)]
  exact ready.series series.key isDeclared

omit ready

/-- The item some places from the end is as many places before the count. -/
theorem place?_negative
    {count position : Nat}
    (positive : 0 < position)
    (bounded : position <= count) :
    Value.place? count (-(position : ℚ)) = some (count - position) := by
  have whole : (-(position : ℚ)).den = 1 := by simp
  have number : (-(position : ℚ)).num = -(position : Int) := by simp
  rw [Value.place?, if_pos whole, number, if_neg (by omega)]
  simp [bounded]

/-- A number back is counted from the bar. -/
theorem eval_itemFromEnd
    {owner : Code}
    {key : String}
    (isSeries : eval here scope (term owner) = some (.series key))
    (counts : ReadsCounts here.numeral)
    {back : Nat}
    (reached : back <= here.bar)
    (near : back <= largestBack) :
    eval here scope (term (.itemFromEnd owner (back + 1))) =
      (here.set.value? key (here.bar - back)).map .number := by
  have small : back + 1 < NumberText.wholeBound := by
    refine Nat.lt_of_le_of_lt (Nat.succ_le_succ near) ?_
    decide
  have place := place?_negative (Nat.succ_pos back) (Nat.succ_le_succ reached)
  rw [term, eval, isSeries, eval, eval, counts (back + 1) small]
  change Value.item here (.series key) (.number (.number (-((back + 1 : Nat) : ℚ)))) = _
  rw [Value.item, place, Nat.succ_sub_succ]
  rfl

include ready

/-- An expression has the value that it reads. -/
theorem eval_expressionCode
    {expression : Expression}
    (sound : expression.Sound declared)
    (counts : ReadsCounts here.numeral)
    (reached : ∀ offset ∈ expression.offset?, offset <= here.bar)
    (reads : ∀ constant, expression = .literal constant ->
      reading here.numeral constant = Binary64.exact constant) :
    eval here scope (term (Backtest.expressionCode expression)) =
      (expression.rawValue? here.set here.bar).map .number := by
  have position : ∀ offset, offset <= largestBack ->
      Expression.backPosition offset = offset + 1 := by
    intro offset near
    refine Nat.min_eq_left (Nat.le_trans (Nat.succ_le_succ near) ?_)
    decide
  cases expression with
  | price column offset =>
      have before := reached offset rfl
      rw [Backtest.expressionCode, position offset sound,
        eval_itemFromEnd (eval_columnCode ready column) counts before sound,
        Expression.rawValue?, SeriesSet.valueBack?, if_pos before]
  | indicator series offset =>
      have before := reached offset rfl
      rw [Backtest.expressionCode, position offset sound.2.2,
        eval_itemFromEnd (eval_key ready sound.2.1) counts before sound.2.2,
        Expression.rawValue?, SeriesSet.valueBack?, if_pos before]
  | literal constant => exact eval_number scope sound (reads constant rfl)

end

/-! ## Predicates -/

/-- Missing numbers stand in no relation, so it does not matter that comparisons leave
them out. -/
theorem compareHolds_eq
    {set : SeriesSet Exact}
    {bar : Nat}
    {left right : Expression}
    {first second : Exact}
    (readsFirst : left.rawValue? set bar = some first)
    (readsSecond : right.rawValue? set bar = some second)
    (relation : Relation) :
    Predicate.compareHolds left relation right set bar = relation.holds first second := by
  rw [Predicate.compareHolds, Expression.value?, Expression.value?, readsFirst, readsSecond]
  cases first with
  | missing => cases second <;> cases relation <;> rfl
  | number first =>
      cases second with
      | missing => cases relation <;> rfl
      | number second => rfl

/-- Whether the code of an expression has the number that the expression reads. -/
def Evaluates (here : Surroundings) (scope : Scope) (expression : Expression) : Prop :=
  ∃ value, expression.rawValue? here.set here.bar = some value ∧
    eval here scope (term (Backtest.expressionCode expression)) = some (.number value)

/-- A group is decided as soon as one of its operands decides it. -/
theorem evalUntil_truths
    {here : Surroundings}
    {scope : Scope}
    {Part : Type}
    {parts : List Part}
    {code : Part -> Code}
    {holds : Part -> Bool}
    (deciding : Bool)
    (nonempty : parts ≠ [])
    (each : ∀ part ∈ parts, eval here scope (term (code part)) = some (.truth (holds part))) :
    evalUntil here scope deciding ((parts.map code).map term) =
      some (.truth ((parts.any fun part => holds part == deciding) == deciding)) := by
  induction parts with
  | nil => exact absurd rfl nonempty
  | cons part parts hypothesis =>
      have first := each part List.mem_cons_self
      rw [List.map_cons, List.map_cons, List.any_cons]
      by_cases decides : holds part = deciding
      · rw [decides] at first
        rw [evalUntil_of_decides first, decides]
        simp
      · have passes : holds part = !deciding := Bool.eq_not.2 decides
        rw [passes] at first
        cases parts with
        | nil =>
            rw [List.map_nil, List.map_nil, evalUntil_singleton, first, passes]
            cases deciding <;> rfl
        | cons second parts =>
            have others := hypothesis (List.cons_ne_nil second parts) fun other member =>
              each other (List.mem_cons_of_mem part member)
            rw [evalUntil_of_passes first (by simp), others, passes]
            cases deciding <;> simp

/-- A predicate is true where it holds. -/
theorem eval_predicateCode
    {here : Surroundings}
    {scope : Scope}
    {declared : List IndicatorSeries}
    {predicate : Predicate}
    (sound : predicate.Sound declared)
    (evaluates : ∀ expression ∈ predicate.expressions, Evaluates here scope expression) :
    eval here scope (term (Backtest.predicateCode predicate)) =
      some (.truth (predicate.holds here.set here.bar)) := by
  induction sound with
  | always => rfl
  | @compare left relation right _ _ =>
      obtain ⟨first, readsFirst, isFirst⟩ := evaluates left List.mem_cons_self
      obtain ⟨second, readsSecond, isSecond⟩ :=
        evaluates right (List.mem_cons_of_mem left List.mem_cons_self)
      rw [Backtest.predicateCode, eval_comparison isFirst isSecond, Predicate.holds,
        compareHolds_eq readsFirst readsSecond]
  | @all parts nonempty _ hypothesis =>
      have truths := evalUntil_truths false nonempty fun part member =>
        hypothesis part member fun expression inside =>
          evaluates expression (Predicate.mem_expressionsOf_iff.2 ⟨part, member, inside⟩)
      rw [Backtest.predicateCode, term, predicateCodes_eq_map,
        eval_conjunction (by simpa using nonempty), truths, Predicate.holds,
        Predicate.allHold_eq_all]
      simp [List.not_all_eq_any_not]
  | @any parts nonempty _ hypothesis =>
      have truths := evalUntil_truths true nonempty fun part member =>
        hypothesis part member fun expression inside =>
          evaluates expression (Predicate.mem_expressionsOf_iff.2 ⟨part, member, inside⟩)
      rw [Backtest.predicateCode, term, predicateCodes_eq_map,
        eval_disjunction (by simpa using nonempty), truths, Predicate.holds,
        Predicate.anyHolds_eq_any]
      simp
  | negation _ hypothesis => exact eval_negation (hypothesis evaluates)

/-! ## Levels of risk exits -/

section

variable
  {here : Surroundings}
  {scope : Scope}
  {declared : List IndicatorSeries}
  (ready : scope.Ready declared)
  (counts : ReadsCounts here.numeral)

include ready counts

theorem eval_latest
    {series : IndicatorSeries}
    (isDeclared : series.key ∈ declared.map IndicatorSeries.key) :
    eval here scope (term (Backtest.latest series)) =
      (here.set.value? series.key here.bar).map .number := by
  have item := eval_itemFromEnd (eval_key ready isDeclared) counts (Nat.zero_le here.bar)
    (Nat.zero_le largestBack)
  exact item

omit counts

theorem eval_isMissing
    {code : Code}
    {quantity : Exact}
    (isNumber : eval here scope (term code) = some (.number quantity)) :
    eval here scope (term (Backtest.isMissing code)) = some (.truth quantity.isMissing) := by
  have function : eval here scope (.attribute (.name "np") "isnan") =
      some (.builtin .isnan) := by
    rw [eval, eval_name, ready.library]
    rfl
  have arguments : evalEach here scope [term code] = some [.number quantity] := by
    rw [evalEach, isNumber]
    rfl
  change eval here scope (.call (.attribute (.name "np") "isnan") [term code]) = _
  rw [eval, function, arguments]
  rfl

omit ready

variable {rule : ExitRule} (sound : rule.Sound declared)

theorem eval_signedSum
    {first second : Code}
    {reference distance : ℚ}
    (isReference : eval here scope (term first) = some (.number (.number reference)))
    (isDistance : eval here scope (term second) = some (.number (.number distance))) :
    eval here scope (term (.arithmetic first (Backtest.levelOperation rule) second)) =
      some (.number (.number
        (if rule.kind.isStop then reference - distance else reference + distance))) := by
  rw [eval_arithmetic isReference isDistance, Backtest.levelOperation]
  cases rule.kind.isStop <;> rfl

include ready counts sound

/-- The code of a level has the level of the rule for its value. -/
theorem eval_levelCode
    (reads : reading here.numeral rule.magnitude = Binary64.exact rule.magnitude)
    {reference : Code}
    {price : ℚ}
    (isPrice : eval here scope (term reference) = some (.number (.number price)))
    {range : Option Exact}
    (ranges : ∀ series ∈ rule.atr, ∃ width,
      here.set.value? series.key here.bar = some (.number width) ∧
        range = some (.number width)) :
    ∃ level, rule.level? (.number price) range = some (.number level) ∧
      eval here scope (term (Backtest.levelCode rule reference)) =
        some (.number (.number level)) := by
  have magnitude := eval_number scope sound.finite reads
  have number : (Quantity.ofFloat rule.magnitude : Exact) =
      .number (Binary64.exact rule.magnitude) := Exact.ofFloat_of_isFinite sound.finite
  have level : ∀ distance : ℚ, (if rule.kind.isStop then
        Quantity.sub (Exact.number price) (.number distance)
      else Quantity.add (Exact.number price) (.number distance)) =
      .number (if rule.kind.isStop then price - distance else price + distance) := by
    intro distance
    cases rule.kind.isStop <;> rfl
  rw [number] at magnitude
  rw [ExitRule.level?, ExitRule.distance?, number, Exact.ofFloat_hundred]
  cases basis : rule.basis with
  | percent =>
      have one := eval_count scope counts (show 1 < NumberText.wholeBound by decide)
      have whole := eval_count scope counts (show 100 < NumberText.wholeBound by decide)
      have ratio : eval here scope
          (term (.arithmetic (.number rule.magnitude) .div (.count 100))) =
            some (.number (.number (Binary64.exact rule.magnitude / 100))) := by
        rw [eval_arithmetic magnitude whole, Value.arithmetic, if_neg (by simp)]
        rfl
      have factor : eval here scope
          (term (.enclosed (.arithmetic (.count 1) (Backtest.levelOperation rule)
            (.arithmetic (.number rule.magnitude) .div (.count 100))))) = _ :=
        eval_signedSum one ratio
      refine ⟨_, congrArg some (level _), ?_⟩
      simp only [Backtest.levelCode, basis]
      rw [eval_arithmetic isPrice factor, Value.arithmetic]
      cases rule.kind.isStop with
      | true =>
          simp only [if_true, Exact.mul_number]
          ring_nf
      | false =>
          simp only [Bool.false_eq_true, if_false, Exact.mul_number]
          ring_nf
  | fixedAmount =>
      refine ⟨_, congrArg some (level _), ?_⟩
      simp only [Backtest.levelCode, basis]
      exact eval_signedSum isPrice magnitude
  | atrMultiple =>
      obtain ⟨series, isRange⟩ := Option.isSome_iff_exists.1 (sound.range.2 basis)
      obtain ⟨width, supplied, rfl⟩ := ranges series isRange
      have latest := eval_latest ready counts (sound.isDeclared series isRange).2
      rw [supplied, Option.map_some] at latest
      have product : eval here scope
          (term (.arithmetic (.number rule.magnitude) .mul (Backtest.latest series))) =
            some (.number (.number (Binary64.exact rule.magnitude * width))) := by
        rw [eval_arithmetic magnitude latest]
        rfl
      refine ⟨_, congrArg some (level _), ?_⟩
      simp only [Backtest.levelCode, basis, isRange]
      exact eval_signedSum isPrice product

end

end Python
end StrategyGraph
