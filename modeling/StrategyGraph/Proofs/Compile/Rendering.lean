import StrategyGraph.Proofs.Compile.Parameters
import StrategyGraph.Proofs.Compile.Shape
import StrategyGraph.Proofs.Predicate.Legible

/-!
# Rendered conditions

Reports and scripts render the conditions of compiled rules without ambiguity: compiled
predicates are legible, and columns and complete series go by different names in reports as
well as in scripts. So a rendered condition determines the condition, from whatever graph it
was compiled.

Main result: `Graph.renderings_identify_conditions`.
-/

namespace StrategyGraph

open NumberText (display)

/-! ## Names in reports -/

/-- Labels tell columns and indicators apart. -/
theorem nodup_labels :
    (Column.all.map Column.label ++ Indicator.all.map Indicator.label).Nodup := by
  decide

theorem Column.label_injective {column other : Column} (alike : column.label = other.label) :
    column = other :=
  List.inj_on_of_nodup_map (List.nodup_append'.1 nodup_labels).1 (mem_all _) (mem_all _) alike

theorem Indicator.label_injective {indicator other : Indicator}
    (alike : indicator.label = other.label) :
    indicator = other :=
  List.inj_on_of_nodup_map (List.nodup_append'.1 nodup_labels).2.1 (mem_all _) (mem_all _) alike

theorem Column.label_ne (column : Column) (indicator : Indicator) :
    column.label ≠ indicator.label :=
  fun same => (List.nodup_append'.1 nodup_labels).2.2 (List.mem_map_of_mem (mem_all column))
    (List.mem_map.2 ⟨indicator, Indicator.mem_all indicator, same.symm⟩)

theorem Column.isName_label (column : Column) : Wording.IsName column.label := by
  cases column <;> exact ⟨by decide, _, _, rfl, by decide, by decide⟩

theorem Indicator.isName_label (indicator : Indicator) : Wording.IsName indicator.label := by
  cases indicator <;> exact ⟨by decide, _, _, rfl, by decide, by decide⟩

namespace IndicatorSeries

/-- Values as they stand in a report behind the label of the indicator. -/
def textValues : List Float -> List Char
  | [] => []
  | value :: others =>
      '(' :: ((display value).toList ++
        ((others.flatMap fun value => ',' :: ' ' :: (display value).toList) ++ [')']))

theorem toList_text (series : IndicatorSeries) :
    series.text.toList = series.indicator.label.toList ++ textValues series.orderedValues := by
  rw [text]
  split
  next none => rw [none, textValues, List.append_nil]
  next notNone =>
    cases values : series.orderedValues with
    | nil => exact absurd values notNone
    | cons value others =>
        rw [List.map_cons, String.toList_append, String.toList_append, String.toList_append,
          Wording.toList_intercalate_cons, List.flatMap_map, textValues]
        simp

/-- The values behind a label determine each other's ends, and so the values. -/
theorem textValues_injective
    {values others : List Float}
    (finite : ∀ value ∈ values, value.isFinite = true)
    (finiteOther : ∀ value ∈ others, value.isFinite = true)
    (alike : textValues values = textValues others) :
    values = others := by
  have noComma (value : Float) (isFinite : value.isFinite = true) :
      ',' ∉ ' ' :: (display value).toList := by
    intro comma
    rcases List.mem_cons.1 comma with blank | written
    · cases blank
    · exact absurd (Wording.constant_of_mem_display isFinite ',' written) (by decide)
  have tells (value other : Float)
      (isFinite : value.isFinite = true)
      (isFiniteOther : other.isFinite = true)
      (same : ' ' :: (display value).toList = ' ' :: (display other).toList) : value = other :=
    NumberText.display_injective isFinite isFiniteOther
      (String.toList_inj.1 (List.cons.inj same).2)
  match values, others, finite, finiteOther, alike with
  | [], [], _, _, _ => rfl
  | value :: values, other :: others, finite, finiteOther, alike =>
      refine marked_injective noComma tells finite finiteOther ?_
      rw [List.flatMap_cons, List.flatMap_cons]
      have inside := (List.cons.inj alike).2
      rw [← List.append_assoc, ← List.append_assoc] at inside
      exact congrArg (fun rest => ',' :: ' ' :: rest) (List.append_cancel_right inside)

theorem noBracket_textValues {values : List Float}
    (finite : ∀ value ∈ values, value.isFinite = true) :
    '[' ∉ textValues values := by
  have noBracket (value : Float) (listed : value ∈ values) : '[' ∉ (display value).toList :=
    fun bracket => absurd
      (Wording.constant_of_mem_display (finite value listed) '[' bracket) (by decide)
  cases values with
  | nil => exact List.not_mem_nil
  | cons value others =>
      obtain ⟨first, rest⟩ := List.forall_mem_cons.1 noBracket
      simpa [textValues, first] using rest

section

variable {series other : IndicatorSeries} (complete : series.Complete)

include complete

theorem Complete.isFinite_of_mem : ∀ value ∈ series.orderedValues, value.isFinite = true :=
  fun _ listed => (complete.finite_pos listed).1

theorem Complete.isName_text : Wording.IsName series.text := by
  obtain ⟨plain, first, rest, shape, start⟩ := series.indicator.isName_label
  constructor
  · rw [toList_text, List.mem_append]
    exact not_or.2 ⟨plain, noBracket_textValues complete.isFinite_of_mem⟩
  · exact ⟨first, _, by rw [toList_text, shape, List.cons_append], start⟩

end

/-- A label ends where the values start. -/
theorem label_append_injective
    {label other : String}
    {values others : List Float}
    (plain : '(' ∉ label.toList)
    (plainOther : '(' ∉ other.toList)
    (alike : label.toList ++ textValues values = other.toList ++ textValues others) :
    label = other ∧ textValues values = textValues others := by
  have stops (values : List Float) :
      ∀ character ∈ (textValues values).head?, character = '(' := by
    cases values <;> simp [textValues]
  obtain ⟨same, sameValues⟩ := eq_of_append_of_notMem plain plainOther (stops values)
    (stops others) alike
  exact ⟨String.toList_inj.1 same, sameValues⟩

end IndicatorSeries

theorem Indicator.noParenthesis_label (indicator : Indicator) :
    '(' ∉ indicator.label.toList := by
  cases indicator <;> decide

theorem Column.noParenthesis_label (column : Column) : '(' ∉ column.label.toList := by
  cases column <;> decide

/-- Reports give columns and complete series different names. -/
theorem Wording.clear_report : Wording.report.Clear where
  always := ⟨'t', _, rfl, rfl⟩
  isColumnName := Column.isName_label
  isSeriesName _ complete := complete.isName_text
  columns _ _ := Column.label_injective
  series series other complete completeOther alike := by
    have characters := congrArg String.toList alike
    change series.text.toList = other.text.toList at characters
    rw [IndicatorSeries.toList_text, IndicatorSeries.toList_text] at characters
    obtain ⟨sameLabel, sameValues⟩ := IndicatorSeries.label_append_injective
      series.indicator.noParenthesis_label other.indicator.noParenthesis_label characters
    exact complete.eq_of_orderedValues completeOther (Indicator.label_injective sameLabel)
      (IndicatorSeries.textValues_injective complete.isFinite_of_mem completeOther.isFinite_of_mem
        sameValues)
  apart column series _ alike := by
    have characters := congrArg String.toList alike
    change column.label.toList = series.text.toList at characters
    rw [IndicatorSeries.toList_text, ← List.append_nil column.label.toList] at characters
    change column.label.toList ++ IndicatorSeries.textValues [] = _ at characters
    obtain ⟨sameLabel, _⟩ := IndicatorSeries.label_append_injective column.noParenthesis_label
      series.indicator.noParenthesis_label characters
    exact column.label_ne series.indicator sameLabel

/-! ## Names in scripts -/

/-- A key has no other characters than letters from `a` to `z`, digits and underscores. -/
theorem IndicatorSeries.Complete.not_mem_key
    {series : IndicatorSeries}
    (complete : series.Complete)
    {character : Char}
    (notLetter : isLowerLetter character = false)
    (notDigit : isDigit character = false)
    (notUnderscore : character ≠ '_') :
    character ∉ series.key.toList := by
  obtain ⟨first, rest, shape, starts, continues⟩ := isLowerIdentifier_key complete
  rw [shape]
  intro member
  rcases List.mem_cons.1 member with rfl | inRest
  · rw [notLetter] at starts
    cases starts
  · rcases continues character inRest with letter | digit | underscore
    · rw [notLetter] at letter
      cases letter
    · rw [notDigit] at digit
      cases digit
    · exact notUnderscore underscore

/-- Scripts give columns and complete series different names. -/
theorem Wording.clear_script : Wording.script.Clear where
  always := ⟨'T', _, rfl, rfl⟩
  isColumnName column := by
    cases column <;> exact ⟨by decide, _, _, rfl, by decide, by decide⟩
  isSeriesName series complete := by
    refine ⟨?_, 's', ['e', 'l', 'f', '.'] ++ series.key.toList, ?_, rfl, rfl⟩
    · have noBracket : '[' ∉ series.key.toList :=
        complete.not_mem_key (by decide) (by decide) (by decide)
      simpa [script] using noBracket
    · simp [script]
  columns column other alike := by
    refine Column.label_injective (String.toList_inj.1 ?_)
    simpa [script] using congrArg String.toList alike
  series series other complete completeOther alike := by
    refine IndicatorSeries.eq_of_key_eq complete completeOther (String.toList_inj.1 ?_)
    simpa [script] using congrArg String.toList alike
  apart column series complete alike := by
    have noPoint : '.' ∉ series.key.toList :=
      complete.not_mem_key (by decide) (by decide) (by decide)
    have characters := congrArg String.toList alike
    have shape : series.key.toList = "data.".toList ++ column.label.toList := by
      simpa [script] using characters.symm
    rw [shape] at noPoint
    exact noPoint (List.mem_append_left _ (by decide))

/-! ## Compiled predicates -/

namespace Predicate

theorem Constrains.legible
    {predicate : Predicate}
    (constrains : predicate.Constrains)
    (expressions : ∀ expression ∈ predicate.expressions, expression.Legible) :
    predicate.Legible := by
  induction constrains with
  | compare aligned =>
      obtain ⟨left, others⟩ := List.forall_mem_cons.1 expressions
      exact .compare left (List.forall_mem_singleton.1 others)
  | all several each hypothesis =>
      refine .all several fun part member => hypothesis part member fun expression inPart => ?_
      exact expressions expression (mem_expressionsOf_iff.2 ⟨part, member, inPart⟩)
  | any several each hypothesis =>
      refine .any several fun part member => hypothesis part member fun expression inPart => ?_
      exact expressions expression (mem_expressionsOf_iff.2 ⟨part, member, inPart⟩)
  | negation inner hypothesis => exact .negation (hypothesis expressions)
  | negatedAlways => exact .negation .always

/-- Normal predicates over legible expressions are legible. -/
theorem Normal.legible
    {predicate : Predicate}
    (normal : predicate.Normal)
    (expressions : ∀ expression ∈ predicate.expressions, expression.Legible) :
    predicate.Legible := by
  rcases normal with rfl | constrains
  · exact .always
  · exact constrains.legible expressions

end Predicate

namespace Graph

/-- Compiled predicates are legible. -/
theorem legible_of_compile
    {graph : Graph}
    {configuration : Configuration}
    {compilation : Compilation}
    (accepted : graph.compile configuration = .ok compilation) :
    ∀ rule ∈ compilation.strategy.actions, rule.predicate.Legible := by
  intro rule isRule
  have fits : largestBack + 1 <= Binary64.largestCount := by decide
  have position (offset : Nat) (near : offset <= largestBack) :
      Expression.backPosition offset = offset + 1 :=
    Nat.min_eq_left ((Nat.succ_le_succ near).trans fits)
  refine (normal_of_compile accepted rule isRule).legible fun expression inside => ?_
  have sound := ((sound_of_compile accepted).predicates rule isRule).expressions expression inside
  cases expression with
  | price column offset => exact position offset sound
  | indicator series offset =>
      have isRead : series ∈ rule.predicate.series := List.mem_filterMap.2 ⟨_, inside, rfl⟩
      exact ⟨complete_of_compile accepted isRule isRead, position offset sound.2.2⟩
  | literal constant => exact sound

/-! ## Main result -/

/-- Rendered conditions identify conditions. Of any two rules of strategies that were compiled
from accepted graphs, the reports state the same condition only if the rules have the same
predicate, and so do the scripts. -/
theorem renderings_identify_conditions
    {graph other : Graph}
    {configuration configurationOther : Configuration}
    {compilation compilationOther : Compilation}
    (accepted : graph.compile configuration = .ok compilation)
    (acceptedOther : other.compile configurationOther = .ok compilationOther) :
    ∀ rule ∈ compilation.strategy.actions, ∀ ruleOther ∈ compilationOther.strategy.actions,
      (rule.predicate.text = ruleOther.predicate.text ↔ rule.predicate = ruleOther.predicate) ∧
      ((Backtest.predicateCode rule.predicate).render =
          (Backtest.predicateCode ruleOther.predicate).render ↔
        rule.predicate = ruleOther.predicate) := by
  intro rule isRule ruleOther isRuleOther
  have legible := legible_of_compile accepted rule isRule
  have legibleOther := legible_of_compile acceptedOther ruleOther isRuleOther
  refine ⟨⟨fun alike => ?_, fun same => by rw [same]⟩, ⟨fun alike => ?_, fun same => by rw [same]⟩⟩
  · refine Wording.clear_report.spell_injective legible legibleOther ?_
    rw [← Wording.toList_text, ← Wording.toList_text, alike]
  · refine Wording.clear_script.spell_injective legible legibleOther ?_
    rw [← Wording.toList_render, ← Wording.toList_render, alike]

/-- A purchase unless both of two conditions hold, which a gate joins. -/
def conjoined : Graph where
  nodes := [
    ⟨"high", .condition (.price .close) ⟨.greater, some 100, 0, 0⟩⟩,
    ⟨"weak", .condition (.indicator .rsi .empty) ⟨.less, some 30, 0, 0⟩⟩,
    ⟨"both", .gate .and⟩,
    ⟨"unless", .gate .not⟩,
    ⟨"enter", .action .buy .allAvailable none⟩]
  edges := [
    ⟨"1", "high", "both", .flow⟩,
    ⟨"2", "weak", "both", .flow⟩,
    ⟨"3", "both", "unless", .flow⟩,
    ⟨"4", "unless", "enter", .flow⟩]

/-- The same purchase, where one condition stands behind the other. -/
def chained : Graph where
  nodes := [
    ⟨"weak", .condition (.indicator .rsi (.ofList [("period", 14)])) ⟨.less, some 30, 0, 0⟩⟩,
    ⟨"high", .condition (.price .close) ⟨.greater, some 100, 0, 0⟩⟩,
    ⟨"unless", .gate .not⟩,
    ⟨"buy", .action .buy .allAvailable none⟩]
  edges := [
    ⟨"1", "weak", "high", .flow⟩,
    ⟨"2", "high", "unless", .flow⟩,
    ⟨"3", "unless", "buy", .flow⟩]

theorem renderings_identify_conditions_chained :
    ∃ compilation compilationOther rule ruleOther,
      conjoined.compile .default = .ok compilation ∧
        chained.compile .default = .ok compilationOther ∧
        compilation.strategy.actions = [rule] ∧
        compilationOther.strategy.actions = [ruleOther] ∧
        rule.predicate.text = "not (Close[-1] > 100 and RSI(14)[-1] < 30)" ∧
        ruleOther.predicate.text = "not (Close[-1] > 100 and RSI(14)[-1] < 30)" ∧
        rule.predicate = ruleOther.predicate := by
  have rendered : ∀ graph ∈ [conjoined, chained],
      (graph.compile .default).toOption.map (fun compilation =>
        compilation.strategy.actions.map fun rule => rule.predicate.text) =
          some ["not (Close[-1] > 100 and RSI(14)[-1] < 30)"] := by
    decide +kernel
  have single : ∀ graph ∈ [conjoined, chained], ∃ compilation rule,
      graph.compile .default = .ok compilation ∧ compilation.strategy.actions = [rule] ∧
        rule.predicate.text = "not (Close[-1] > 100 and RSI(14)[-1] < 30)" := by
    intro graph listed
    obtain ⟨compilation, found, texts⟩ := Option.map_eq_some_iff.1 (rendered graph listed)
    obtain ⟨rule, only, text⟩ := List.map_eq_singleton_iff.1 texts
    exact ⟨compilation, rule, Outcome.toOption_eq_some_iff.1 found, only, text⟩
  obtain ⟨compilation, rule, accepted, only, text⟩ := single conjoined List.mem_cons_self
  obtain ⟨compilationOther, ruleOther, acceptedOther, onlyOther, textOther⟩ :=
    single chained (List.mem_cons_of_mem _ List.mem_cons_self)
  have identify := renderings_identify_conditions accepted acceptedOther
    rule (by rw [only]; exact List.mem_cons_self)
    ruleOther (by rw [onlyOther]; exact List.mem_cons_self)
  exact ⟨compilation, compilationOther, rule, ruleOther, accepted, acceptedOther, only, onlyOther,
    text, textOther, identify.1.1 (text.trans textOther.symm)⟩

/-- Predicates with groups of one, which are not compiled, would be rendered with ambiguity. -/
example :
    let rising : Predicate := .compare (.price .close 0) .greater (.price .opening 0)
    (Predicate.negation (.all [rising])).text = (Predicate.negation rising).text := by
  decide +kernel

end Graph
end StrategyGraph
