import Mathlib.Data.List.Forall2
import StrategyGraph.Backtest.Script

/-!
# Wordings of predicates

Reports and scripts word predicates alike: they call series by other names and put other
parentheses around what is negated. Their rendered forms are two cases of one wording, which
takes the names and the parentheses as parameters.

Main results: `Wording.toList_text` and `Wording.toList_render`.
-/

namespace StrategyGraph

namespace Predicate

/-- What joins the parts of a group. -/
inductive Connective where
  | and
  | or

namespace Connective

/-- The group of parts that are joined. -/
def group : Connective -> List Predicate -> Predicate
  | .and => .all
  | .or => .any

/-- What stands between the parts. -/
def separator : Connective -> List Char
  | .and => " and ".toList
  | .or => " or ".toList

end Connective

/-- Forms of predicates, which the first character of a wording tells apart. -/
inductive Form where
  | always
  | comparison
  | group
  | negation
  deriving DecidableEq

/-- The form of a predicate. -/
def form : Predicate -> Form
  | .always => .always
  | .compare _ _ _ => .comparison
  | .all _ | .any _ => .group
  | .negation _ => .negation

end Predicate

/-! ## Wordings -/

/-- A way of wording predicates. -/
structure Wording where
  /-- Word for the predicate without constraint. -/
  always : String
  column : Column -> String
  series : IndicatorSeries -> String
  /-- Whether whatever is negated stands in parentheses, and not only comparisons. -/
  enclosesAll : Bool

namespace Wording

open Predicate (Connective Form)
open NumberText (display)

/-- The wording of reports. -/
def report : Wording where
  always := "true"
  column := Column.label
  series := IndicatorSeries.text
  enclosesAll := false

/-- The wording of scripts. -/
def script : Wording where
  always := "True"
  column column := "self.data." ++ column.label
  series series := "self." ++ series.key
  enclosesAll := true

section

variable (wording : Wording)

/-- Wording of an expression: a name with a position behind it, or a constant. -/
def spellExpression : Expression -> List Char
  | .price column offset =>
      (wording.column column).toList ++ (Expression.backText offset).toList
  | .indicator series offset =>
      (wording.series series).toList ++ (Expression.backText offset).toList
  | .literal constant => (display constant).toList

/-- Whether parentheses stand around a predicate that is negated. -/
def encloses (inner : Predicate) : Bool :=
  wording.enclosesAll || inner.form = .comparison

/-- Content in parentheses, if it needs them. -/
def parenthesised (needed : Bool) (content : List Char) : List Char :=
  if needed then '(' :: (content ++ [')']) else content

theorem parenthesised_true (content rest : List Char) :
    parenthesised true content ++ rest = '(' :: (content ++ ')' :: rest) := by
  simp [parenthesised]

theorem parenthesised_false (content : List Char) : parenthesised false content = content := rfl

mutual

/-- Wording of a predicate. -/
def spell : Predicate -> List Char
  | .always => wording.always.toList
  | .compare left relation right =>
      wording.spellExpression left ++
        ' ' :: (relation.symbol.toList ++ ' ' :: wording.spellExpression right)
  | .all parts => '(' :: spellGroup .and parts
  | .any parts => '(' :: spellGroup .or parts
  | .negation inner => "not ".toList ++ parenthesised (wording.encloses inner) (spell inner)

/-- Wording of the parts of a group, up to the parenthesis that ends it. -/
def spellGroup (connective : Connective) : List Predicate -> List Char
  | [] => [')']
  | part :: parts => spell part ++ spellBehind connective parts

/-- Wording of the parts behind one of them. -/
def spellBehind (connective : Connective) : List Predicate -> List Char
  | [] => [')']
  | part :: parts => connective.separator ++ (spell part ++ spellBehind connective parts)

end

end

/-! ## Rendered forms -/

/-- Each text but the first one stands behind a separator. -/
theorem toList_intercalate_cons (separator text : String) (texts : List String) :
    (String.intercalate separator (text :: texts)).toList =
      text.toList ++ texts.flatMap fun text => separator.toList ++ text.toList := by
  rw [String.toList_intercalate, List.map_cons]
  induction texts generalizing text with
  | nil => simp
  | cons second texts hypothesis =>
      rw [List.map_cons, List.intercalate_cons_cons, hypothesis, List.flatMap_cons,
        List.append_assoc, List.append_assoc]

theorem spellGroup_eq_intercalate
    (wording : Wording)
    {connective : Connective}
    {separator : String}
    (separates : separator.toList = connective.separator)
    {texts : List String}
    {parts : List Predicate}
    (each : List.Forall₂ (fun text part => text.toList = wording.spell part) texts parts) :
    (String.intercalate separator texts).toList ++ [')'] =
      wording.spellGroup connective parts := by
  cases each with
  | nil => rfl
  | cons first others =>
      rw [toList_intercalate_cons, spellGroup, first, List.append_assoc]
      congr 1
      induction others with
      | nil => rfl
      | cons second others hypothesis =>
          rw [spellBehind, ← hypothesis, List.flatMap_cons, separates, second, List.append_assoc,
            List.append_assoc]

/-- A negated predicate as rendered in reports. -/
theorem text_negation (inner : Predicate) :
    (Predicate.negation inner).text.toList =
      "not ".toList ++ parenthesised (report.encloses inner) inner.text.toList := by
  cases inner <;> simp [Predicate.text, Predicate.form, encloses, report, parenthesised]

theorem toList_text_expression (expression : Expression) :
    expression.text.toList = report.spellExpression expression := by
  cases expression <;> simp [Expression.text, spellExpression, report]

mutual

/-- Reports render predicates in their wording. -/
theorem toList_text (predicate : Predicate) :
    predicate.text.toList = report.spell predicate := by
  cases predicate with
  | always => rfl
  | compare left relation right =>
      simp [Predicate.text, spell, toList_text_expression]
  | all parts =>
      rw [spell, ← spellGroup_eq_intercalate report rfl (toList_texts parts)]
      simp [Predicate.text]
  | any parts =>
      rw [spell, ← spellGroup_eq_intercalate report rfl (toList_texts parts)]
      simp [Predicate.text]
  | negation inner =>
      rw [text_negation, toList_text inner, spell]

theorem toList_texts (parts : List Predicate) :
    List.Forall₂ (fun text part => text.toList = report.spell part)
      (Predicate.texts parts) parts := by
  cases parts with
  | nil => exact .nil
  | cons part parts => exact .cons (toList_text part) (toList_texts parts)

end

open Backtest (predicateCode predicateCodes expressionCode columnCode Code)

theorem toList_render_expression (expression : Expression) :
    (expressionCode expression).render.toList = script.spellExpression expression := by
  cases expression <;>
    simp [expressionCode, columnCode, Code.own, Code.self, Code.render, spellExpression, script,
      Expression.backText]

mutual

/-- Scripts render the code of predicates in their wording. -/
theorem toList_render (predicate : Predicate) :
    (predicateCode predicate).render.toList = script.spell predicate := by
  cases predicate with
  | always => rfl
  | compare left relation right =>
      simp [predicateCode, Code.render, spell, toList_render_expression]
  | all parts =>
      rw [spell, ← spellGroup_eq_intercalate script rfl (toList_renderAll parts)]
      simp [predicateCode, Code.render]
  | any parts =>
      rw [spell, ← spellGroup_eq_intercalate script rfl (toList_renderAll parts)]
      simp [predicateCode, Code.render]
  | negation inner =>
      rw [spell, ← toList_render inner]
      simp [predicateCode, Code.render, parenthesised, encloses, script]

theorem toList_renderAll (parts : List Predicate) :
    List.Forall₂ (fun text part => text.toList = script.spell part)
      (Code.renderAll (predicateCodes parts)) parts := by
  cases parts with
  | nil => exact .nil
  | cons part parts => exact .cons (toList_render part) (toList_renderAll parts)

end

end Wording
end StrategyGraph
