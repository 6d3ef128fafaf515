import StrategyGraph.Number.Text
import StrategyGraph.Strategy.Predicate
import StrategyGraph.Text.Quoted

/-!
# Code of backtest scripts

The part of Python that backtest scripts are written in, as trees: expressions,
statements and their layout in indented lines.

Trees are written as they are. Parentheses are nodes of their own, so whoever
builds a tree puts them where the precedence of the operators needs them.
Everything that a script takes from outside, other than names and numbers,
stands in quoted texts and in remarks.
-/

namespace StrategyGraph
namespace Backtest

/-- An arithmetic operation on numbers. -/
inductive Arithmetic where
  | add
  | sub
  | mul
  | div
  /-- Division rounded down to a whole number. -/
  | floorDiv
  deriving DecidableEq, Repr

/-- An expression of a script. -/
inductive Code where
  | name (identifier : String)
  | count (value : Nat)
  | number (value : Float)
  /-- A quoted text. -/
  | text (content : String)
  | attribute (owner : Code) (field : String)
  /-- The item at a position counted from the start. -/
  | item (owner : Code) (position : Nat)
  /-- The item at a position counted from the end, which is at one. -/
  | itemFromEnd (owner : Code) (position : Nat)
  | call (function : Code) (arguments : List Code)
  /-- An argument that is passed by name. -/
  | keyword (key : String) (value : Code)
  | lambda (parameters : List String) (body : Code)
  | arithmetic (left : Code) (operation : Arithmetic) (right : Code)
  | comparison (left : Code) (relation : Relation) (right : Code)
  | isNone (operand : Code)
  | isNotNone (operand : Code)
  | conjunction (operands : List Code)
  | disjunction (operands : List Code)
  | negation (operand : Code)
  | enclosed (inner : Code)
  deriving Inhabited

/-- A statement of a script. -/
inductive Statement where
  /-- An empty line. -/
  | blank
  | remark (content : String)
  | importModule (module : String) (shortName : Option String)
  | importFrom (module name : String)
  | assign (target value : Code) (note : Option String)
  | evaluate (code : Code)
  | leave
  | conditional (condition : Code) (body : List Statement)
  | method (name : String) (parameters : List String) (body : List Statement)
  | classOf (name base : String) (body : List Statement)

namespace Arithmetic

/-- Sign of an operation. -/
def sign : Arithmetic -> String
  | .add => "+"
  | .sub => "-"
  | .mul => "*"
  | .div => "/"
  | .floorDiv => "//"

end Arithmetic

namespace Code

/-- The name for no value. -/
def none : Code := .name "None"

/-- The name for truth. -/
def true : Code := .name "True"

/-- The instance whose method runs. -/
def self : Code := .name "self"

/-- An attribute of the instance. -/
def own (name : String) : Code := .attribute self name

mutual

/-- Written form of an expression. -/
def render : Code -> String
  | .name identifier => identifier
  | .count value => value.repr
  | .number value => NumberText.display value
  | .text content => Quoted.encode content
  | .attribute owner field => owner.render ++ "." ++ field
  | .item owner position => owner.render ++ "[" ++ position.repr ++ "]"
  | .itemFromEnd owner position => owner.render ++ "[-" ++ position.repr ++ "]"
  | .call function arguments =>
      function.render ++ "(" ++ String.intercalate ", " (renderAll arguments) ++ ")"
  | .keyword key value => key ++ "=" ++ value.render
  | .lambda parameters body =>
      "lambda " ++ String.intercalate ", " parameters ++ ": " ++ body.render
  | .arithmetic left operation right =>
      left.render ++ " " ++ operation.sign ++ " " ++ right.render
  | .comparison left relation right =>
      left.render ++ " " ++ relation.symbol ++ " " ++ right.render
  | .isNone operand => operand.render ++ " is None"
  | .isNotNone operand => operand.render ++ " is not None"
  | .conjunction operands => String.intercalate " and " (renderAll operands)
  | .disjunction operands => String.intercalate " or " (renderAll operands)
  | .negation operand => "not " ++ operand.render
  | .enclosed inner => "(" ++ inner.render ++ ")"

/-- Written forms of several expressions. -/
def renderAll : List Code -> List String
  | [] => []
  | code :: codes => code.render :: renderAll codes

end

end Code

namespace Statement

/-- A line at a level of indentation. -/
def line (level : Nat) (content : String) : String :=
  String.ofList (List.replicate (4 * level) ' ') ++ content

/-- Written form of a remark. -/
def remarkText (content : String) : String :=
  "# " ++ content

/-- A remark behind other content of a line. -/
def trailingRemark : Option String -> String
  | none => ""
  | some content => "  " ++ remarkText content

/-- Parameters of a method in parentheses. -/
def parameterList (parameters : List String) : String :=
  "(" ++ String.intercalate ", " parameters ++ ")"

mutual

/-- Lines of a statement at a level of indentation. -/
def lines (level : Nat) : Statement -> List String
  | .blank => [""]
  | .remark content => [line level (remarkText content)]
  | .importModule module none => [line level ("import " ++ module)]
  | .importModule module (some shortName) =>
      [line level ("import " ++ module ++ " as " ++ shortName)]
  | .importFrom module name =>
      [line level ("from " ++ module ++ " import " ++ name)]
  | .assign target value note =>
      [line level (target.render ++ " = " ++ value.render ++ trailingRemark note)]
  | .evaluate code => [line level code.render]
  | .leave => [line level "return"]
  | .conditional condition body =>
      line level ("if " ++ condition.render ++ ":") :: linesOf (level + 1) body
  | .method name parameters body =>
      line level ("def " ++ name ++ parameterList parameters ++ ":") ::
        linesOf (level + 1) body
  | .classOf name base body =>
      line level ("class " ++ name ++ "(" ++ base ++ "):") :: linesOf (level + 1) body

/-- Lines of several statements at a level of indentation. -/
def linesOf (level : Nat) : List Statement -> List String
  | [] => []
  | statement :: statements => statement.lines level ++ linesOf level statements

end

/-- Text of a script, each line ended by a line break. -/
def script (statements : List Statement) : String :=
  String.join ((linesOf 0 statements).map fun line => line ++ "\n")

end Statement
end Backtest
end StrategyGraph
