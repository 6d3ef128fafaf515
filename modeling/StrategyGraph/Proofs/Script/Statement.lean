import StrategyGraph.Proofs.Script.Rendering

/-!
# Statements of scripts

The instructions that statements stand for. Every instruction knows the remark that
stands last before it. Statements are readable if all their parts are and every block
has an instruction.
-/

namespace StrategyGraph
namespace Python

open Backtest (Code Statement)

mutual

/-- The remark that stands last behind a statement, given the one before it. -/
def remarkBehind (remark : Option String) : Statement -> Option String
  | .remark content => some content
  | .conditional _ body => remarkBehindAll remark body
  | .method _ _ body => remarkBehindAll remark body
  | .classOf _ _ body => remarkBehindAll remark body
  | _ => remark

/-- The remark that stands last behind several statements. -/
def remarkBehindAll (remark : Option String) : List Statement -> Option String
  | [] => remark
  | statement :: statements =>
      remarkBehindAll (remarkBehind remark statement) statements

end

mutual

/-- Instructions that a statement stands for, given the remark before it. -/
def instructions (remark : Option String) : Statement -> List Instruction
  | .blank => []
  | .remark _ => []
  | .importModule module none => [.importModule module module]
  | .importModule module (some shortName) => [.importModule module shortName]
  | .importFrom module name => [.importFrom module name]
  | .assign target value _ => [.assign (term target) (term value)]
  | .evaluate code => [.evaluate remark (term code)]
  | .leave => [.leave]
  | .conditional condition body =>
      [.conditional (term condition) (allInstructions remark body)]
  | .method name parameters body =>
      [.function name parameters (allInstructions remark body)]
  | .classOf name base body => [.classOf name base (allInstructions remark body)]

/-- Instructions that several statements stand for. -/
def allInstructions (remark : Option String) : List Statement -> List Instruction
  | [] => []
  | statement :: statements =>
      instructions remark statement ++
        allInstructions (remarkBehind remark statement) statements

end

@[simp] theorem allInstructions_append
    (remark : Option String)
    (statements others : List Statement) :
    allInstructions remark (statements ++ others) =
      allInstructions remark statements ++
        allInstructions (remarkBehindAll remark statements) others := by
  induction statements generalizing remark with
  | nil => rfl
  | cons statement statements hypothesis =>
      rw [List.cons_append, allInstructions, hypothesis, allInstructions, List.append_assoc]
      rfl

/-- Whether a text can stand in a remark. -/
def IsRemark (content : String) : Prop :=
  ∀ character ∈ content.toList, allowedInRemark character = true

instance (content : String) : Decidable (IsRemark content) :=
  decidable_of_iff (content.toList.all allowedInRemark = true) List.all_eq_true

/-- Statements whose lines can be read. Every block has an instruction. -/
inductive ReadableStatement : Statement -> Prop where
  | blank : ReadableStatement .blank
  | remark (isRemark : IsRemark content) : ReadableStatement (.remark content)
  | importModule (isModule : IsField module)
      (isName : ∀ name ∈ shortName, IsField name) :
      ReadableStatement (.importModule module shortName)
  | importFrom (isModule : IsField module) (isName : IsField name) :
      ReadableStatement (.importFrom module name)
  | assign (target : Readable 0 first) (value : Readable 8 second)
      (isRemark : ∀ content ∈ note, IsRemark content) :
      ReadableStatement (.assign first second note)
  | evaluate (code : Readable 0 tree) : ReadableStatement (.evaluate tree)
  | leave : ReadableStatement .leave
  | conditional (condition : Readable 8 code)
      (acts : ∀ remark, allInstructions remark body ≠ [])
      (block : ∀ statement ∈ body, ReadableStatement statement) :
      ReadableStatement (.conditional code body)
  | method (isName : IsField name)
      (fields : ∀ parameter ∈ parameters, IsField parameter)
      (acts : ∀ remark, allInstructions remark body ≠ [])
      (block : ∀ statement ∈ body, ReadableStatement statement) :
      ReadableStatement (.method name parameters body)
  | classOf (isName : IsWord name.toList) (isBase : IsField base)
      (acts : ∀ remark, allInstructions remark body ≠ [])
      (block : ∀ statement ∈ body, ReadableStatement statement) :
      ReadableStatement (.classOf name base body)

end Python
end StrategyGraph
