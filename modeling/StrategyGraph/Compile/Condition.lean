import StrategyGraph.Compile.Signal
import StrategyGraph.Compile.Warning
import StrategyGraph.Configuration
import StrategyGraph.Strategy.Predicate

/-!
# Compiled conditions

A test becomes a comparison of two expressions sampled at the same bar. A
crossing compares them at the bar before as well. A lookback window holds if
the comparison holds at any of its shifts, and the operand is shifted along
with the subject.

What a signal warns about and which series it reads do not depend on offsets,
so both are collected once for each test. Parameters are resolved once for each
test as well; a refusal ends the compilation.
-/

namespace StrategyGraph

namespace Subject

/-- The number a subject denotes, some bars back. -/
def expression (configuration : Configuration) (subject : Subject) (offset : Nat) :
    Expression :=
  match subject with
  | .price column => .price column offset
  | .indicator line parameters =>
      .indicator (line.complete parameters (configuration.overrides line)) offset
  | .value constant => .literal constant

/-- The series a subject reads, if it is an indicator. -/
def series? (configuration : Configuration) : Subject -> Option IndicatorSeries
  | .indicator line parameters =>
      some (line.complete parameters (configuration.overrides line))
  | _ => none

/-- What the parameters of a subject warn about. -/
def warnings (configuration : Configuration) (node : NodeId) : Subject -> List Warning
  | .indicator line parameters =>
      (line.defaulted parameters (configuration.overrides line)).map
        (fun entry => .defaultParameter node line entry.1 entry.2) ++
      (line.unknown parameters).map (fun name => .unknownParameter node name)
  | _ => []

/-- Resolve the parameters of what a node observes. -/
def resolve (configuration : Configuration) (node : NodeId) :
    Subject -> Except GraphError Unit
  | .indicator line parameters =>
      match line.resolve parameters (configuration.overrides line) with
      | .ok _ => .ok ()
      | .error invalid =>
          .error (.invalidParameter node invalid.parameter (.invalidValue invalid.fault))
  | _ => .ok ()

end Subject

namespace Operand

/-- The number an operand denotes, some bars back. -/
def expression (configuration : Configuration) (operand : Operand) (offset : Nat) :
    Expression :=
  match operand with
  | .source _ subject => subject.expression configuration offset
  | .literal constant => .literal constant
  | .missing => .literal 0

/-- The series an operand reads, if it is an indicator. -/
def series? (configuration : Configuration) : Operand -> Option IndicatorSeries
  | .source _ subject => subject.series? configuration
  | _ => none

end Operand

namespace Test

/-- The relations of a crossing, at the bar before and at the bar itself. -/
def crossingRelations : Comparison -> Relation × Relation
  | .crossesBelow => (.atLeast, .less)
  | _ => (.atMost, .greater)

/-- The comparison of subject and operand some bars back. -/
def relationAt
    (configuration : Configuration)
    (test : Test)
    (relation : Relation)
    (offset : Nat) : Predicate :=
  .compare
    (test.subject.expression configuration offset)
    relation
    (test.operand.expression configuration offset)

/-- The comparison of a test without its window, moved `shift` bars back. -/
def comparisonAt (configuration : Configuration) (test : Test) (shift : Nat) :
    Predicate :=
  let offset := test.condition.offset + shift
  match Relation.ofComparison? test.condition.comparison with
  | some relation => test.relationAt configuration relation offset
  | none =>
      let (before, after) := crossingRelations test.condition.comparison
      .conjunction [
        test.relationAt configuration before (offset + 1),
        test.relationAt configuration after offset]

/-- The comparison of a test at any shift of its window. -/
def predicate (configuration : Configuration) (test : Test) : Predicate :=
  if test.condition.lookback <= 1 then test.comparisonAt configuration 0
  else
    .disjunction
      ((List.range test.condition.lookback).map (test.comparisonAt configuration))

/-- What the operand of a test warns about. -/
def operandWarnings (configuration : Configuration) (test : Test) : List Warning :=
  match test.operand with
  | .source source subject =>
      (if test.condition.compareValue.isSome then [.unusedCompareValue test.node]
        else []) ++
      subject.warnings configuration source
  | .literal _ => []
  | .missing => [.missingCompareOperand test.node]

/-- What a test warns about. -/
def warnings (configuration : Configuration) (test : Test) : List Warning :=
  test.subject.warnings configuration test.node ++ test.operandWarnings configuration

/-- Resolve the parameters of a test and of what it compares with. -/
def resolve (configuration : Configuration) (test : Test) : Except GraphError Unit := do
  test.subject.resolve configuration test.node
  match test.operand with
  | .source source subject => subject.resolve configuration source
  | _ => .ok ()

/-- The indicator series a test reads. -/
def reads (configuration : Configuration) (test : Test) : List IndicatorSeries :=
  (test.subject.series? configuration).toList ++
    (test.operand.series? configuration).toList

end Test

namespace Signal

mutual

/-- The predicate of a signal. A test comes before the signals that gate it. -/
def predicate (configuration : Configuration) : Signal -> Predicate
  | .gated test parents =>
      .conjunction (test.predicate configuration :: predicates configuration parents)
  | .all inputs => .conjunction (predicates configuration inputs)
  | .any inputs => .disjunction (predicates configuration inputs)
  | .negation input => .negation (input.predicate configuration)

/-- The predicates of several signals. -/
def predicates (configuration : Configuration) : List Signal -> List Predicate
  | [] => []
  | signal :: signals =>
      signal.predicate configuration :: predicates configuration signals

end

mutual

/-- The tests of a signal, each before the signals that gate it. -/
def tests : Signal -> List Test
  | .gated test parents => test :: testsOf parents
  | .all inputs => testsOf inputs
  | .any inputs => testsOf inputs
  | .negation input => input.tests

/-- The tests of several signals. -/
def testsOf : List Signal -> List Test
  | [] => []
  | signal :: signals => signal.tests ++ testsOf signals

end

theorem testsOf_eq_flatMap (signals : List Signal) :
    testsOf signals = signals.flatMap tests := by
  induction signals with
  | nil => rfl
  | cons signal signals hypothesis => rw [testsOf, hypothesis, List.flatMap_cons]

end Signal
end StrategyGraph
