import StrategyGraph.Command.Effect

/-!
# Procedures

A procedure is what a command does, one step after the other: effects, and files
that are read, on whose content the further steps depend. It says nothing about
where files are kept, so the same procedure runs on a disk and on a file store.

An action is a procedure that may end early with a failure.
-/

namespace StrategyGraph
namespace Command

/-- Steps that end with a value. -/
inductive Procedure (Value : Type) where
  | done (value : Value)
  /-- Carry out an effect; all ends there if it fails. -/
  | act (effect : Effect) (next : Procedure Value)
  /-- Read a file. -/
  | read (path : Path) (next : Except SystemError ByteArray -> Procedure Value)

namespace Procedure

/-- Go on with steps that depend on the value of a procedure. -/
def bind (procedure : Procedure Value) (further : Value -> Procedure Next) :
    Procedure Next :=
  match procedure with
  | .done value => further value
  | .act effect next => .act effect (next.bind further)
  | .read path next => .read path fun content => (next content).bind further

instance : Monad Procedure where
  pure := .done
  bind := bind

end Procedure

/-- Steps that end with a value or a failure. -/
abbrev Action (Value : Type) := ExceptT Failure Procedure Value

namespace Action

/-- End with a failure. -/
def fail (failure : Failure) : Action Value :=
  throw failure

/-- Take over the outcome of a computation. -/
def ofExcept (outcome : Except Failure Value) : Action Value :=
  ExceptT.mk (.done outcome)

/-- Carry out an effect. -/
def perform (effect : Effect) : Action Unit :=
  ExceptT.mk (.act effect (.done (.ok ())))

/-- Carry out effects in order. -/
def performAll (effects : List Effect) : Action Unit :=
  effects.forM perform

/-- Read a file. Errors are described by the given function. -/
def readFile (describe : SystemError -> Failure) (path : Path) : Action ByteArray :=
  ExceptT.mk (.read path fun content => .done (content.mapError describe))

/-- The outcome of an action, which does not fail itself. -/
def attempt (action : Action Value) : Action (Except Failure Value) :=
  ExceptT.lift action.run

/-- Say where a failure happened. -/
def within (context : String) (action : Action Value) : Action Value :=
  action.adapt fun failure => failure.within context

end Action
end Command
end StrategyGraph
