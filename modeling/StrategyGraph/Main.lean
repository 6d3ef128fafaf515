import StrategyGraph.Command.Execution

/-!
# Command line

The program itself: it runs the action of an invocation on the disk and the
terminal.
-/

namespace StrategyGraph
namespace Command

/-- The cause of an error of the operating system. -/
def causeOf : IO.Error -> SystemError
  | .noFileOrDirectory _ _ _ => .notFound
  | .alreadyExists _ _ _ => .alreadyExists
  | .inappropriateType _ 21 _ => .isDirectory
  | .inappropriateType _ _ _ => .notDirectory
  | .invalidArgument _ 36 _ => .nameTooLong
  | .permissionDenied _ _ _ => .other "Permission denied (os error 13)"
  | error => .other error.toString

/-- Run an input or output step and catch its error. -/
def catchError (step : IO Value) : IO (Except SystemError Value) := do
  try
    return .ok (<- step)
  catch error =>
    return .error (causeOf error)

/-- Carry out an effect. -/
def carryOut : Effect -> IO (Except SystemError Unit)
  | .print text => catchError (IO.print text)
  | .report text => catchError (IO.eprint text)
  | .createDirectories path => catchError (IO.FS.createDirAll path)
  | .write path content => catchError (IO.FS.writeFile path content)

namespace Procedure

/-- Run a procedure up to its end or to the first effect that fails. -/
def run : Procedure (Except Failure Value) -> IO (Except Failure Value)
  | .done outcome => return outcome
  | .act effect next => do
      match <- carryOut effect with
      | .ok () => next.run
      | .error error => return .error (error.failure.within effect.purpose)
  | .read path next => do
      let content <- catchError (IO.FS.readBinFile path)
      (next content).run

end Procedure

/-- Run an action and report its failure. The outcome is the exit code. -/
def execute (action : Action Unit) : IO UInt32 := do
  match <- Procedure.run action.run with
  | .ok () => return 0
  | .error failure =>
      IO.eprint failure.ending
      return 1

end Command
end StrategyGraph

open StrategyGraph.Command in
/-- Run the program. -/
def main (arguments : List String) : IO UInt32 := do
  match Invocation.ofArguments? arguments with
  | none =>
      IO.eprint Invocation.usage
      return 2
  | some invocation => execute invocation.action
