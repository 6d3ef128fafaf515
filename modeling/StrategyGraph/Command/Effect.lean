import StrategyGraph.Command.Path

/-!
# Effects of commands

A command changes the world by effects: it prints, makes directories and writes
files. An effect may fail, as may reading a file. A failure is a message with
the chain of its causes.
-/

namespace StrategyGraph
namespace Command

/-- Why a file operation fails. -/
inductive SystemError where
  | notFound
  | alreadyExists
  | notDirectory
  | isDirectory
  | nameTooLong
  | other (text : String)
  deriving DecidableEq

/-- A failure with its causes, the closest one first. -/
structure Failure where
  message : String
  causes : List String

/-- Something a command does. -/
inductive Effect where
  | print (text : String)
  /-- Print to the error stream. -/
  | report (text : String)
  /-- Make a directory with all directories above it. -/
  | createDirectories (path : Path)
  | write (path : Path) (content : String)

namespace SystemError

/-- Wording of a file error. -/
def text : SystemError -> String
  | .notFound => "No such file or directory (os error 2)"
  | .alreadyExists => "File exists (os error 17)"
  | .notDirectory => "Not a directory (os error 20)"
  | .isDirectory => "Is a directory (os error 21)"
  | .nameTooLong => "File name too long (os error 36)"
  | .other text => text

/-- A file error as a failure. -/
def failure (error : SystemError) : Failure :=
  ⟨error.text, []⟩

end SystemError

namespace Failure

/-- A failure without causes. -/
def plain (message : String) : Failure :=
  ⟨message, []⟩

/-- The same failure as the cause of another one. -/
def within (failure : Failure) (context : String) : Failure :=
  ⟨context, failure.message :: failure.causes⟩

/-- The whole chain on one line. -/
def brief (failure : Failure) : String :=
  String.intercalate ": " (failure.message :: failure.causes)

/-- A text whose further lines are indented. -/
def hanging (indentation text : String) : String :=
  String.ofList (text.toList.flatMap fun character =>
    if character = '\n' then '\n' :: indentation.toList else [character])

/-- A cause on lines of its own, numbered if there are several. -/
def causeLine (numbered : Bool) (position : Nat) (cause : String) : String :=
  if numbered then
    let number := position.repr
    "\n" ++ String.ofList (List.replicate (5 - number.length) ' ') ++ number ++ ": " ++
      hanging "       " cause
  else "\n    " ++ hanging "    " cause

/-- The chain as a list of causes below the message. -/
def full (failure : Failure) : String :=
  if failure.causes.isEmpty then failure.message
  else
    failure.message ++ "\n\nCaused by:" ++
      String.join (failure.causes.mapIdx (causeLine (1 < failure.causes.length)))

/-- What is reported when a command ends with a failure. -/
def ending (failure : Failure) : String :=
  "Error: " ++ failure.full ++ "\n"

end Failure

namespace Effect

/-- Print a line. -/
def printLine (line : String) : Effect :=
  .print (line ++ "\n")

/-- Print a line to the error stream. -/
def reportLine (line : String) : Effect :=
  .report (line ++ "\n")

/-- What an effect that fails was about. -/
def purpose : Effect -> String
  | .createDirectories path => "creating output directory " ++ path
  | .write path _ => "writing " ++ path
  | .print _ | .report _ => "printing"

end Effect

end Command
end StrategyGraph
