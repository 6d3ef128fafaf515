import StrategyGraph.Command.Path

/-!
# Invocations

An invocation is what the arguments of the program ask for: a command, the files
it works on and its options. Options may stand anywhere behind the name of the
command, with their value in the same argument or in the next one.
-/

namespace StrategyGraph
namespace Command

/-- What the program is asked to do. -/
inductive Invocation where
  /-- Compile graphs and print or write the artifacts. -/
  | compile (graphs : List Path) (configuration output : Option Path)
  /-- Check graphs without compiling. -/
  | check (graphs : List Path)
  /-- Report on the strategy a graph compiles to. -/
  | explain (graph : Path) (configuration : Option Path)
  /-- Generate the backtest script of a strategy. -/
  | codegen (graph : Path) (configuration output : Option Path)
  /-- Run a strategy over a price history. -/
  | replay (graph bars : Path) (configuration : Option Path)

/-- Arguments behind the name of a command. -/
structure Arguments where
  positional : List String
  options : List (String × String)

namespace Arguments

/-- Split an option at its equals sign. -/
def splitOption (argument : String) : String × Option String :=
  let (name, rest) := argument.toList.span (· != '=')
  match rest with
  | [] => (argument, none)
  | _ :: value => (String.ofList name, some (String.ofList value))

/-- Whether an argument is an option. -/
def isOption (argument : String) : Bool :=
  "--".isPrefixOf argument

/-- Sort arguments into files and options with values. Every option is given at
most once, and only those that are known. -/
def collect? (known : List String) : List String -> Option Arguments
  | [] => some ⟨[], []⟩
  | "--" :: rest => some ⟨rest, []⟩
  | "--verbose" :: rest => collect? known rest
  | argument :: rest =>
      if isOption argument then
        match splitOption argument, rest with
        | (name, some value), rest =>
            (collect? known rest).bind (withOption known name value)
        | (name, none), value :: rest =>
            (collect? known rest).bind (withOption known name value)
        | (_, none), [] => none
      else
        (collect? known rest).map fun arguments =>
          { arguments with positional := argument :: arguments.positional }
where
  /-- Add an option to those behind it. -/
  withOption (known : List String) (name value : String) (arguments : Arguments) :
      Option Arguments :=
    if known.contains name && (arguments.options.lookup name).isNone then
      some { arguments with options := (name, value) :: arguments.options }
    else none

end Arguments

namespace Invocation

/-- The invocation of a command with its arguments. -/
def ofCommand? : String -> List String -> Option Invocation
  | "compile", arguments => do
      let given <- Arguments.collect? ["--config", "--out"] arguments
      if given.positional.isEmpty then none
      else
        return .compile given.positional (given.options.lookup "--config")
          (given.options.lookup "--out")
  | "check", arguments => do
      let given <- Arguments.collect? [] arguments
      if given.positional.isEmpty then none else return .check given.positional
  | "explain", arguments => do
      let given <- Arguments.collect? ["--config"] arguments
      match given.positional with
      | [graph] => return .explain graph (given.options.lookup "--config")
      | _ => none
  | "codegen", arguments => do
      let given <- Arguments.collect? ["--config", "--out"] arguments
      match given.positional with
      | [graph] =>
          return .codegen graph (given.options.lookup "--config")
            (given.options.lookup "--out")
      | _ => none
  | "replay", arguments => do
      let given <- Arguments.collect? ["--config", "--bars"] arguments
      let bars <- given.options.lookup "--bars"
      match given.positional with
      | [graph] => return .replay graph bars (given.options.lookup "--config")
      | _ => none
  | _, _ => none

/-- The invocation that arguments of the program ask for. -/
def ofArguments? : List String -> Option Invocation
  | "--verbose" :: arguments => ofArguments? arguments
  | name :: arguments => ofCommand? name arguments
  | [] => none

/-- How the program is invoked. -/
def usage : String :=
  "usage: compile GRAPH... [--config FILE] [--out DIR]\n" ++
  "       check GRAPH...\n" ++
  "       explain GRAPH [--config FILE]\n" ++
  "       codegen GRAPH [--config FILE] [--out FILE]\n" ++
  "       replay GRAPH --bars FILE [--config FILE]\n"

end Invocation
end Command
end StrategyGraph
