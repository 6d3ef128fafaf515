import StrategyGraph.Backtest.Script
import StrategyGraph.Command.Invocation
import StrategyGraph.Command.Procedure
import StrategyGraph.Compile.Compilation
import StrategyGraph.Market.History
import StrategyGraph.Report
import StrategyGraph.Run.Session

/-!
# Execution of commands

What each command does, as an action: it loads its inputs one by one, prints,
and writes what is asked for. A command that works on several graphs goes on
after a graph that fails and fails as a whole in the end.
-/

namespace StrategyGraph
namespace Command

/-! ## Inputs -/

/-- The bytes of a file as a text. -/
def textOf (bytes : ByteArray) : Except SystemError String :=
  match String.fromUTF8? bytes with
  | some text => .ok text
  | none => .error (.other "stream did not contain valid UTF-8")

/-- Read a text file. Errors are described by the given function. -/
def readText (describe : SystemError -> Failure) (path : Path) : Action String := do
  let bytes <- Action.readFile describe path
  Action.ofExcept ((textOf bytes).mapError describe)

/-- Load a graph. Its numbers are rounded step by step. -/
def loadGraph (path : Path) : Action Graph := do
  let text <- (readText SystemError.failure path).within ("reading graph " ++ path)
  match Graph.ofJson? .stepwise text with
  | some graph => return graph
  | none =>
      Action.fail ((Failure.plain "not a graph").within ("parsing graph " ++ path))

/-- A configuration from the text of a file. -/
def configurationOf (text : String) : Except Failure Configuration :=
  match Configuration.ofToml? text with
  | none => .error (.plain "failed to parse config")
  | some configuration =>
      match configuration.check with
      | .ok () => .ok configuration
      | .error error => .error (.plain error.message)

/-- Load the configuration that was asked for, or the default one. -/
def loadConfiguration : Option Path -> Action Configuration
  | none => return .default
  | some path =>
      Action.within ("loading config " ++ path) do
        let describe (error : SystemError) :=
          error.failure.within ("failed to read config " ++ path ++ ": " ++ error.text)
        let text <- readText describe path
        Action.ofExcept (configurationOf text)

/-- Load a graph and compile it. -/
def loadCompilation (configuration : Configuration) (path : Path) :
    Action Compilation := do
  let graph <- loadGraph path
  Action.within ("compiling " ++ path)
    (Action.ofExcept
      ((graph.compile configuration).mapError fun error =>
        match error with
        | .configuration cause => (Failure.plain cause.message).within error.message
        | _ => .plain error.message))

/-- Load a graph and validate it. -/
def loadValid (path : Path) : Action ValidGraph := do
  let graph <- loadGraph path
  Action.within ("validating " ++ path)
    (Action.ofExcept (graph.validate.mapError fun error => .plain error.message))

/-- Load a price history. A directory can be opened and fails when it is read. -/
def loadHistory (path : Path) : Action History :=
  Action.within ("loading bars " ++ path) do
    let describe (error : SystemError) :=
      match error with
      | .isDirectory => error.failure
      | _ => error.failure.within ("failed to read " ++ path ++ ": " ++ error.text)
    let bytes <- Action.readFile describe path
    Action.ofExcept
      ((History.read bytes.toList).mapError fun error => .plain error.message)

/-! ## Commands -/

/-- End a command that worked on several graphs. -/
def conclude (failed total : Nat) (verdict : String) : Action Unit :=
  if failed = 0 then return ()
  else
    Action.fail (.plain (failed.repr ++ " of " ++ total.repr ++ " graph(s) " ++ verdict))

/-- Number of graphs that failed. -/
def countFailures (outcomes : List (Path × Except Failure Value)) : Nat :=
  outcomes.countP fun outcome =>
    match outcome.2 with
    | .ok _ => false
    | .error _ => true

/-- Report the warnings of a compilation. -/
def reportWarnings (compilation : Compilation) : List Effect :=
  compilation.warnings.map fun warning => .reportLine ("warning: " ++ warning.text)

/-- The artifact of a compilation: the strategy with its digest and warnings. -/
def artifact (compilation : Compilation) : String :=
  Json.pretty (.record [
    ("fingerprint", .text compilation.strategy.fingerprint),
    ("strategy", compilation.strategy.toDatum),
    ("warnings", .list (compilation.warnings.map Warning.toDatum))])

/-- Where the artifact of a graph is written. -/
def artifactPath (directory graph : Path) (digest : String) : Path :=
  directory.join ((graph.stem?.getD (Strategy.shortDigest digest)) ++ ".json")

/-- Write or print the artifact of a graph. -/
def deliver (output : Option Path) (graph : Path) (compilation : Compilation) :
    List Effect :=
  match output with
  | none => [.printLine (artifact compilation)]
  | some directory =>
      let digest := compilation.strategy.fingerprint
      let target := artifactPath directory graph digest
      [.write target (artifact compilation),
        .printLine
          (graph ++ " -> " ++ target ++ " (" ++ Strategy.shortDigest digest ++ ")")]

/-- What compiling a graph comes to. -/
def compileEffects (output : Option Path) (outcome : Path × Except Failure Compilation) :
    List Effect :=
  match outcome.2 with
  | .error failure => [.reportLine ("Error for " ++ outcome.1 ++ ": " ++ failure.brief)]
  | .ok compilation =>
      reportWarnings compilation ++ deliver output outcome.1 compilation

/-- Do something for each graph and keep how each of them came out. -/
def attemptEach (load : Path -> Action Value) (graphs : List Path) :
    Action (List (Path × Except Failure Value)) :=
  graphs.mapM fun path => do return (path, <- (load path).attempt)

/-- Compile graphs. All of them are loaded before anything is delivered. -/
def compileGraphs (graphs : List Path) (configuration output : Option Path) :
    Action Unit := do
  let configuration <- loadConfiguration configuration
  Action.performAll (output.toList.map .createDirectories)
  let outcomes <- attemptEach (loadCompilation configuration) graphs
  Action.performAll (outcomes.flatMap (compileEffects output))
  conclude (countFailures outcomes) graphs.length "failed to compile"

/-- What checking a graph comes to. -/
def checkEffect (outcome : Path × Except Failure ValidGraph) : Effect :=
  match outcome.2 with
  | .error failure => .reportLine (outcome.1 ++ ": " ++ failure.brief)
  | .ok valid =>
      .printLine
        (outcome.1 ++ ": ok (" ++ valid.graph.actions.length.repr ++ " action(s), " ++
          valid.graph.exits.length.repr ++ " exit(s))")

/-- Check graphs. -/
def checkGraphs (graphs : List Path) : Action Unit := do
  let outcomes <- attemptEach loadValid graphs
  Action.performAll (outcomes.map checkEffect)
  conclude (countFailures outcomes) graphs.length "invalid"

/-- Print the report on a strategy and what there is to warn about. -/
def explainGraph (graph : Path) (configuration : Option Path) : Action Unit := do
  let configuration <- loadConfiguration configuration
  let compilation <- loadCompilation configuration graph
  Action.perform (.print compilation.strategy.report)
  if !compilation.warnings.isEmpty then
    Action.perform (.printLine "warnings:")
    Action.performAll
      (compilation.warnings.map fun warning => .printLine ("  " ++ warning.text))

/-- Print or write the backtest script of a strategy. -/
def generateScript (graph : Path) (configuration output : Option Path) : Action Unit := do
  let configuration <- loadConfiguration configuration
  let compilation <- loadCompilation configuration graph
  Action.performAll (reportWarnings compilation)
  let script <- Action.ofExcept
    ((compilation.strategy.script configuration.className).mapError fun error =>
      .plain error.message)
  match output with
  | none => Action.perform (.print script)
  | some path =>
      Action.performAll [.write path script, .printLine ("Generated " ++ path)]

/-- A text with blanks behind it up to a width. -/
def padEnd (width : Nat) (text : String) : String :=
  text ++ String.ofList (List.replicate (width - text.length) ' ')

/-- The line about a decision, unless there is nothing to do. -/
def decisionLine? (bar : Bar) (decision : Decision) : Option String :=
  decision.label?.map fun (label, rule) =>
    bar.date.text ++ "  " ++ padEnd 9 label ++ "  " ++ rule ++ "  close=" ++
      NumberText.display bar.close

/-- Lines about the decisions of a run and a summary. -/
def replayLines (bars : List Bar) (decisions : List Decision) : List String :=
  (bars.zip decisions).filterMap (fun entry => decisionLine? entry.1 entry.2) ++
    [decisions.length.repr ++ " bar(s), " ++
      ((bars.zip decisions).countP fun entry => entry.2.isEntry).repr ++ " entr(ies)"]

/-- Run a strategy over a price history. -/
def replayHistory (graph bars : Path) (configuration : Option Path) : Action Unit := do
  let configuration <- loadConfiguration configuration
  let compilation <- loadCompilation configuration graph
  Action.performAll (reportWarnings compilation)
  let history <- loadHistory bars
  let decisions <- Action.ofExcept
    ((compilation.strategy.replay history.series).mapError fun (error : SeriesError) =>
      Failure.plain error.message)
  Action.performAll ((replayLines history.bars decisions).map .printLine)

/-- What an invocation asks for. -/
def Invocation.action : Invocation -> Action Unit
  | .compile graphs configuration output => compileGraphs graphs configuration output
  | .check graphs => checkGraphs graphs
  | .explain graph configuration => explainGraph graph configuration
  | .codegen graph configuration output => generateScript graph configuration output
  | .replay graph bars configuration => replayHistory graph bars configuration

end Command
end StrategyGraph
