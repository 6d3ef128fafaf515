import StrategyGraph.Strategy.Datum

/-!
# Reports

A readable account of a compiled strategy: its short digest, the history it
needs, the series it reads and its rules.
-/

namespace StrategyGraph

namespace Strategy

/-- Lines of a section, or a remark that there are none. -/
def listing (lines : List String) : List String :=
  if lines.isEmpty then ["  (none)"] else lines

/-- Lines of the report on a strategy. -/
def reportLines (strategy : Strategy) : List String :=
  ["strategy " ++ shortDigest strategy.fingerprint,
    "history: " ++ strategy.historyRequired.repr ++ " bar(s)",
    "indicators:"] ++
  listing (strategy.indicators.map fun series =>
    "  " ++ series.text ++ " [" ++ series.key ++ "]") ++
  ["actions:"] ++
  strategy.actions.map (fun rule => "  " ++ rule.text) ++
  ["exits:"] ++
  listing (strategy.exits.map fun rule => "  " ++ rule.text)

/-- Report on a strategy, each line ended by a line break. -/
def report (strategy : Strategy) : String :=
  String.join (strategy.reportLines.map fun line => line ++ "\n")

end Strategy
end StrategyGraph
