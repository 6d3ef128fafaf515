import StrategyGraph.Data.Datum
import StrategyGraph.Graph.Node

/-!
# Decisions

What a strategy wants done at the close of a bar, with the rule that decides it.
-/

namespace StrategyGraph

/-- What a strategy wants done at the close of a bar. -/
inductive Decision where
  | hold
  /-- An entry rule fired. -/
  | enter (rule : NodeId)
  /-- An exit rule fired. -/
  | exit (rule : NodeId)
  /-- A risk exit triggered. -/
  | riskExit (rule : NodeId)
  deriving DecidableEq

namespace Decision

/-- Whether nothing is to be done. -/
def isHold : Decision -> Bool
  | .hold => true
  | _ => false

/-- Whether a position is to be opened. -/
def isEntry : Decision -> Bool
  | .enter _ => true
  | _ => false

/-- What is to be done, in words, and the rule that decided it. -/
def label? : Decision -> Option (String × NodeId)
  | .hold => none
  | .enter rule => some ("enter", rule)
  | .exit rule => some ("exit", rule)
  | .riskExit rule => some ("risk exit", rule)

/-- Written form of a decision. -/
def toDatum : Decision -> Datum
  | .hold => .record [("decision", .text "hold")]
  | .enter rule => .record [("decision", .text "enter"), ("rule", .text rule)]
  | .exit rule => .record [("decision", .text "exit"), ("rule", .text rule)]
  | .riskExit rule => .record [("decision", .text "risk_exit"), ("rule", .text rule)]

end Decision
end StrategyGraph
