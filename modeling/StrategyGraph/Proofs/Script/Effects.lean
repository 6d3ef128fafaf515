import StrategyGraph.Proofs.Run.Lifecycle
import StrategyGraph.Proofs.Script.Machine
import StrategyGraph.Proofs.Text.Quoted

/-!
# Effects of scripts

What a script does for each decision of its strategy. Remarks tell the rules apart, so
what the script does tells the decision.
-/

namespace StrategyGraph
namespace Python

/-- What a script does where its strategy decides: nothing where it holds, else one act
whose remark names the rule. -/
inductive Acts (strategy : Strategy) : Decision -> List Effect -> Prop where
  | hold : Acts strategy .hold []
  | enter (isRule : rule ∈ strategy.actions) (enters : rule.direction = .entry) :
      Acts strategy (.enter rule.node) [⟨.buy, some (Quoted.encode rule.node)⟩]
  | exit (isRule : rule ∈ strategy.actions) (exits : rule.direction = .exit) :
      Acts strategy (.exit rule.node) [⟨.close, some (Quoted.encode rule.node)⟩]
  | riskExit (isRule : rule ∈ strategy.exits) :
      Acts strategy (.riskExit rule.node)
        [⟨.close, some (rule.kind.text ++ " " ++ Quoted.encode rule.node)⟩]

/-- Remarks of risk exits of different nodes are different. -/
theorem node_eq_of_riskRemark
    {kind kindOther : ExitKind}
    {node nodeOther : NodeId}
    (equal : kind.text ++ " " ++ Quoted.encode node =
      kindOther.text ++ " " ++ Quoted.encode nodeOther) :
    node = nodeOther := by
  have starts := congrArg (fun remark => remark.toList.take 2) equal
  have same : kind = kindOther := by
    cases kind <;> cases kindOther <;>
      first | rfl | exact absurd starts (by simp [ExitKind.text])
  rw [same, String.append_right_inj] at equal
  exact Quoted.encode_injective equal

/-- No remark of an action rule is one of a risk exit. -/
theorem encode_ne_riskRemark (kind : ExitKind) (node nodeOther : NodeId) :
    Quoted.encode node ≠ kind.text ++ " " ++ Quoted.encode nodeOther := by
  intro equal
  have starts := congrArg (fun remark => remark.toList.take 1) equal
  cases kind <;> exact absurd starts (by simp [ExitKind.text, Quoted.encode])

/-- What a script does tells the decision. -/
theorem Acts.eq_of_acts
    {strategy : Strategy}
    {decision other : Decision}
    {effects : List Effect}
    (acts : Acts strategy decision effects)
    (actsOther : Acts strategy other effects) :
    other = decision := by
  generalize equal : effects = effectsOther at actsOther
  cases acts <;> cases actsOther <;>
    simp only [List.cons.injEq, Effect.mk.injEq, Option.some.injEq, reduceCtorEq, and_true,
      true_and, false_and] at equal
  · rfl
  · rw [Quoted.encode_injective equal]
  · rw [Quoted.encode_injective equal]
  · exact absurd equal (encode_ne_riskRemark _ _ _)
  · exact absurd equal.symm (encode_ne_riskRemark _ _ _)
  · rw [node_eq_of_riskRemark equal]

/-- Whether a position is open behind a decision. -/
def openBehind (isOpen : Bool) : Decision -> Bool
  | .hold => isOpen
  | .enter _ => true
  | .exit _ => false
  | .riskExit _ => false

/-- A position is open behind a bar where the effects of the script leave one. -/
theorem holdingAfter_eq
    {strategy : Strategy}
    {set : SeriesSet Exact}
    {bar : Nat}
    {state next : ExitState Exact}
    {decision : Decision}
    {effects : List Effect}
    (transition : Session.Transition strategy set bar state decision next)
    (acts : Acts strategy decision effects) :
    Script.holdingAfter state.isOpen effects = next.isOpen := by
  have left : Script.holdingAfter state.isOpen effects = openBehind state.isOpen decision := by
    cases acts <;> rfl
  rw [left]
  cases transition with
  | keep isOpen samePrice => exact (congrArg Option.isSome samePrice).symm
  | _ => rfl

end Python
end StrategyGraph
