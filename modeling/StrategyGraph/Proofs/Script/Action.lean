import StrategyGraph.Proofs.Script.Instruction

/-!
# Actions of scripts

The exit rules and the entry rules of a script are tried one behind the other. The
first one that fires ends the bar, and the remark before it names its node.
-/

namespace StrategyGraph
namespace Python

open Backtest (Code Statement)

section

variable
  {here : Surroundings}
  {globals : String -> Option Value}
  {calls : Calls}
  {strategy : Strategy}
  {declared : List IndicatorSeries}
  {frame : Frame}

/-! ## Exits -/

/-- The first exit rule whose predicate holds closes the position. -/
theorem performAll_exitRules
    (ready : (frame.scope globals).Ready declared)
    (flat : ∀ attributes,
      calls "_flat" [] attributes = some (resetAttributes strategy .none attributes))
    {rules : List ActionRule}
    (truths : ∀ rule ∈ rules,
      eval here (frame.scope globals) (term (Backtest.predicateCode rule.predicate)) =
        some (.truth (rule.predicate.holds here.set here.bar)))
    (remark : Option String) :
    performAll here globals calls
        (allInstructions remark (rules.flatMap Backtest.exitRuleCheck)) frame =
      match rules.find? fun rule => rule.predicate.holds here.set here.bar with
      | some rule => some (frame.closed strategy (some (Quoted.encode rule.node)), true)
      | none => some (frame, false) := by
  induction rules generalizing remark with
  | nil => rfl
  | cons rule rules hypothesis =>
      have first : performAll here globals calls
          (allInstructions remark (Backtest.exitRuleCheck rule)) frame = _ :=
        performAll_closingIf ready flat (truths rule List.mem_cons_self)
          (some (Quoted.encode rule.node))
      rw [List.flatMap_cons, allInstructions_append]
      cases holds : rule.predicate.holds here.set here.bar with
      | true =>
          rw [holds, if_pos rfl] at first
          rw [performAll_append_of_leaves first, List.find?_cons, holds]
      | false =>
          rw [holds, if_neg Bool.false_ne_true] at first
          rw [performAll_append_of_stays first, List.find?_cons, holds]
          exact hypothesis (fun other member => truths other (List.mem_cons_of_mem rule member))
            (remarkBehindAll remark (Backtest.exitRuleCheck rule))

/-! ## Entries -/

variable
  {close : ℚ}
  (prepared : frame.Prepared globals declared close)
  (isPositive : 0 < close)
  (opened : ∀ price attributes,
    calls "_opened" [price] attributes = some (resetAttributes strategy price attributes))

include prepared isPositive opened

/-- What opens a position buys at the close and ends the bar. -/
theorem performAll_opening
    {sizing : Sizing}
    (sized : sizing.Sound)
    (buys : Backtest.canBuy sizing = true)
    (reads : ∀ amount, sizing = .fixedCash amount ->
      reading here.numeral amount = Binary64.exact amount)
    (remark : Option String) :
    performAll here globals calls (allInstructions remark (Backtest.opening sizing)) frame =
      some (frame.opened strategy (.number close) remark, true) := by
  have isSelf : ∀ next : Frame, next.locals = frame.locals ->
      eval here (next.scope globals) (.name "self") = some .self := by
    intro next equal
    rw [eval_name, Scope.value?]
    change (next.locals "self" <|> globals "self") = _
    rw [equal]
    exact prepared.ready.self
  have isClose := eval_close here prepared
  have isSize := exists_eval_orderSize isClose isPositive prepared.ready sized buys reads
  have places : perform here globals calls
      (.evaluate remark (term (.call (Code.own "buy")
        ((Backtest.orderSize? sizing).toList.map fun size => Code.keyword "size" size))))
      frame = some (frame.addEffect .buy remark, false) := by
    change (evaluate here globals calls remark (.call (.attribute (.name "self") "buy")
      (terms _)) frame).map _ = _
    rw [evaluate, isSelf frame rfl]
    cases given : Backtest.orderSize? sizing with
    | none => rfl
    | some size =>
        obtain ⟨value, isValue⟩ := isSize size given
        change Option.map _ (Option.bind (List.mapM (evalArgument here (frame.scope globals))
          [.keyword "size" (term size)]) _) = _
        rw [List.mapM_cons, evalArgument, isValue]
        rfl
  have sets : perform here globals calls
      (.evaluate remark (term (.call (Code.own "_opened") [Backtest.close])))
      (frame.addEffect .buy remark) =
        some (frame.opened strategy (.number close) remark, false) := by
    have argument : evalEach here ((frame.addEffect .buy remark).scope globals)
        [term Backtest.close] = some [.number (.number close)] := by
      rw [evalEach]
      change (eval here (frame.scope globals) (term Backtest.close)).bind _ = _
      rw [isClose]
      rfl
    change (evaluate here globals calls remark (.call (.attribute (.name "self") "_opened")
      [term Backtest.close]) (frame.addEffect .buy remark)).map _ = _
    rw [evaluate, isSelf (frame.addEffect .buy remark) rfl]
    change Option.map _ (Option.bind (evalEach here ((frame.addEffect .buy remark).scope globals)
      [term Backtest.close]) fun values =>
        (calls "_opened" values (frame.addEffect .buy remark).attributes).bind _) = _
    rw [argument, Option.bind_some, opened]
    rfl
  exact (performAll_of_stays places _).trans ((performAll_of_stays sets _).trans rfl)

/-- The check of an entry rule buys if the rule fires and its size buys something. -/
theorem performAll_entryRuleCheck
    (counts : ReadsCounts here.numeral)
    {rule : ActionRule}
    (sized : rule.sizing.Sound)
    (reads : ∀ amount, rule.sizing = .fixedCash amount ->
      reading here.numeral amount = Binary64.exact amount)
    (isTruth : eval here (frame.scope globals) (term (Backtest.predicateCode rule.predicate)) =
      some (.truth (rule.predicate.holds here.set here.bar)))
    (remark : Option String) :
    performAll here globals calls
        (allInstructions remark (Backtest.entryRuleCheck rule)) frame =
      if rule.predicate.holds here.set here.bar && rule.sizing.opensAt (Exact.number close) then
        some (frame.opened strategy (.number close) (some (Quoted.encode rule.node)), true)
      else some (frame, false) := by
  rw [Backtest.entryRuleCheck]
  cases buys : Backtest.canBuy rule.sizing with
  | true =>
      have condition := eval_entryCondition (eval_close here prepared) isPositive sized buys
        counts reads isTruth
      have opens := performAll_opening prepared isPositive opened sized buys reads
        (some (Quoted.encode rule.node))
      change performAll here globals calls [.conditional (term _)
        (allInstructions (some (Quoted.encode rule.node)) (Backtest.opening rule.sizing))]
        frame = _
      rw [performAll_singleton, perform_conditional condition, opens]
  | false =>
      have opensNot : rule.sizing.opensAt (Exact.number close) = false := by
        cases sizing : rule.sizing with
        | percentOfEquity percent =>
            rw [sizing] at sized buys
            rw [opensAt_percentOfEquity sized, buys]
        | _ =>
            rw [sizing] at buys
            cases buys
      rw [opensNot, Bool.and_false]
      rfl

/-- The first entry rule that fires with a size that buys something opens a position. -/
theorem performAll_entryRules
    (counts : ReadsCounts here.numeral)
    {rules : List ActionRule}
    (sized : ∀ rule ∈ rules, rule.sizing.Sound)
    (reads : ∀ rule ∈ rules, ∀ amount, rule.sizing = .fixedCash amount ->
      reading here.numeral amount = Binary64.exact amount)
    (truths : ∀ rule ∈ rules,
      eval here (frame.scope globals) (term (Backtest.predicateCode rule.predicate)) =
        some (.truth (rule.predicate.holds here.set here.bar)))
    (remark : Option String) :
    performAll here globals calls
        (allInstructions remark (rules.flatMap Backtest.entryRuleCheck)) frame =
      match rules.find? fun rule =>
        rule.predicate.holds here.set here.bar && rule.sizing.opensAt (Exact.number close) with
      | some rule =>
          some (frame.opened strategy (.number close) (some (Quoted.encode rule.node)), true)
      | none => some (frame, false) := by
  induction rules generalizing remark with
  | nil => rfl
  | cons rule rules hypothesis =>
      have first := performAll_entryRuleCheck prepared isPositive opened counts
        (sized rule List.mem_cons_self) (reads rule List.mem_cons_self)
        (truths rule List.mem_cons_self) remark
      rw [List.flatMap_cons, allInstructions_append]
      cases fires : rule.predicate.holds here.set here.bar &&
          rule.sizing.opensAt (Exact.number close) with
      | true =>
          rw [fires, if_pos rfl] at first
          rw [performAll_append_of_leaves first, List.find?_cons, fires]
      | false =>
          rw [fires, if_neg Bool.false_ne_true] at first
          rw [performAll_append_of_stays first, List.find?_cons, fires]
          exact hypothesis (fun other member => sized other (List.mem_cons_of_mem rule member))
            (fun other member => reads other (List.mem_cons_of_mem rule member))
            (fun other member => truths other (List.mem_cons_of_mem rule member))
            (remarkBehindAll remark (Backtest.entryRuleCheck rule))

end

end Python
end StrategyGraph
