import StrategyGraph.Proofs.Number.Floor
import StrategyGraph.Proofs.Run.Opening
import StrategyGraph.Proofs.Script.Run

/-!
# Orders of scripts

A script places one order for every entry rule that can buy anything. An order for an amount of
money or for a number of shares says how many shares it is for, and these are whole and at least
one. For an amount of money they are what the size of the rule comes to as well. A number of
shares is rounded down in the order, while the size keeps it as it is.
-/

namespace StrategyGraph
namespace Python

open Backtest (Code Statement)

/-! ## Orders -/

/-- An order: the remark that stands last before it and the arguments it is placed with. -/
structure Order where
  remark : Option String
  arguments : List Term

/-- Arguments of a term that places an order. -/
def orderArguments? : Term -> Option (List Term)
  | .call (.attribute (.name "self") "buy") arguments => some arguments
  | _ => none

mutual

/-- Orders in an instruction. -/
def orders : Instruction -> List Order
  | .evaluate remark term =>
      (orderArguments? term).toList.map fun arguments => ⟨remark, arguments⟩
  | .conditional _ body => ordersOf body
  | .function _ _ body => ordersOf body
  | .classOf _ _ body => ordersOf body
  | _ => []

/-- Orders in several instructions. -/
def ordersOf : List Instruction -> List Order
  | [] => []
  | instruction :: instructions => orders instruction ++ ordersOf instructions

end

theorem ordersOf_append (instructions others : List Instruction) :
    ordersOf (instructions ++ others) = ordersOf instructions ++ ordersOf others := by
  induction instructions with
  | nil => rfl
  | cons instruction instructions hypothesis =>
      rw [List.cons_append, ordersOf, ordersOf, hypothesis, List.append_assoc]

/-- No order is placed in statements. -/
def Orderless (statements : List Statement) : Prop :=
  ∀ remark, ordersOf (allInstructions remark statements) = []

namespace Orderless

variable {statements others : List Statement}

theorem append (orderless : Orderless statements) (orderlessToo : Orderless others) :
    Orderless (statements ++ others) := by
  intro remark
  rw [allInstructions_append, ordersOf_append, orderless, orderlessToo, List.nil_append]

theorem flatten {blocks : List (List Statement)} (each : ∀ block ∈ blocks, Orderless block) :
    Orderless blocks.flatten := by
  induction blocks with
  | nil => exact fun remark => rfl
  | cons block blocks hypothesis =>
      obtain ⟨first, later⟩ := List.forall_mem_cons.1 each
      exact first.append (hypothesis later)

theorem flatMap
    {Item : Type}
    {items : List Item}
    {block : Item -> List Statement}
    (each : ∀ item ∈ items, Orderless (block item)) :
    Orderless (items.flatMap block) := by
  rw [List.flatMap_def]
  exact flatten (List.forall_mem_map.2 each)

theorem map
    {Item : Type}
    {items : List Item}
    {statement : Item -> Statement}
    (each : ∀ item ∈ items, Orderless [statement item]) :
    Orderless (items.map statement) := by
  rw [List.map_eq_flatMap]
  exact flatMap each

theorem assign (target value : Code) (note : Option String) :
    Orderless [.assign target value note] :=
  fun _ => rfl

theorem conditional (condition : Code) (orderless : Orderless statements) :
    Orderless [.conditional condition statements] := by
  intro remark
  change ordersOf (allInstructions remark statements) ++ [] = []
  rw [orderless, List.append_nil]

end Orderless

/-! ## Orders of a script -/

section

variable (strategy : Strategy)

theorem orderless_declaring : Orderless (declaring strategy) := by
  refine (Orderless.assign _ _ _).append ((Orderless.map ?_).append (Orderless.map ?_))
  · exact fun _ _ => .assign _ _ _
  · exact fun _ _ => .assign _ _ _

theorem orderless_unsetting (price : Code) : Orderless (unsetting price strategy) :=
  (Orderless.assign _ _ _).append (Orderless.map fun _ _ => .assign _ _ _)

theorem orderless_exitCheck (index : Nat) (rule : ExitRule) :
    Orderless (Backtest.exitCheck index rule) := by
  intro remark
  rw [Backtest.exitCheck, Backtest.trailingCheck]
  cases rule.isTrailing <;> cases rule.atr <;> rfl

theorem orderless_holding : Orderless (Backtest.holding strategy) := by
  refine ((Orderless.flatten ?_).append (Orderless.flatMap ?_)).append fun _ => rfl
  · intro block member
    obtain ⟨index, _, rfl⟩ := List.mem_mapIdx.1 member
    exact orderless_exitCheck index _
  · intro rule _ remark
    rfl

theorem orderless_waiting : Orderless (Backtest.waiting strategy) := by
  intro remark
  rw [Backtest.waiting]
  split <;> rfl

/-- Orders of an entry rule. -/
def placed (rule : ActionRule) : List Order :=
  if Backtest.canBuy rule.sizing then
    [⟨some (Quoted.encode rule.node),
      ((Backtest.orderSize? rule.sizing).toList.map fun size => .keyword "size" (term size))⟩]
  else []

theorem ordersOf_entryRuleCheck (remark : Option String) (rule : ActionRule) :
    ordersOf (allInstructions remark (Backtest.entryRuleCheck rule)) = placed rule := by
  rw [Backtest.entryRuleCheck, placed]
  cases Backtest.canBuy rule.sizing with
  | false => rfl
  | true => cases rule.sizing <;> rfl

theorem ordersOf_entryRules (remark : Option String) (rules : List ActionRule) :
    ordersOf (allInstructions remark (rules.flatMap Backtest.entryRuleCheck)) =
      rules.flatMap placed := by
  induction rules generalizing remark with
  | nil => rfl
  | cons rule rules hypothesis =>
      rw [List.flatMap_cons, allInstructions_append, ordersOf_append, ordersOf_entryRuleCheck,
        hypothesis, List.flatMap_cons]

/-- A script has the orders of its entry rules. -/
theorem ordersOf_statements (className : String) :
    ordersOf (allInstructions none (Backtest.statements strategy className)) =
      (Backtest.rulesOf .entry strategy).flatMap placed := by
  have imports : ordersOf (allInstructions none (Backtest.imports strategy)) = [] := by
    rw [Backtest.imports]
    cases strategy.indicators.isEmpty <;> rfl
  have before : Orderless (Backtest.waiting strategy ++
      [.assign Backtest.close (.itemFromEnd (Backtest.columnCode .close) 1) none,
        .conditional Backtest.position (Backtest.holding strategy)]) := by
    refine (orderless_waiting strategy).append ?_
    exact (Orderless.assign _ _ _).append (.conditional _ (orderless_holding strategy))
  rw [allInstructions_statements, ordersOf_append, imports, List.nil_append]
  -- Of the four methods only the second one places orders, behind all that it does before.
  simp only [scriptOf, ordersOf, orders, orderless_declaring strategy _,
    orderless_unsetting strategy _ _, List.nil_append, List.append_nil]
  rw [deciding, allInstructions_append, ordersOf_append, before, List.nil_append,
    ordersOf_entryRules]

end

/-- Rules of different nodes have their own orders. -/
theorem filter_placed
    {rules : List ActionRule}
    (distinct : (rules.map ActionRule.node).Nodup)
    {rule : ActionRule}
    (isRule : rule ∈ rules) :
    (rules.flatMap placed).filter (fun order =>
      order.remark = some (Quoted.encode rule.node)) = placed rule := by
  obtain ⟨earlier, later, rfl⟩ := List.append_of_mem isRule
  rw [List.map_append, List.map_cons, List.nodup_middle, List.nodup_cons, ← List.map_append]
    at distinct
  -- Remarks are quoted identities, so no other rule has the remark of this one.
  have others : ∀ other ∈ earlier ++ later, (placed other).filter (fun order =>
      order.remark = some (Quoted.encode rule.node)) = [] := by
    intro other member
    have different : Quoted.encode other.node ≠ Quoted.encode rule.node := fun equal =>
      distinct.1 (Quoted.encode_injective equal ▸ List.mem_map_of_mem member)
    rw [placed]
    split <;> simp [different]
  have own : (placed rule).filter (fun order =>
      order.remark = some (Quoted.encode rule.node)) = placed rule := by
    rw [placed]
    split <;> simp
  rw [List.forall_mem_append] at others
  rw [List.flatMap_append, List.flatMap_cons, List.filter_append, List.filter_append, own,
    List.filter_flatMap, List.filter_flatMap, List.flatMap_eq_nil_iff.2 others.1,
    List.flatMap_eq_nil_iff.2 others.2, List.nil_append, List.append_nil]

end Python

/-! ## Fixed sizes -/

namespace Sizing

open Binary64

/-- The number that is written in an order. -/
def orderNumber? : Sizing -> Option Float
  | .fixedCash amount => some amount
  | .fixedShares shares => some (Backtest.wholeShares shares)
  | .allAvailable | .percentOfEquity _ => none

/-- An amount of money comes to a number of shares at a price, whatever the equity. In doubles
it may come to one more, where the quotient of amount and price is rounded to the next whole
number; quotients from two to the fifty-third on are left open. -/
structure CashBuys (amount : Float) (price : ℚ) (shares : Nat) : Prop where
  quantity : ∀ equity : Exact, (fixedCash amount).quantity (.number price) equity = .number shares
  inDoubles : ∀ close equity : Float, close.isFinite = true -> exact close = price ->
    exact amount / price < 2 ^ 53 ->
      exact ((fixedCash amount).quantity close equity) = shares ∨
        exact ((fixedCash amount).quantity close equity) = shares + 1 ∧
          exact (amount / close) = shares + 1

/-- A number of shares is rounded down for an order, but to one at least. The size keeps it, so
both are the same only for a whole number. -/
structure SharesBuy (amount : Float) (price : ℚ) (shares : Nat) : Prop where
  rounded : shares = max 1 ⌊exact amount⌋₊
  quantity : ∀ equity : Exact,
    (fixedShares amount).quantity (.number price) equity = .number (exact amount)
  inDoubles : ∀ close equity : Float, close.isFinite = true -> exact close = price ->
    (fixedShares amount).quantity close equity = amount
  whole : exact amount = shares ↔ ∃ count : Nat, exact amount = count

section

variable
  {amount : Float}
  (finite : amount.isFinite = true)
  (positive : 0 < amount)

include finite positive

section

variable
  {close : Float}
  (finiteClose : close.isFinite = true)
  (positiveClose : 0 < close)

include finiteClose positiveClose

theorem quantity_fixedCash_eq_floor (equity : Float) :
    (fixedCash amount).quantity close equity = floor (amount / close) := by
  rw [Sizing.quantity, if_pos (isUsable_iff.2 ⟨finiteClose, positiveClose⟩)]
  exact if_pos (isUsable_iff.2 ⟨finite, positive⟩)

/-- An amount of money opens a position at a double exactly if it does at the number the double
is: no rounding makes a share of less than one. -/
theorem opensAt_fixedCash_eq_exact :
    (fixedCash amount).opensAt close =
      (fixedCash amount).opensAt (Exact.number (exact close)) := by
  have isPositive := (zero_lt_exact_iff finiteClose).2 positiveClose
  rw [Python.opensAt_fixedCash finite positive isPositive]
  change decide (1 <= (fixedCash amount).quantity close 0) = _
  rw [decide_eq_decide, quantity_fixedCash_eq_floor finite positive finiteClose positiveClose,
    (floor_div_iff finite positive finiteClose positiveClose).2,
    ← (unsigned_of_pos finiteClose positiveClose).exact_le_exact_iff
      (unsigned_of_pos finite positive), ← one_le_div isPositive]
  exact_mod_cast (@Int.le_floor _ _ _ _ 1 (exact amount / exact close)).symm

end

variable
  {price : ℚ}
  (isPositive : 0 < price)

include isPositive

theorem cashBuys
    {shares : Nat}
    (pays : ⌊exact amount / price⌋ = (shares : Int)) :
    CashBuys amount price shares where
  quantity equity := by
    rw [Python.quantity_fixedCash finite positive isPositive, pays, Int.cast_natCast]
  inDoubles close equity finiteClose isPrice few := by
    subst isPrice
    have positiveClose : 0 < close := (zero_lt_exact_iff finiteClose).1 isPositive
    have whole := exact_floor_div finite positive finiteClose positiveClose few
    rw [pays, Int.cast_natCast] at whole
    rwa [quantity_fixedCash_eq_floor finite positive finiteClose positiveClose]

theorem sharesBuy : SharesBuy amount price (max 1 ⌊exact amount⌋₊) where
  rounded := rfl
  quantity equity := by
    rw [Sizing.quantity, if_pos (Python.isUsable_of_pos isPositive),
      Exact.ofFloat_of_isFinite finite]
  inDoubles close equity finiteClose isPrice := by
    subst isPrice
    rw [Sizing.quantity, if_pos (isUsable_iff.2
      ⟨finiteClose, (zero_lt_exact_iff finiteClose).1 isPositive⟩)]
    rfl
  whole := by
    refine ⟨fun same => ⟨_, same⟩, ?_⟩
    rintro ⟨count, same⟩
    have above := (zero_lt_exact_iff finite).2 positive
    rw [same, Nat.cast_pos] at above
    rw [same, Nat.floor_natCast, max_eq_right above]

end

/-- Ten shares at the double nearest to a tenth cost more than one, but the quotient is rounded
to ten. -/
example : (fixedCash 1).quantity (0.1 : Float) 0 = 10 ∧ ⌊exact 1 / exact 0.1⌋ = 9 := by
  decide +kernel

end Sizing

namespace Python

section

variable
  {here : Surroundings}
  {scope : Scope}
  {price : ℚ}
  (isPositive : 0 < price)
  {amount : Float}
  (finite : amount.isFinite = true)
  (positive : 0 < amount)

include isPositive finite positive

/-- An order for an amount of money is for the whole shares that it pays. -/
theorem exists_cashBuys
    (isClose : scope.value? "close" = some (.number (.number price)))
    (whole : scope.value? "int" = some (.builtin .int))
    (reads : reading here.numeral amount = Binary64.exact amount)
    (opens : (Sizing.fixedCash amount).opensAt (Exact.number price) = true) :
    ∃ shares : Nat, 1 <= shares ∧
      eval here scope
          (term (.call (.name "int") [.arithmetic (.number amount) .floorDiv Backtest.close])) =
        some (.number (.number shares)) ∧
      Sizing.CashBuys amount price shares := by
  rw [opensAt_fixedCash finite positive isPositive, decide_eq_true_iff] at opens
  have one : 1 <= ⌊Binary64.exact amount / price⌋ := by exact_mod_cast opens
  obtain ⟨shares, pays⟩ := Int.eq_ofNat_of_zero_le (zero_le_one.trans one)
  have enough : 1 <= shares := by
    rw [pays] at one
    exact_mod_cast one
  have truncated : Value.truncate (shares : ℚ) = shares := by
    rw [Value.truncate, if_pos (Nat.cast_nonneg shares), Int.floor_natCast, Int.cast_natCast]
  have isPrice : eval here scope (term Backtest.close) = some (.number (.number price)) :=
    (eval_name "close").trans isClose
  refine ⟨shares, enough, ?_, Sizing.cashBuys finite positive isPositive pays⟩
  rw [eval_cashOrder isPrice isPositive whole finite reads, pays, Int.cast_natCast, truncated]

/-- An order for a number of shares is for the whole ones of them, or for one. -/
theorem exists_sharesBuy
    (reads : reading here.numeral (Backtest.wholeShares amount) =
      Binary64.exact (Backtest.wholeShares amount)) :
    ∃ shares : Nat, 1 <= shares ∧
      eval here scope (term (.number (Backtest.wholeShares amount))) =
        some (.number (.number shares)) ∧
      Sizing.SharesBuy amount price shares := by
  have finiteWhole := Backtest.isFinite_wholeShares finite positive
  have nonnegative := ((Binary64.zero_lt_exact_iff finite).2 positive).le
  have shares : Binary64.exact (Backtest.wholeShares amount) =
      (max 1 ⌊Binary64.exact amount⌋₊ : Nat) := by
    rw [Backtest.exact_wholeShares finite positive, Int.cast_max, Int.cast_one,
      ← natCast_floor_eq_intCast_floor nonnegative, Nat.cast_max, Nat.cast_one]
  refine ⟨_, le_max_left _ _, ?_, Sizing.sharesBuy finite positive isPositive⟩
  rw [eval_number scope finiteWhole reads, Exact.ofFloat_of_isFinite finiteWhole, shares]

end

end Python

/-! ## Compiled strategies -/

namespace Graph

open Python

variable {graph : Graph} {configuration : Configuration} {compilation : Compilation}

/-- Compiled actions belong to different nodes. -/
theorem distinct_actions_of_compile (accepted : graph.compile configuration = .ok compilation) :
    (compilation.strategy.actions.map ActionRule.node).Nodup := by
  obtain ⟨valid, rfl, planned, compiles⟩ := compilesTo_of_compile accepted
  have ruled : compilation.strategy.actions.map ActionRule.node =
      planned.map PlannedAction.node := by
    rw [← List.forall₂_eq_eq_eq, List.forall₂_map_left_iff, List.forall₂_map_right_iff]
    refine compiles.rules.flip.imp fun rule action isRule => ?_
    obtain ⟨_, _, _, rfl⟩ := PlannedAction.rule_eq_ok_iff.1 isRule
    rfl
  have planning : planned.map PlannedAction.node = valid.graph.actions.map Node.id := by
    rw [← List.forall₂_eq_eq_eq, List.forall₂_map_left_iff, List.forall₂_map_right_iff]
    exact (plansAction_of_plannedActions compiles.plans).flip.imp fun action node plans =>
      plans.identity
  rw [ruled, planning]
  exact (distinct_of_check valid.checked).sublist (List.filter_sublist.map Node.id)

/-- Orders of a fixed size are for whole shares. The script of a compiled strategy has one order
for every entry rule that is sized by an amount of money or a number of shares, and at a positive
close at which the size opens a position its size argument is a whole number, at least one. For an
amount of money the size of the rule comes to the same number in exact arithmetic. For a number of
shares it does so exactly if this number is whole: the order is rounded down and the size is
not. Closes that are doubles open a position where the numbers they are do. -/
theorem order_sizes
    (accepted : graph.compile configuration = .ok compilation)
    {className text : String}
    (emitted : compilation.strategy.script className = .ok text)
    {numeral : String -> ℚ}
    (reads : ReadsBack numeral
      (compilation.strategy.actions.filterMap fun rule => rule.sizing.orderNumber?)) :
    ∃ instructions, Python.read text = some instructions ∧
      ∀ rule ∈ compilation.strategy.actions, rule.direction = .entry ->
        rule.sizing.orderNumber?.isSome = true ->
        ∃ size,
          (ordersOf instructions).filter (fun order =>
              order.remark = some (Quoted.encode rule.node)) =
            [⟨some (Quoted.encode rule.node), [.keyword "size" size]⟩] ∧
          (∀ close : Float, close.isFinite = true -> 0 < close ->
            rule.sizing.opensAt close =
              rule.sizing.opensAt (Exact.number (Binary64.exact close))) ∧
          ∀ (here : Surroundings) (scope : Scope) (price : ℚ),
            here.numeral = numeral ->
            scope.value? "int" = some (.builtin .int) ->
            scope.value? "close" = some (.number (.number price)) ->
            0 < price ->
            rule.sizing.opensAt (Exact.number price) = true ->
            ∃ shares : Nat, 1 <= shares ∧
              eval here scope size = some (.number (.number shares)) ∧
              (∀ amount, rule.sizing = .fixedCash amount ->
                Sizing.CashBuys amount price shares) ∧
              ∀ amount, rule.sizing = .fixedShares amount ->
                Sizing.SharesBuy amount price shares := by
  have sound := sound_of_compile accepted
  have distinct : ((Backtest.rulesOf .entry compilation.strategy).map ActionRule.node).Nodup :=
    (distinct_actions_of_compile accepted).sublist (List.filter_sublist.map ActionRule.node)
  refine ⟨_, read_of_script sound emitted, fun rule isRule enters isFixed => ?_⟩
  have isEntry : rule ∈ Backtest.rulesOf .entry compilation.strategy :=
    List.mem_filter.2 ⟨isRule, decide_eq_true enters⟩
  have sized := sound.sizings rule isRule
  have readsOwn : ∀ x ∈ rule.sizing.orderNumber?, reading numeral x = Binary64.exact x :=
    fun x isNumber => reads x (List.mem_filterMap.2 ⟨rule, isRule, isNumber⟩)
  rw [ordersOf_statements, filter_placed distinct isEntry, placed]
  cases sizing : rule.sizing with
  | allAvailable | percentOfEquity =>
      rw [sizing] at isFixed
      cases isFixed
  | fixedCash amount =>
      rw [sizing] at sized readsOwn
      refine ⟨_, rfl, fun close => Sizing.opensAt_fixedCash_eq_exact sized.1 sized.2,
        fun here scope price same whole isClose isPositive opens => ?_⟩
      subst same
      obtain ⟨shares, enough, isSize, buys⟩ := exists_cashBuys isPositive sized.1 sized.2 isClose
        whole (readsOwn amount rfl) opens
      refine ⟨shares, enough, isSize, ?_, ?_⟩
      · intro other same
        cases same
        exact buys
      · intro other same
        cases same
  | fixedShares amount =>
      rw [sizing] at sized readsOwn
      refine ⟨_, rfl, fun close _ _ => rfl,
        fun here scope price same whole isClose isPositive opens => ?_⟩
      subst same
      obtain ⟨shares, enough, isSize, buys⟩ := exists_sharesBuy isPositive sized.1 sized.2
        (readsOwn _ rfl)
      refine ⟨shares, enough, isSize, ?_, ?_⟩
      · intro other same
        cases same
      · intro other same
        cases same
        exact buys

/-- Two purchases, one for money and one of shares. -/
def stocking : Graph where
  nodes := [
    ⟨"money", .action .buy .fixedCash (some 500)⟩,
    ⟨"shares", .action .buy .fixedShares (some 3)⟩]
  edges := []

/-- Surroundings in which numerals are whole. -/
def wholeSurroundings : Surroundings :=
  ⟨wholeNumeral, ⟨[]⟩, 0, false⟩

/-- A scope with a close and the conversion to whole numbers. -/
def closedAt (price : ℚ) : Scope where
  globals name := if name = "int" then some (.builtin .int) else none
  locals name := if name = "close" then some (.number (.number price)) else none
  attributes _ := none

theorem order_sizes_stocking :
    ∃ compilation text instructions size,
      stocking.compile .default = .ok compilation ∧
        compilation.strategy.script "Stocking" = .ok text ∧
        Python.read text = some instructions ∧
        (ordersOf instructions).filter (fun order =>
            order.remark = some (Quoted.encode "money")) =
          [⟨some (Quoted.encode "money"), [.keyword "size" size]⟩] ∧
        eval wholeSurroundings (closedAt 120) size = some (.number (.number 4)) ∧
        ∀ equity : Exact, (Sizing.fixedCash 500).quantity (.number 120) equity = .number 4 := by
  have computed : (stocking.compile .default).toOption.map (fun compilation =>
      (compilation.strategy.actions.map (fun rule => (rule.node, rule.direction, rule.sizing)),
        (compilation.strategy.actions.filterMap fun rule => rule.sizing.orderNumber?).all
          fun x => reading wholeNumeral x = Binary64.exact x)) =
      some ([("money", .entry, .fixedCash 500), ("shares", .entry, .fixedShares 3)], true) := by
    decide +kernel
  obtain ⟨compilation, found, outcome⟩ := Option.map_eq_some_iff.1 computed
  obtain ⟨rules, numbers⟩ := Prod.mk.inj outcome
  have compiled := Outcome.toOption_eq_some_iff.1 found
  have emitted : compilation.strategy.script "Stocking" =
      .ok (Backtest.Statement.script (Backtest.statements compilation.strategy "Stocking")) :=
    Outcome.check_then_eq_ok_iff.2 ⟨by decide, rfl⟩
  have reads : ReadsBack wholeNumeral
      (compilation.strategy.actions.filterMap fun rule => rule.sizing.orderNumber?) :=
    fun x member => decide_eq_true_iff.1 (List.all_eq_true.1 numbers x member)
  obtain ⟨instructions, isRead, each⟩ := order_sizes compiled emitted reads
  obtain ⟨rule, _, listed, isFirst, _⟩ := List.map_eq_cons_iff.1 rules
  obtain ⟨named, rest⟩ := Prod.mk.inj isFirst
  obtain ⟨enters, sizing⟩ := Prod.mk.inj rest
  have isRule : rule ∈ compilation.strategy.actions := listed ▸ List.mem_cons_self
  obtain ⟨size, isPlaced, _, sizes⟩ := each rule isRule enters (by rw [sizing]; rfl)
  have opens : rule.sizing.opensAt (Exact.number 120) = true := by
    rw [sizing]
    decide +kernel
  obtain ⟨shares, _, isSize, cash, _⟩ := sizes wholeSurroundings (closedAt 120) 120 rfl rfl rfl
    (by norm_num) opens
  have buys := (cash 500 sizing).quantity
  have four : (Sizing.fixedCash 500).quantity (.number 120) (.number 0) = Exact.number 4 := by
    decide +kernel
  have same : (shares : ℚ) = 4 := Exact.number.inj ((buys (.number 0)).symm.trans four)
  rw [named] at isPlaced
  rw [same] at isSize buys
  exact ⟨compilation, _, instructions, size, compiled, emitted, isRead, isPlaced, isSize, buys⟩

/-- A single purchase of two shares and a half. -/
def halfShare : Graph where
  nodes := [⟨"enter", .action .buy .fixedShares (some 2.5)⟩]
  edges := []

/-- The script orders two shares where the size is two and a half. -/
theorem half_share_lost :
    ∃ compilation text instructions size,
      halfShare.compile .default = .ok compilation ∧
        compilation.strategy.script "HalfShare" = .ok text ∧
        Python.read text = some instructions ∧
        compilation.strategy.actions.map ActionRule.sizing = [.fixedShares 2.5] ∧
        (Sizing.fixedShares 2.5).opensAt (100 : Float) = true ∧
        (ordersOf instructions).map Order.arguments = [[.keyword "size" size]] ∧
        eval wholeSurroundings (closedAt 100) size = some (.number (.number 2)) ∧
        ∀ equity : Float, (Sizing.fixedShares 2.5).quantity 100 equity = 2.5 := by
  have computed : (halfShare.compile .default).toOption.map (fun compilation =>
      compilation.strategy.actions.map fun rule => (rule.direction, rule.sizing)) =
        some [(.entry, .fixedShares 2.5)] := by
    decide +kernel
  obtain ⟨compilation, found, rules⟩ := Option.map_eq_some_iff.1 computed
  have compiled := Outcome.toOption_eq_some_iff.1 found
  have emitted : compilation.strategy.script "HalfShare" =
      .ok (Backtest.Statement.script (Backtest.statements compilation.strategy "HalfShare")) :=
    Outcome.check_then_eq_ok_iff.2 ⟨by decide, rfl⟩
  obtain ⟨rule, others, listed, isFirst, isLast⟩ := List.map_eq_cons_iff.1 rules
  obtain rfl : others = [] := List.map_eq_nil_iff.1 isLast
  obtain ⟨enters, sizing⟩ := Prod.mk.inj isFirst
  have finite : (Backtest.wholeShares 2.5).isFinite = true := by decide +kernel
  have reads : reading wholeSurroundings.numeral (Backtest.wholeShares 2.5) =
      Binary64.exact (Backtest.wholeShares 2.5) := by
    decide +kernel
  have two : Binary64.exact (Backtest.wholeShares 2.5) = 2 := by
    decide +kernel
  refine ⟨compilation, _, _, term (.number (Backtest.wholeShares 2.5)), compiled, emitted,
    read_of_script (sound_of_compile compiled) emitted, ?_, rfl, ?_, ?_, fun equity => ?_⟩
  · rw [listed, List.map_singleton, sizing]
  · rw [ordersOf_statements, Backtest.rulesOf, listed, List.filter_singleton, enters]
    rw [decide_eq_true rfl, cond_true, List.flatMap_singleton, placed, sizing]
    rfl
  · rw [eval_number _ finite reads, Exact.ofFloat_of_isFinite finite, two]
  · rw [Sizing.quantity, if_pos (by decide +kernel)]
    rfl

end Graph
end StrategyGraph
