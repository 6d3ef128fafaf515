import StrategyGraph.Proofs.Compile.Sound
import StrategyGraph.Proofs.Number.Magnitude
import StrategyGraph.Proofs.Run.Lifecycle

/-!
# Entries that buy

A session enters by the first entry rule that fires and opens a position at the close, while the
size of the order is computed where it is executed. Where the close is positive and some equity
has a share that covers it, the two agree: a rule opens a position exactly if it buys something
for some equity. Elsewhere they do not. Of the sizings only a fixed amount of cash looks at the
close before it opens; the others open a position also where nothing is bought.
-/

namespace StrategyGraph

/-! ## Sizes -/

namespace Sizing

open Binary64

variable {price budget : Float}

theorem isUsable_iff {x : Float} : isUsable x = true ↔ x.isFinite = true ∧ 0 < x := by
  change (x.isFinite && !decide (x <= 0)) = true ↔ _
  rw [Bool.and_eq_true, Bool.not_eq_true', decide_eq_false_iff_not]
  exact and_congr_right not_le_zero_iff

/-- A budget buys something exactly if it covers the price, and then at least one share. -/
theorem affordable_iff (usable : isUsable price = true) :
    (0 < affordable budget price ↔ isUsable budget = true ∧ price <= budget) ∧
      (1 <= affordable budget price ↔ isUsable budget = true ∧ price <= budget) := by
  obtain ⟨finite, positive⟩ := isUsable_iff.1 usable
  by_cases spendable : isUsable budget = true
  · obtain ⟨finiteBudget, positiveBudget⟩ := isUsable_iff.1 spendable
    rw [affordable, if_pos spendable, and_iff_right spendable]
    exact floor_div_iff finiteBudget positiveBudget finite positive
  · rw [affordable, if_neg spendable]
    have nothing : ¬ (0 : Float) < 0 ∧ ¬ (1 : Float) <= 0 := by decide
    exact ⟨iff_of_false nothing.1 fun covers => spendable covers.1,
      iff_of_false nothing.2 fun covers => spendable covers.1⟩

/-- There is an equity for which something is bought at a price. -/
def Buys (sizing : Sizing) (price : Float) : Prop :=
  ∃ equity : Float, 0 < sizing.quantity price equity

/-- There is an equity whose share, if one is taken at all, covers a price. -/
def InReach (sizing : Sizing) (price : Float) : Prop :=
  match sizing with
  | .percentOfEquity percent =>
      0 < percent -> ∃ equity : Float,
        isUsable (equity * percent / 100) = true ∧ price <= equity * percent / 100
  | .allAvailable | .fixedCash _ | .fixedShares _ => True

/-- Nothing is bought at a price that is not positive. -/
theorem Buys.isUsable {sizing : Sizing} (buys : sizing.Buys price) : isUsable price = true := by
  obtain ⟨equity, some⟩ := buys
  by_contra unusable
  rw [quantity.eq_def, if_neg unusable] at some
  exact absurd some (by decide)

theorem buys_allAvailable (usable : isUsable price = true) : allAvailable.Buys price := by
  obtain ⟨finite, positive⟩ := isUsable_iff.1 usable
  have unsigned := unsigned_of_pos finite positive
  refine ⟨price, ?_⟩
  rw [quantity, if_pos usable]
  exact (affordable_iff usable).1.2 ⟨usable, (unsigned.le_iff unsigned).2 le_rfl⟩

theorem buys_fixedShares
    {shares : Float}
    (usable : isUsable price = true)
    (positive : 0 < shares) :
    (fixedShares shares).Buys price := by
  refine ⟨0, ?_⟩
  rw [quantity, if_pos usable]
  exact positive

theorem buys_fixedCash_iff {amount : Float} (usable : isUsable price = true) :
    (fixedCash amount).Buys price ↔ (fixedCash amount).opensAt price = true := by
  have size : ∀ equity, (fixedCash amount).quantity price equity = affordable amount price := by
    intro equity
    rw [quantity, if_pos usable]
    rfl
  have covers : (0 < affordable amount price ↔ _) ∧ (1 <= affordable amount price ↔ _) :=
    affordable_iff usable
  constructor
  · rintro ⟨equity, some⟩
    rw [size] at some
    change decide (1 <= (fixedCash amount).quantity price 0) = true
    rw [size, decide_eq_true_iff]
    exact covers.2.2 (covers.1.1 some)
  · intro opens
    change decide (1 <= (fixedCash amount).quantity price 0) = true at opens
    rw [size, decide_eq_true_iff] at opens
    refine ⟨0, ?_⟩
    rw [size]
    exact covers.1.2 (covers.2.1 opens)

theorem buys_percentOfEquity_iff {percent : Float} (usable : isUsable price = true) :
    (percentOfEquity percent).Buys price ↔ ∃ equity : Float,
      isUsable (equity * percent / 100) = true ∧ price <= equity * percent / 100 := by
  refine exists_congr fun equity => ?_
  rw [quantity, if_pos usable]
  exact (affordable_iff usable).1

/-- A percentage that is not positive is a share of nothing. -/
theorem not_isUsable_share
    {percent : Float}
    (finite : percent.isFinite = true)
    (nonnegative : 0 <= percent)
    (notPositive : ¬ 0 < percent)
    (equity : Float) :
    ¬ isUsable (equity * percent / 100) = true := by
  intro usable
  have void := isVoid_of_not_pos finite nonnegative notPositive
  exact not_pos_mul_div_of_isVoid void (by decide) (by decide)
    (isUsable_iff.1 usable).2

/-- An amount in range makes a sizing that buys something exactly at the positive prices within
its reach at which it opens a position. -/
theorem buys_iff
    {sizing : Sizing}
    {mode : SizingMode}
    {amount : Option Float}
    (inRange : SizingInRange amount mode)
    (sized : ofMode? mode amount = some sizing) :
    sizing.Buys price ↔
      sizing.opensAt price = true ∧ isUsable price = true ∧ sizing.InReach price := by
  by_cases usable : isUsable price = true
  swap
  · exact iff_of_false (fun buys => usable buys.isUsable) fun opens => usable opens.2.1
  cases mode with
  | allAvailable =>
      cases sized
      exact iff_of_true (buys_allAvailable usable) ⟨rfl, usable, trivial⟩
  | fixedCash =>
      obtain ⟨value, rfl, _⟩ := inRange
      cases sized
      rw [buys_fixedCash_iff usable, InReach]
      simp [usable]
  | fixedShares =>
      obtain ⟨value, rfl, _, positive⟩ := inRange
      cases sized
      exact iff_of_true (buys_fixedShares usable positive) ⟨rfl, usable, trivial⟩
  | percentOfEquity =>
      obtain ⟨percent, rfl, finite, nonnegative, _⟩ := inRange
      cases sized
      have opens : (percentOfEquity percent).opensAt price = true ↔ 0 < percent := by
        change decide (0 < percent) = true ↔ _
        rw [decide_eq_true_iff]
      rw [buys_percentOfEquity_iff usable, opens, InReach]
      constructor
      · rintro ⟨equity, covers⟩
        have positive : 0 < percent := by
          by_contra notPositive
          exact not_isUsable_share finite nonnegative notPositive equity covers.1
        exact ⟨positive, usable, fun _ => ⟨equity, covers⟩⟩
      · exact fun ⟨positive, _, reached⟩ => reached positive

section

variable
  {x y low high : Float}
  (usableX : isUsable x = true)
  (usableY : isUsable y = true)
  (usableLow : isUsable low = true)
  (usableHigh : isUsable high = true)
  (atLeast : low <= y)
  (atMost : y <= high)

include usableX usableY usableLow usableHigh atLeast atMost

/-- A product lies between those with a smaller and with a larger factor. -/
theorem isUsable_mul
    (lowProduct : isUsable (x * low) = true)
    (highProduct : isUsable (x * high) = true) :
    isUsable (x * y) = true ∧ x * low <= x * y ∧ x * y <= x * high := by
  rw [isUsable_iff] at usableX usableY usableLow usableHigh lowProduct highProduct
  have above := mul_le_mul_of_le usableX.1 usableX.2 usableLow.1 usableLow.2 usableY.1 usableY.2
    atLeast
  have below := mul_le_mul_of_le usableX.1 usableX.2 usableY.1 usableY.2 usableHigh.1
    usableHigh.2 atMost
  refine ⟨isUsable_iff.2 ?_, above, below⟩
  exact (unsigned_mul usableX.1 usableX.2 usableY.1 usableY.2).1.isFinite_pos_of_le
    (unsigned_of_pos lowProduct.1 lowProduct.2) lowProduct.2 above
    (unsigned_of_pos highProduct.1 highProduct.2) highProduct.1 below

/-- A quotient lies between those of a smaller and of a larger numerator. -/
theorem isUsable_div
    (lowQuotient : isUsable (low / x) = true)
    (highQuotient : isUsable (high / x) = true) :
    isUsable (y / x) = true ∧ low / x <= y / x := by
  rw [isUsable_iff] at usableX usableY usableLow usableHigh lowQuotient highQuotient
  have above := div_le_div_of_le usableX.1 usableX.2 usableLow.1 usableLow.2 usableY.1 usableY.2
    atLeast
  have below := div_le_div_of_le usableX.1 usableX.2 usableY.1 usableY.2 usableHigh.1
    usableHigh.2 atMost
  refine ⟨isUsable_iff.2 ?_, above⟩
  exact (unsigned_div usableY.1 usableY.2 usableX.1 usableX.2).1.isFinite_pos_of_le
    (unsigned_of_pos lowQuotient.1 lowQuotient.2) lowQuotient.2 above
    (unsigned_of_pos highQuotient.1 highQuotient.2) highQuotient.1 below

end

/-- An equity of which a millionth of a percent covers a quadrillion. -/
def ample : Float := 10000000000000000000000000

/-- Not a percentage below a millionth, unless nothing is bought at all. -/
def Substantial : Sizing -> Prop
  | .percentOfEquity percent => 0 < percent -> 1 / 1000000 <= percent
  | .allAvailable | .fixedCash _ | .fixedShares _ => True

/-- Substantial percentages reach prices up to a quadrillion. -/
theorem inReach_percentOfEquity
    {percent : Float}
    (finite : percent.isFinite = true)
    (substantial : (percentOfEquity percent).Substantial)
    (atMost : percent <= 100)
    (usable : isUsable price = true)
    (near : price <= 1000000000000000) :
    (percentOfEquity percent).InReach price := by
  intro positive
  have atLeast := substantial positive
  have given : isUsable ample = true ∧ isUsable (1 / 1000000 : Float) = true ∧
      isUsable (100 : Float) = true := by
    decide +kernel
  have ends : isUsable (ample * (1 / 1000000)) = true ∧ isUsable (ample * 100) = true ∧
      isUsable (ample * (1 / 1000000) / 100) = true ∧ isUsable (ample * 100 / 100) = true := by
    decide +kernel
  obtain ⟨equity, least, hundred⟩ := given
  obtain ⟨leastProduct, wholeProduct, leastShare, wholeShare⟩ := ends
  obtain ⟨product, above, below⟩ := isUsable_mul equity (isUsable_iff.2 ⟨finite, positive⟩) least
    hundred atLeast atMost leastProduct wholeProduct
  obtain ⟨share, covers⟩ := isUsable_div hundred product leastProduct wholeProduct above below
    leastShare wholeShare
  have limit : isUsable (1000000000000000 : Float) = true ∧
      (1000000000000000 : Float) <= ample * (1 / 1000000) / 100 := by
    decide +kernel
  have unsigned : ∀ {x : Float}, isUsable x = true -> Unsigned x := fun usable =>
    unsigned_of_pos (isUsable_iff.1 usable).1 (isUsable_iff.1 usable).2
  refine ⟨ample, share, ?_⟩
  have toLeast := (unsigned usable).le_trans (unsigned limit.1) (unsigned leastShare) near limit.2
  exact (unsigned usable).le_trans (unsigned leastShare) (unsigned share) toLeast covers

/-- So do all substantial sizings that are made of amounts in range. -/
theorem Substantial.inReach
    {sizing : Sizing}
    {mode : SizingMode}
    {amount : Option Float}
    (substantial : sizing.Substantial)
    (inRange : SizingInRange amount mode)
    (sized : ofMode? mode amount = some sizing)
    (usable : isUsable price = true)
    (near : price <= 1000000000000000) :
    sizing.InReach price := by
  cases mode with
  | allAvailable =>
      cases sized
      trivial
  | fixedCash | fixedShares =>
      obtain ⟨value, rfl, _⟩ := inRange
      cases sized
      trivial
  | percentOfEquity =>
      obtain ⟨percent, rfl, finite, _, atMost⟩ := inRange
      cases sized
      exact inReach_percentOfEquity finite substantial atMost usable near

end Sizing

/-! ## Entries -/

/-- An entry rule whose predicate holds at a bar. -/
def ActionRule.Enters (rule : ActionRule) (set : SeriesSet Float) (bar : Nat) : Prop :=
  rule.direction = .entry ∧ rule.predicate.holds set bar = true

namespace Session

variable
  {strategy : Strategy}
  {set : SeriesSet Float}
  {state : ExitState Float}
  {bar : Nat}
  {close : Float}
  {node : NodeId}

theorem opens_iff (rule : ActionRule) :
    ((decide (rule.direction = .entry) && rule.sizing.opensAt close) &&
        rule.predicate.holds set bar) = true ↔
      rule.Enters set bar ∧ rule.sizing.opensAt close = true := by
  rw [Bool.and_eq_true, Bool.and_eq_true, decide_eq_true_iff, ActionRule.Enters,
    and_right_comm]

/-- The entry rule that fires is the first one that opens a position. -/
theorem firstEntry_eq_some_iff {rule : ActionRule} :
    firstEntry? strategy set bar close = some rule ↔
      (rule.Enters set bar ∧ rule.sizing.opensAt close = true) ∧
        ∃ earlier later, strategy.actions = earlier ++ rule :: later ∧
          ∀ other ∈ earlier, other.Enters set bar -> ¬ other.sizing.opensAt close = true := by
  unfold firstEntry? firstFiring?
  rw [List.find?_eq_some_iff_append, opens_iff]
  refine and_congr_right fun _ => exists_congr fun earlier => exists_congr fun later =>
    and_congr_right fun _ => forall₂_congr fun other _ => ?_
  rw [Bool.not_eq_true', ← Bool.not_eq_true, opens_iff, not_and]

theorem firstEntry_eq_none_iff :
    firstEntry? strategy set bar close = none ↔
      ∀ rule ∈ strategy.actions, rule.Enters set bar -> ¬ rule.sizing.opensAt close = true := by
  unfold firstEntry? firstFiring?
  rw [List.find?_eq_none]
  refine forall₂_congr fun rule _ => ?_
  rw [opens_iff, not_and]

/-- Only a rule that fires at the close enters. -/
theorem exists_firstEntry_of_enter (enters : (onBar strategy set state bar).1 = .enter node) :
    ∃ close rule, closeAt? set bar = some close ∧
      firstEntry? strategy set bar close = some rule ∧ rule.node = node := by
  rw [onBar] at enters
  split at enters
  next => cases enters
  next =>
    split at enters
    next =>
      rw [decideOpen] at enters
      split at enters
      next => cases enters
      next => split at enters <;> cases enters
    next =>
      rw [decideFlat] at enters
      split at enters
      next => cases enters
      next close isClose =>
        split at enters
        next rule fires => exact ⟨close, rule, isClose, fires, Decision.enter.inj enters⟩
        next => cases enters

section

variable
  (isFlat : state.isOpen = false)
  (waited : strategy.historyRequired <= closedBars bar)
  (isClose : closeAt? set bar = some close)

include isFlat waited isClose

/-- Without a position a session that has waited enters by the entry rule that fires. -/
theorem onBar_of_firstEntry
    {rule : ActionRule}
    (fires : firstEntry? strategy set bar close = some rule) :
    onBar strategy set state bar = (.enter rule.node, state.enter close) := by
  rw [onBar, if_neg (Nat.not_lt.2 waited), isFlat, if_neg Bool.false_ne_true, decideFlat, isClose]
  dsimp only
  rw [fires]

/-- It holds if none fires. -/
theorem onBar_of_no_entry (quiet : firstEntry? strategy set bar close = none) :
    onBar strategy set state bar = (.hold, state) := by
  rw [onBar, if_neg (Nat.not_lt.2 waited), isFlat, if_neg Bool.false_ne_true, decideFlat, isClose]
  dsimp only
  rw [quiet]

end

end Session

namespace Graph

open Session

variable {graph : Graph} {configuration : Configuration} {compilation : Compilation}

/-- A rule of a compiled strategy buys something exactly at the positive closes within its reach
at which it opens a position. -/
theorem buys_iff_of_compile
    (accepted : graph.compile configuration = .ok compilation)
    {rule : ActionRule}
    (isRule : rule ∈ compilation.strategy.actions)
    {set : SeriesSet Float}
    {bar : Nat}
    {close : Float}
    (isClose : closeAt? set bar = some close) :
    rule.sizing.Buys close ↔
      rule.sizing.opensAt close = true ∧ 0 < close ∧ rule.sizing.InReach close := by
  obtain ⟨mode, amount, inRange, sized⟩ := sizing_inRange_of_compile accepted rule isRule
  have finite : close.isFinite = true := (closeAt_eq_some_iff.1 isClose).2
  rw [Sizing.buys_iff inRange sized, Sizing.isUsable_iff, and_iff_right finite]

/-- Entries buy. A session of a compiled strategy enters by a rule that buys something at the
close for some equity, provided that the close is positive and within the rule's reach, and then
no rule in front of it that fires buys anything. The other way around, without a position the
first rule that fires and buys something enters, whatever fires in front of it, as long as the
close is within reach, and if none does, the session holds at a positive close. Out of reach are at
most closes above a quadrillion and percentages below a millionth. -/
theorem entries_buy
    (accepted : graph.compile configuration = .ok compilation)
    (set : SeriesSet Float)
    (state : ExitState Float)
    (bar : Nat) :
    (∀ node, (onBar compilation.strategy set state bar).1 = .enter node ->
      ∃ close earlier rule later, closeAt? set bar = some close ∧
        compilation.strategy.actions = earlier ++ rule :: later ∧
        rule.node = node ∧ rule.Enters set bar ∧
        (rule.sizing.Buys close ↔ 0 < close ∧ rule.sizing.InReach close) ∧
        ∀ other ∈ earlier, other.Enters set bar -> ¬ other.sizing.Buys close) ∧
      (∀ close, state.isOpen = false ->
        compilation.strategy.historyRequired <= closedBars bar ->
        closeAt? set bar = some close ->
        (∀ earlier rule later, compilation.strategy.actions = earlier ++ rule :: later ->
          rule.Enters set bar -> rule.sizing.Buys close ->
          (∀ other ∈ earlier, other.Enters set bar ->
            other.sizing.InReach close ∧ ¬ other.sizing.Buys close) ->
          onBar compilation.strategy set state bar = (.enter rule.node, state.enter close)) ∧
        (0 < close ->
          (∀ rule ∈ compilation.strategy.actions, rule.Enters set bar ->
            rule.sizing.InReach close ∧ ¬ rule.sizing.Buys close) ->
          onBar compilation.strategy set state bar = (.hold, state))) ∧
      ∀ rule ∈ compilation.strategy.actions, rule.sizing.Substantial ->
        ∀ close : Float, close.isFinite = true -> 0 < close -> close <= 1000000000000000 ->
          rule.sizing.InReach close := by
  refine ⟨fun node enters => ?_, fun close isFlat waited isClose => ?_,
    fun rule isRule substantial close finite positive near => ?_⟩
  · obtain ⟨close, rule, isClose, fires, named⟩ := exists_firstEntry_of_enter enters
    obtain ⟨⟨entersRule, opens⟩, earlier, later, listed, skipped⟩ :=
      firstEntry_eq_some_iff.1 fires
    have buys : ∀ other ∈ earlier ++ rule :: later, other.sizing.Buys close ↔
        other.sizing.opensAt close = true ∧ 0 < close ∧ other.sizing.InReach close :=
      fun other isRule => buys_iff_of_compile accepted (listed ▸ isRule) isClose
    refine ⟨close, earlier, rule, later, isClose, listed, named, entersRule, ?_,
      fun other before entersOther buysOther => ?_⟩
    · rw [buys rule (by simp), and_iff_right opens]
    · exact skipped other before entersOther
        ((buys other (List.mem_append_left _ before)).1 buysOther).1
  · have buys : ∀ rule ∈ compilation.strategy.actions, rule.sizing.Buys close ↔
        rule.sizing.opensAt close = true ∧ 0 < close ∧ rule.sizing.InReach close :=
      fun rule isRule => buys_iff_of_compile accepted isRule isClose
    -- At a positive close a rule within reach that buys nothing opens no position.
    have closed : 0 < close -> ∀ rule ∈ compilation.strategy.actions,
        rule.sizing.InReach close ∧ ¬ rule.sizing.Buys close ->
          ¬ rule.sizing.opensAt close = true :=
      fun positive rule isRule nothing opens =>
        nothing.2 ((buys rule isRule).2 ⟨opens, positive, nothing.1⟩)
    refine ⟨fun earlier rule later listed enters buysRule skipped => ?_,
      fun positive skipped => ?_⟩
    · have isRule : ∀ other ∈ earlier ++ rule :: later,
          other ∈ compilation.strategy.actions := fun other member => listed ▸ member
      obtain ⟨opens, positive, _⟩ := (buys rule (isRule rule (by simp))).1 buysRule
      refine onBar_of_firstEntry isFlat waited isClose
        (firstEntry_eq_some_iff.2 ⟨⟨enters, opens⟩, earlier, later, listed, ?_⟩)
      exact fun other before entersOther =>
        closed positive other (isRule other (List.mem_append_left _ before))
          (skipped other before entersOther)
    · exact onBar_of_no_entry isFlat waited isClose (firstEntry_eq_none_iff.2
        fun rule isRule enters => closed positive rule isRule (skipped rule isRule enters))
  · obtain ⟨mode, amount, inRange, sized⟩ := sizing_inRange_of_compile accepted rule isRule
    exact substantial.inReach inRange sized (Sizing.isUsable_iff.2 ⟨finite, positive⟩) near

/-- Two purchases on every bar, for a fixed amount of cash and for a share of the equity. -/
def twoPurchases : Graph where
  nodes := [
    ⟨"cash", .action .buy .fixedCash (some 50)⟩,
    ⟨"share", .action .buy .percentOfEquity (some 25)⟩]
  edges := []

/-- A single bar that closes at a hundred. -/
def hundredClose : SeriesSet Float :=
  ⟨[("close", #[100])]⟩

theorem entries_buy_share :
    ∃ compilation, twoPurchases.compile .default = .ok compilation ∧
      (onBar compilation.strategy hundredClose (start compilation.strategy) 0).1 =
        .enter "share" ∧
      ∃ rule ∈ compilation.strategy.actions,
        rule.node = "share" ∧ rule.sizing = .percentOfEquity 25 ∧ rule.sizing.Buys 100 := by
  have computed : (twoPurchases.compile .default).toOption.map (fun compilation =>
      ((onBar compilation.strategy hundredClose (start compilation.strategy) 0).1,
        compilation.strategy.actions.map fun rule => (rule.node, rule.sizing))) =
      some (.enter "share", [("cash", .fixedCash 50), ("share", .percentOfEquity 25)]) := by
    decide +kernel
  obtain ⟨compilation, found, outcome⟩ := Option.map_eq_some_iff.1 computed
  obtain ⟨enters, sizings⟩ := Prod.mk.inj outcome
  have compiled := Outcome.toOption_eq_some_iff.1 found
  obtain ⟨entered, _, reaches⟩ :=
    entries_buy compiled hundredClose (start compilation.strategy) 0
  obtain ⟨close, earlier, rule, later, isClose, listed, named, _, buys, _⟩ :=
    entered "share" enters
  have isRule : rule ∈ compilation.strategy.actions := listed ▸ by simp
  have sized : rule.sizing = .percentOfEquity 25 := by
    have member : (rule.node, rule.sizing) ∈
        compilation.strategy.actions.map fun rule => (rule.node, rule.sizing) :=
      List.mem_map_of_mem isRule
    rw [sizings, named] at member
    simpa using member
  have isHundred : closeAt? hundredClose 0 = some 100 := by decide +kernel
  obtain rfl : close = 100 := Option.some.inj (isClose.symm.trans isHundred)
  have substantial : rule.sizing.Substantial := by
    rw [sized]
    intro _
    decide +kernel
  exact ⟨compilation, compiled, enters, rule, isRule, named, sized,
    buys.2 ⟨by decide, reaches rule isRule substantial 100 (by decide) (by decide)
      (by decide +kernel)⟩⟩

/-- A single purchase of one share on every bar. -/
def onePurchase : Graph where
  nodes := [⟨"shares", .action .buy .fixedShares (some 1)⟩]
  edges := []

/-- A single bar that closes at zero. -/
def zeroClose : SeriesSet Float :=
  ⟨[("close", #[0])]⟩

/-- At a close of zero a session enters by a rule that buys nothing whatever the equity. -/
theorem entry_without_size :
    ∃ compilation, onePurchase.compile .default = .ok compilation ∧
      (onBar compilation.strategy zeroClose (start compilation.strategy) 0).1 =
        .enter "shares" ∧
      ∀ rule ∈ compilation.strategy.actions, ¬ rule.sizing.Buys 0 := by
  have computed : (onePurchase.compile .default).toOption.map (fun compilation =>
      (onBar compilation.strategy zeroClose (start compilation.strategy) 0).1) =
        some (.enter "shares") := by
    decide +kernel
  obtain ⟨compilation, found, enters⟩ := Option.map_eq_some_iff.1 computed
  refine ⟨compilation, Outcome.toOption_eq_some_iff.1 found, enters, fun rule _ buys => ?_⟩
  exact absurd buys.isUsable (by decide)

end Graph
end StrategyGraph
