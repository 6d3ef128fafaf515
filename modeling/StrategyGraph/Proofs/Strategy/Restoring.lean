import StrategyGraph.Proofs.Graph.Restoring
import StrategyGraph.Strategy.Datum

/-!
# Strategies that are restored

The readers and writers of a strategy and of its parts belong together: what is written
without loss is read back, and what is read off finite data is written without loss. A
predicate is read within a bound on its height, which its written form never exceeds.
-/

namespace StrategyGraph

open Datum (Faithful Writable)

/-! ## Series and expressions -/

section

variable {standing : Standing}

theorem Relation.faithful :
    Faithful (Datum.choice? standing ofSymbol?) fun relation => .text (symbol relation) :=
  Datum.faithful_choice fun relation => by cases relation <;> rfl

theorem Direction.faithful :
    Faithful (Datum.choice? standing names.find?) fun direction => .text (name direction) :=
  Datum.faithful_choice fun direction => by cases direction <;> rfl

theorem IndicatorSeries.faithful : Faithful (ofDatum? standing) toDatum := by
  refine ⟨fun {depth series} writable => ?_, fun {depth datum series} finite reads => ?_⟩
  · rw [toDatum] at writable ⊢
    cases writable with
    | record each =>
        simp only [List.forall_mem_cons] at each
        obtain ⟨name, params, _⟩ := each
        have readsName : Datum.choice? standing Indicator.ofName? (.text series.indicator.name) =
            some series.indicator :=
          Indicator.faithful.restores name
        have readsParams := Datum.faithful_number.dictionary.restores params
        simp [ofDatum?, Datum.structure?_record, readsName, readsParams]
  · obtain ⟨inner, fields, rfl, isFinite, reads⟩ := Fields.slots_of_structure? finite reads
    obtain ⟨indicator, _, reads⟩ := Option.bind_eq_some_iff.1 reads
    obtain ⟨parameters, readsParameters, reads⟩ := Option.bind_eq_some_iff.1 reads
    cases reads
    have params := isFinite.writable_required Datum.faithful_number.dictionary readsParameters
    exact .record (by simp [Writable.text, params])

end

theorem Expression.faithful : Faithful ofDatum? toDatum := by
  refine ⟨fun {depth expression} writable => ?_, fun {depth datum expression} finite reads => ?_⟩
  · cases expression with
    | price column offset =>
        rw [toDatum] at writable ⊢
        cases writable with
        | record each =>
            simp only [List.forall_mem_cons] at each
            obtain ⟨_, field, back, _⟩ := each
            have readsField : Datum.choice? .inner Column.ofKey? (.text column.key) =
                some column :=
              Column.faithful.restores field
            have readsBack := Datum.faithful_count.restores back
            simp [ofDatum?, Fields.ofDatum?, tags, ofFields?,
              Datum.fields?_named, readsField, readsBack]
    | indicator series offset =>
        rw [toDatum] at writable ⊢
        cases writable with
        | record each =>
            simp only [List.forall_mem_cons] at each
            obtain ⟨_, spec, back, _⟩ := each
            have readsSpec : IndicatorSeries.ofDatum? .inner series.toDatum = some series :=
              IndicatorSeries.faithful.restores spec
            have readsBack := Datum.faithful_count.restores back
            simp [ofDatum?, Fields.ofDatum?, tags, ofFields?,
              Datum.fields?_named, readsSpec, readsBack]
    | literal constant =>
        rw [toDatum] at writable ⊢
        cases writable with
        | record each =>
            simp only [List.forall_mem_cons] at each
            obtain ⟨_, value, _⟩ := each
            have readsValue := Datum.faithful_number.restores value
            simp [ofDatum?, Fields.ofDatum?, tags, ofFields?, Datum.fields?_named, readsValue]
  · obtain ⟨inner, tag, remaining, rfl, isFinite, reads⟩ := Fields.variant_of_tagged finite reads
    cases tag with
    | price =>
        rw [ofFields?] at reads
        replace reads := Fields.slots_of_fields? reads
        obtain ⟨column, _, reads⟩ := Option.bind_eq_some_iff.1 reads
        obtain ⟨offset, readsOffset, reads⟩ := Option.bind_eq_some_iff.1 reads
        cases reads
        have back := isFinite.writable_required Datum.faithful_count readsOffset
        exact .record (by simpa [Writable.text] using back)
    | indicator =>
        rw [ofFields?] at reads
        replace reads := Fields.slots_of_fields? reads
        obtain ⟨series, readsSeries, reads⟩ := Option.bind_eq_some_iff.1 reads
        obtain ⟨offset, readsOffset, reads⟩ := Option.bind_eq_some_iff.1 reads
        cases reads
        have spec := isFinite.writable_required IndicatorSeries.faithful readsSeries
        have back := isFinite.writable_required Datum.faithful_count readsOffset
        exact .record (by simpa [Writable.text, spec] using back)
    | literal =>
        rw [ofFields?] at reads
        replace reads := Fields.slots_of_fields? reads
        obtain ⟨constant, readsConstant, reads⟩ := Option.bind_eq_some_iff.1 reads
        cases reads
        have value := isFinite.writable_required Datum.faithful_number readsConstant
        exact .record (by simpa [Writable.text] using value)

/-! ## Predicates -/

namespace Datum

theorem heightOfItems_le_iff {items : List Datum} {levels : Nat} :
    heightOfItems items <= levels ↔ ∀ item ∈ items, item.height <= levels := by
  induction items with
  | nil => simp [heightOfItems]
  | cons item items hypothesis =>
      rw [heightOfItems, Nat.max_le, hypothesis, List.forall_mem_cons]

theorem heightOfMembers_le_iff {members : List (String × Datum)} {levels : Nat} :
    heightOfMembers members <= levels ↔ ∀ member ∈ members, member.2.height <= levels := by
  induction members with
  | nil => simp [heightOfMembers]
  | cons member members hypothesis =>
      rw [heightOfMembers, Nat.max_le, hypothesis, List.forall_mem_cons]

theorem height_pos (datum : Datum) : 0 < datum.height := by
  cases datum with
  | list items => exact Nat.succ_pos _
  | record members => exact Nat.succ_pos _
  | _ => exact Nat.one_pos

end Datum

namespace Predicate

theorem toData_eq_map (parts : List Predicate) : toData parts = parts.map toDatum := by
  induction parts with
  | nil => rfl
  | cons part parts hypothesis => rw [toData, hypothesis, List.map_cons]

section

variable {standing : Standing} {levels depth : Nat}

/-- A predicate is read back within the height of its written form. -/
theorem readBounded_toDatum
    {predicate : Predicate}
    (writable : Writable depth predicate.toDatum)
    (bounded : predicate.toDatum.height <= levels) :
    readBounded standing levels predicate.toDatum = some predicate := by
  -- the reader goes down by one level for each predicate inside another
  induction levels generalizing standing depth predicate with
  | zero => exact absurd bounded (Nat.not_le.2 predicate.toDatum.height_pos)
  | succ levels hypothesis =>
      have readsParts : ∀ {parts : List Predicate} {depth : Nat},
          Writable depth (.list (toData parts)) ->
          (Datum.list (toData parts)).height <= levels ->
          Datum.listOf? (readBounded .inner levels) (.list (toData parts)) = some parts := by
        intro parts depth written low
        rw [toData_eq_map] at written low ⊢
        rw [Datum.height] at low
        have heights := Datum.heightOfItems_le_iff.1 (Nat.le_of_succ_le low)
        cases written with
        | list each =>
            exact Datum.listOf?_map fun part member =>
              hypothesis (each _ (List.mem_map_of_mem member))
                (heights _ (List.mem_map_of_mem member))
      cases predicate with
      | always =>
          simp [toDatum, readBounded, Fields.ofDatum?, tags, ofFields?]
      | compare left relation right =>
          rw [toDatum] at writable ⊢
          cases writable with
          | record each =>
              simp only [List.forall_mem_cons] at each
              obtain ⟨_, first, op, second, _⟩ := each
              have readsLeft := Expression.faithful.restores first
              have readsOp : Datum.choice? .inner Relation.ofSymbol? (.text relation.symbol) =
                  some relation :=
                Relation.faithful.restores op
              have readsRight := Expression.faithful.restores second
              simp [readBounded, Fields.ofDatum?, tags, ofFields?,
                Datum.fields?_named, readsLeft, readsOp, readsRight]
      | all parts | any parts =>
          rw [toDatum] at writable bounded ⊢
          cases writable with
          | record each =>
              simp only [Datum.height, Datum.heightOfMembers_le_iff, Nat.succ_le_succ_iff,
                List.forall_mem_cons] at each bounded
              have reads := readsParts each.2.1 bounded.2.1
              simp [readBounded, Fields.ofDatum?, tags, ofFields?, Datum.fields?_named, reads]
      | negation inner =>
          rw [toDatum] at writable bounded ⊢
          cases writable with
          | record each =>
              simp only [Datum.height, Datum.heightOfMembers_le_iff, Nat.succ_le_succ_iff,
                List.forall_mem_cons] at each bounded
              have reads : readBounded .inner levels inner.toDatum = some inner :=
                hypothesis each.2.1 bounded.2.1
              simp [readBounded, Fields.ofDatum?, tags, ofFields?, Datum.fields?_named, reads]

/-- A predicate that is read off finite data is written without loss. -/
theorem writable_of_readBounded
    {datum : Datum}
    {predicate : Predicate}
    (finite : datum.Finite depth)
    (reads : readBounded standing levels datum = some predicate) :
    Writable depth predicate.toDatum := by
  induction levels generalizing standing depth datum predicate with
  | zero => cases reads
  | succ levels hypothesis =>
      have writableParts : ∀ {fields : Fields} {parts : List Predicate} {depth : Nat},
          fields.Finite depth ->
          (fields.slot ["of"] "of").required (Datum.listOf? (readBounded .inner levels)) =
            some parts ->
          Writable depth (.list (toData parts)) := by
        intro fields parts depth isFinite found
        obtain ⟨source, isSource, found⟩ := isFinite.exists_of_required found
        obtain ⟨inner, rfl, sources⟩ := Datum.exists_of_listOf? isSource found
        rw [toData_eq_map]
        refine .list fun item member => ?_
        obtain ⟨part, listed, rfl⟩ := List.mem_map.1 member
        obtain ⟨source, isSource, found⟩ := sources part listed
        exact hypothesis isSource found
      rw [readBounded] at reads
      obtain ⟨inner, tag, remaining, rfl, isFinite, reads⟩ := Fields.variant_of_tagged finite reads
      cases tag with
      | always =>
          unfold ofFields? at reads
          dsimp only at reads
          split at reads
          next => cases reads
          next =>
            cases reads
            exact .record (by simp [Writable.text])
      | compare =>
          rw [ofFields?] at reads
          replace reads := Fields.slots_of_fields? reads
          obtain ⟨left, readsLeft, reads⟩ := Option.bind_eq_some_iff.1 reads
          obtain ⟨relation, _, reads⟩ := Option.bind_eq_some_iff.1 reads
          obtain ⟨right, readsRight, reads⟩ := Option.bind_eq_some_iff.1 reads
          cases reads
          have first := isFinite.writable_required Expression.faithful readsLeft
          have second := isFinite.writable_required Expression.faithful readsRight
          exact .record (by simp [Writable.text, first, second])
      | all | any =>
          rw [ofFields?] at reads
          replace reads := Fields.slots_of_fields? reads
          obtain ⟨parts, readsParts, reads⟩ := Option.bind_eq_some_iff.1 reads
          cases reads
          have written := writableParts isFinite readsParts
          exact .record (by simp [Writable.text, written])
      | negation =>
          rw [ofFields?] at reads
          replace reads := Fields.slots_of_fields? reads
          obtain ⟨part, readsPart, reads⟩ := Option.bind_eq_some_iff.1 reads
          cases reads
          obtain ⟨source, isSource, found⟩ := isFinite.exists_of_required readsPart
          have written := hypothesis isSource found
          exact .record (by simp [Writable.text, written])

end

theorem faithful : Faithful ofDatum? toDatum := by
  have bounded : Faithful (fun datum => readBounded .outer datum.height datum) toDatum :=
    ⟨fun writable => readBounded_toDatum writable (Nat.le_refl _), writable_of_readBounded⟩
  exact bounded.whole

end Predicate

/-! ## Rules -/

theorem Sizing.faithful : Faithful ofDatum? toDatum := by
  refine Faithful.whole ⟨fun {depth sizing} writable => ?_,
    fun {depth datum sizing} finite reads => ?_⟩
  · cases sizing with
    | allAvailable =>
        simp [toDatum, Fields.ofDatum?, SizingMode.names, ofFields?]
    | fixedCash quantity | fixedShares quantity | percentOfEquity quantity =>
        rw [toDatum] at writable ⊢
        cases writable with
        | record each =>
            simp only [List.forall_mem_cons] at each
            obtain ⟨_, number, _⟩ := each
            have readsNumber := Datum.faithful_number.restores number
            simp [Fields.ofDatum?, SizingMode.names, ofFields?, Datum.fields?_named, readsNumber]
  · obtain ⟨inner, mode, remaining, rfl, isFinite, reads⟩ := Fields.variant_of_tagged finite reads
    cases mode with
    | allAvailable =>
        unfold ofFields? at reads
        dsimp only at reads
        split at reads
        next => cases reads
        next =>
          cases reads
          exact .record (by simp [Writable.text])
    | fixedCash | fixedShares | percentOfEquity =>
        rw [ofFields?] at reads
        replace reads := Fields.slots_of_fields? reads
        obtain ⟨quantity, readsQuantity, reads⟩ := Option.bind_eq_some_iff.1 reads
        cases reads
        have number := isFinite.writable_required Datum.faithful_number readsQuantity
        exact .record (by simpa [Writable.text] using number)

theorem ActionRule.faithful : Faithful ofDatum? toDatum := by
  refine ⟨fun {depth rule} writable => ?_, fun {depth datum rule} finite reads => ?_⟩
  · rw [toDatum] at writable ⊢
    cases writable with
    | record each =>
        simp only [List.forall_mem_cons] at each
        obtain ⟨_, side, direction, predicate, sizing, _⟩ := each
        have readsSide : Datum.choice? .outer Side.names.find? (.text rule.side.name) =
            some rule.side :=
          Side.faithful.restores side
        have readsDirection :
            Datum.choice? .outer Direction.names.find? (.text rule.direction.name) =
              some rule.direction :=
          Direction.faithful.restores direction
        have readsPredicate := Predicate.faithful.restores predicate
        have readsSizing := Sizing.faithful.restores sizing
        simp [ofDatum?, Datum.structure?_record, Datum.text?, readsSide, readsDirection,
          readsPredicate, readsSizing]
  · obtain ⟨inner, fields, rfl, isFinite, reads⟩ := Fields.slots_of_structure? finite reads
    obtain ⟨node, _, reads⟩ := Option.bind_eq_some_iff.1 reads
    obtain ⟨side, _, reads⟩ := Option.bind_eq_some_iff.1 reads
    obtain ⟨direction, _, reads⟩ := Option.bind_eq_some_iff.1 reads
    obtain ⟨predicate, readsPredicate, reads⟩ := Option.bind_eq_some_iff.1 reads
    obtain ⟨sizing, readsSizing, reads⟩ := Option.bind_eq_some_iff.1 reads
    cases reads
    have test := isFinite.writable_required Predicate.faithful readsPredicate
    have size := isFinite.writable_required Sizing.faithful readsSizing
    exact .record (by simp [Writable.text, test, size])

theorem ExitRule.faithful : Faithful ofDatum? toDatum := by
  have faithfulRange : Faithful (Datum.nullable? (IndicatorSeries.ofDatum? .outer))
      (Datum.ofOption IndicatorSeries.toDatum) :=
    IndicatorSeries.faithful.nullable fun _ => nofun
  refine ⟨fun {depth rule} writable => ?_, fun {depth datum rule} finite reads => ?_⟩
  · rw [toDatum] at writable ⊢
    cases writable with
    | record each =>
        simp only [List.forall_mem_cons] at each
        obtain ⟨_, kind, basis, number, range, _⟩ := each
        have readsKind : Datum.choice? .outer ExitKind.names.find? (.text rule.kind.name) =
            some rule.kind :=
          ExitKind.faithful.restores kind
        have readsBasis : Datum.choice? .outer ExitBasis.names.find? (.text rule.basis.name) =
            some rule.basis :=
          ExitBasis.faithful.restores basis
        have readsMagnitude := Datum.faithful_number.restores number
        have readsRange := faithfulRange.restores range
        simp [ofDatum?, Datum.structure?_record, Datum.text?, readsKind, readsBasis,
          readsMagnitude, readsRange]
  · obtain ⟨inner, fields, rfl, isFinite, reads⟩ := Fields.slots_of_structure? finite reads
    obtain ⟨node, _, reads⟩ := Option.bind_eq_some_iff.1 reads
    obtain ⟨kind, _, reads⟩ := Option.bind_eq_some_iff.1 reads
    obtain ⟨basis, _, reads⟩ := Option.bind_eq_some_iff.1 reads
    obtain ⟨magnitude, readsMagnitude, reads⟩ := Option.bind_eq_some_iff.1 reads
    obtain ⟨atr, readsAtr, reads⟩ := Option.bind_eq_some_iff.1 reads
    cases reads
    have number := isFinite.writable_required Datum.faithful_number readsMagnitude
    have range := isFinite.writable_omissible faithfulRange .null readsAtr
    exact .record (by
      simp only [List.forall_mem_cons]
      exact ⟨.text, .text, .text, number, range, List.forall_mem_nil _⟩)

theorem StateSlot.faithful : Faithful ofDatum? toDatum := by
  refine Faithful.whole ⟨fun {depth slot} writable => ?_,
    fun {depth datum slot} finite reads => ?_⟩
  · cases slot <;>
      simp [toDatum, Fields.ofDatum?, tags, ofFields?, Datum.fields?_named, Datum.text?]
  · obtain ⟨inner, tag, remaining, rfl, isFinite, reads⟩ := Fields.variant_of_tagged finite reads
    cases slot <;> exact .record (by simp [Writable.text])

/-! ## Strategies -/

theorem Strategy.faithful : Faithful ofDatum? toDatum := by
  refine ⟨fun {depth strategy} writable => ?_, fun {depth datum strategy} finite reads => ?_⟩
  · rw [toDatum] at writable ⊢
    cases writable with
    | record each =>
        simp only [List.forall_mem_cons] at each
        obtain ⟨indicators, actions, exits, stateSlots, _⟩ := each
        have readsIndicators :
            Datum.listOf? (IndicatorSeries.ofDatum? .outer)
              (.list (strategy.indicators.map IndicatorSeries.toDatum)) =
                some strategy.indicators :=
          IndicatorSeries.faithful.list.restores indicators
        have readsActions := ActionRule.faithful.list.restores actions
        have readsExits := ExitRule.faithful.list.restores exits
        have readsSlots := StateSlot.faithful.list.restores stateSlots
        simp [ofDatum?, Datum.structure?_record, readsIndicators, readsActions, readsExits,
          readsSlots]
  · obtain ⟨inner, fields, rfl, isFinite, reads⟩ := Fields.slots_of_structure? finite reads
    obtain ⟨indicators, readsIndicators, reads⟩ := Option.bind_eq_some_iff.1 reads
    obtain ⟨actions, readsActions, reads⟩ := Option.bind_eq_some_iff.1 reads
    obtain ⟨exits, readsExits, reads⟩ := Option.bind_eq_some_iff.1 reads
    obtain ⟨stateSlots, readsSlots, reads⟩ := Option.bind_eq_some_iff.1 reads
    cases reads
    have series := isFinite.writable_required IndicatorSeries.faithful.list readsIndicators
    have rules := isFinite.writable_required ActionRule.faithful.list readsActions
    have risks := isFinite.writable_required ExitRule.faithful.list readsExits
    have slots := isFinite.writable_required StateSlot.faithful.list readsSlots
    exact .record (by
      simp only [List.forall_mem_cons]
      exact ⟨series, rules, risks, slots, List.forall_mem_nil _⟩)

end StrategyGraph
