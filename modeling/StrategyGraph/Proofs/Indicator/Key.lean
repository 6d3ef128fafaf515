import StrategyGraph.Proofs.Compile.Distinct
import StrategyGraph.Proofs.Indicator.Complete
import StrategyGraph.Proofs.Number.Display
import StrategyGraph.Proofs.Script.Instance

/-!
# Keys of series

The key of a complete series is the name of its indicator and, behind an underscore each,
its values. The first digit of a key shows where the name ends, and an underscore where a
value ends, so the key determines the indicator and the values.

Main result: `IndicatorSeries.keys_identify_series`.
-/

namespace StrategyGraph

/-! ## Codes behind marks -/

/-- Of codes with a mark before each, in none of which the mark occurs, every mark shows where
the code before it ends. -/
theorem marked_injective
    {Item : Type}
    {admitted : Item -> Prop}
    {mark : Char}
    {code : Item -> List Char}
    (apart : ∀ item, admitted item -> mark ∉ code item)
    (tells : ∀ item other, admitted item -> admitted other -> code item = code other ->
      item = other)
    {items others : List Item}
    (each : ∀ item ∈ items, admitted item)
    (eachOther : ∀ item ∈ others, admitted item)
    (alike : (items.flatMap fun item => mark :: code item) =
      others.flatMap fun item => mark :: code item) :
    items = others := by
  have stops (behind : List Item) :
      ∀ character ∈ (behind.flatMap fun item => mark :: code item).head?, character = mark := by
    cases behind <;> simp
  induction items generalizing others with
  | nil =>
      cases others with
      | nil => rfl
      | cons other others => cases alike
  | cons item items hypothesis =>
      cases others with
      | nil => cases alike
      | cons other others =>
          obtain ⟨first, rest⟩ := List.forall_mem_cons.1 each
          obtain ⟨firstOther, restOther⟩ := List.forall_mem_cons.1 eachOther
          obtain ⟨sameCode, sameRest⟩ := eq_of_append_of_notMem (apart item first)
            (apart other firstOther) (stops items) (stops others) (List.cons.inj alike).2
          rw [tells item other first firstOther sameCode, hypothesis rest restOther sameRest]

namespace IndicatorSeries

open NumberText (display)

/-! ## Numbers in keys -/

section

variable {value other : Float} (finite : value.isFinite = true) (positive : 0 < value)

include finite positive

theorem isNumeral_display : Python.IsNumeral (display value).toList := by
  obtain ⟨content, isNumeral, shape⟩ := Python.exists_numeral finite
  rw [(Binary64.unsigned_of_pos finite positive).noSign, if_neg Bool.false_ne_true,
    List.nil_append] at shape
  rw [shape]
  exact isNumeral

/-- In a key a number is written in digits, and `p` stands for the point. -/
theorem mem_keyNumber
    {character : Char}
    (member : character ∈ (keyNumber value).toList) :
    isDigit character = true ∨ character = 'p' := by
  rw [keyNumber, String.toList_ofList] at member
  obtain ⟨written, inDisplay, rfl⟩ := List.mem_map.1 member
  split
  next => exact Or.inr rfl
  next notPoint =>
    exact Or.inl ((isNumeral_display finite positive).digit_of_ne inDisplay notPoint)

/-- Numbers in keys start with a digit. -/
theorem exists_digit_keyNumber :
    ∃ first rest, (keyNumber value).toList = first :: rest ∧ isDigit first = true := by
  obtain ⟨first, rest, shape, digit⟩ := (isNumeral_display finite positive).exists_digit
  have notPoint : first ≠ '.' := by
    rintro rfl
    exact absurd digit (by decide)
  rw [keyNumber, String.toList_ofList, shape, List.map_cons, if_neg notPoint]
  exact ⟨first, _, rfl, digit⟩

/-- The display form is the form in keys with the point put back. -/
theorem toList_display_eq :
    (display value).toList =
      (keyNumber value).toList.map fun character => if character = 'p' then '.' else character := by
  rw [keyNumber, String.toList_ofList, List.map_map]
  refine (List.map_id _).symm.trans (List.map_congr_left fun character member => ?_)
  by_cases point : character = '.'
  · simp [point]
  · have notLetter : character ≠ 'p' := by
      rintro rfl
      exact absurd ((isNumeral_display finite positive).digit_of_ne member point) (by decide)
    simp [point, notLetter]

/-- No two numbers are written alike in keys. -/
theorem keyNumber_injective
    (finiteOther : other.isFinite = true)
    (positiveOther : 0 < other)
    (alike : keyNumber value = keyNumber other) :
    value = other := by
  refine NumberText.display_injective finite finiteOther (String.toList_inj.1 ?_)
  rw [toList_display_eq finite positive, toList_display_eq finiteOther positiveOther, alike]

end

/-! ## Values in keys -/

/-- Values as they stand in a key behind the name of the indicator. -/
def keyValues (values : List Float) : List Char :=
  values.flatMap fun value => '_' :: (keyNumber value).toList

theorem toList_key_eq (series : IndicatorSeries) :
    series.key.toList = series.indicator.name.toList ++ keyValues series.orderedValues :=
  Python.toList_key series

/-- The values in a key determine each other's ends, and so the values. -/
theorem keyValues_injective
    {values others : List Float}
    (admitted : ∀ value ∈ values, value.isFinite = true ∧ 0 < value)
    (admittedOthers : ∀ value ∈ others, value.isFinite = true ∧ 0 < value)
    (alike : keyValues values = keyValues others) :
    values = others := by
  refine marked_injective ?_ ?_ admitted admittedOthers alike
  · rintro value ⟨finite, positive⟩ underscore
    rcases mem_keyNumber finite positive underscore with digit | letter
    · exact absurd digit (by decide)
    · exact absurd letter (by decide)
  · rintro value other ⟨finite, positive⟩ ⟨finiteOther, positiveOther⟩ same
    exact keyNumber_injective finite positive finiteOther positiveOther (String.toList_inj.1 same)

/-! ## Names in keys -/

/-- What stands before the first digit of a key: the name of the indicator, and an
underscore if values follow. -/
def keyStem (indicator : Indicator) : List Char :=
  indicator.name.toList ++ if indicator.parameters = [] then [] else ['_']

/-- Indicators are told apart by what stands before the first digit. -/
theorem keyStem_injective {indicator other : Indicator}
    (alike : keyStem indicator = keyStem other) :
    indicator = other := by
  have distinct : (Indicator.all.map keyStem).Nodup := by decide +kernel
  exact List.inj_on_of_nodup_map distinct (Indicator.mem_all _) (Indicator.mem_all _) alike

theorem isDigit_of_mem_keyStem (indicator : Indicator) :
    ∀ character ∈ keyStem indicator, (!isDigit character) = true := by
  cases indicator <;> exact List.all_iff_forall_prop.1 (by decide)

section

variable {series other : IndicatorSeries} (complete : series.Complete)

include complete

/-- The part of a key before its first digit tells the indicator. -/
theorem takeWhile_key :
    series.key.toList.takeWhile (fun character => !isDigit character) =
      keyStem series.indicator := by
  rw [toList_key_eq, keyStem]
  have admitted : ∀ value ∈ series.orderedValues, value.isFinite = true ∧ 0 < value :=
    fun _ => complete.finite_pos
  have count : series.orderedValues.length = series.indicator.parameters.length :=
    List.length_map _
  have plain := isDigit_of_mem_keyStem series.indicator
  rw [keyStem] at plain
  cases values : series.orderedValues with
  | nil =>
      rw [values, List.length_nil, eq_comm, List.length_eq_zero_iff] at count
      rw [if_pos count, List.append_nil] at plain ⊢
      exact (takeWhile_append_of_stop plain (by simp [keyValues])).1
  | cons value others =>
      have some : series.indicator.parameters ≠ [] := by
        intro none
        rw [none, values] at count
        cases count
      rw [values] at admitted
      obtain ⟨finite, positive⟩ := admitted value List.mem_cons_self
      obtain ⟨first, rest, shape, digit⟩ := exists_digit_keyNumber finite positive
      rw [if_neg some] at plain ⊢
      have written : series.indicator.name.toList ++ keyValues (value :: others) =
          (series.indicator.name.toList ++ ['_']) ++ (first :: (rest ++ keyValues others)) := by
        simp [keyValues, shape]
      rw [written]
      exact (takeWhile_append_of_stop plain (by simp [digit])).1

/-- Complete series with one key are equal. -/
theorem eq_of_key_eq
    (completeOther : other.Complete)
    (sameKey : series.key = other.key) :
    series = other := by
  have stems := takeWhile_key complete
  rw [sameKey, takeWhile_key completeOther] at stems
  have sameIndicator := keyStem_injective stems.symm
  have characters := congrArg String.toList sameKey
  rw [toList_key_eq, toList_key_eq, sameIndicator, List.append_cancel_left_eq] at characters
  refine complete.eq_of_orderedValues completeOther sameIndicator ?_
  exact keyValues_injective (fun _ => complete.finite_pos) (fun _ => completeOther.finite_pos)
    characters

end

/-! ## Keys as identifiers -/

/-- Letters from `a` to `z`. -/
def isLowerLetter (character : Char) : Bool :=
  'a' <= character && character <= 'z'

/-- A letter `a` to `z` and behind it such letters, digits and underscores. -/
def IsLowerIdentifier (text : String) : Prop :=
  ∃ first rest, text.toList = first :: rest ∧ isLowerLetter first = true ∧
    ∀ character ∈ rest,
      isLowerLetter character = true ∨ isDigit character = true ∨ character = '_'

theorem isLowerIdentifier_key {series : IndicatorSeries} (complete : series.Complete) :
    IsLowerIdentifier series.key := by
  obtain ⟨first, rest, name, starts, continues⟩ : ∃ first rest,
      series.indicator.name.toList = first :: rest ∧ isLowerLetter first = true ∧
        ∀ character ∈ rest, isLowerLetter character = true ∨ character = '_' := by
    cases series.indicator <;>
      exact ⟨_, _, rfl, by decide, List.all_iff_forall_prop.1 (by decide)⟩
  refine ⟨first, rest ++ keyValues series.orderedValues, ?_, starts, fun character member => ?_⟩
  · rw [toList_key_eq, name, List.cons_append]
  · rcases List.mem_append.1 member with inName | inValues
    · exact (continues character inName).imp_right Or.inr
    · obtain ⟨value, listed, inside⟩ := List.mem_flatMap.1 inValues
      obtain ⟨finite, positive⟩ := complete.finite_pos listed
      rcases List.mem_cons.1 inside with underscore | written
      · exact Or.inr (Or.inr underscore)
      · rcases mem_keyNumber finite positive written with digit | letter
        · exact Or.inr (Or.inl digit)
        · rw [letter]
          exact Or.inl (by decide)

/-- No key of a series is one of a price column. -/
theorem key_ne_columnKey (series : IndicatorSeries) (column : Column) :
    series.key ≠ column.key := by
  cases column <;> exact Python.key_ne (by decide) series

/-! ## Deduplication by keys -/

/-- Of complete series exactly the repeated ones are dropped. -/
theorem distinctSeries_eq_eraseDups
    {all : List IndicatorSeries}
    (complete : ∀ series ∈ all, series.Complete) :
    distinctSeries all = all.eraseDups := by
  match all with
  | [] => rfl
  | first :: others =>
      obtain ⟨completeFirst, completeOthers⟩ := List.forall_mem_cons.1 complete
      have shorter : (others.filter fun other => !other == first).length <
          (first :: others).length :=
        Nat.lt_succ_of_le (List.length_filter_le _ others)
      have filtered : (others.filter fun other => other.key ≠ first.key) =
          others.filter fun other => !other == first := by
        refine List.filter_congr fun other member => ?_
        have same : other.key = first.key ↔ other = first :=
          ⟨eq_of_key_eq (completeOthers other member) completeFirst, congrArg key⟩
        rw [Bool.eq_iff_iff]
        simp [same]
      have hypothesis : distinctSeries (others.filter fun other => !other == first) =
          (others.filter fun other => !other == first).eraseDups :=
        distinctSeries_eq_eraseDups fun series member =>
          completeOthers series (List.mem_of_mem_filter member)
      rw [distinctSeries_cons, filtered, hypothesis, List.eraseDups_cons]
termination_by all.length
decreasing_by exact shorter

/-- Listed series have different keys. -/
theorem nodup_keys_distinctSeries (all : List IndicatorSeries) :
    ((distinctSeries all).map key).Nodup := by
  match all with
  | [] => exact List.nodup_nil
  | first :: others =>
      have shorter : (others.filter fun other => other.key ≠ first.key).length <
          (first :: others).length :=
        Nat.lt_succ_of_le (List.length_filter_le _ others)
      have hypothesis := nodup_keys_distinctSeries
        (others.filter fun other => other.key ≠ first.key)
      rw [distinctSeries_cons, List.map_cons]
      refine List.nodup_cons.2 ⟨fun repeated => ?_, hypothesis⟩
      rw [mem_keys_distinctSeries_iff] at repeated
      obtain ⟨other, member, same⟩ := List.mem_map.1 repeated
      exact of_decide_eq_true (List.mem_filter.1 member).2 same
termination_by all.length
decreasing_by exact shorter

/-! ## Attributes of scripts -/

/-- The attribute of the instance that a statement assigns. -/
def assignedAttribute? : Backtest.Statement -> Option String
  | .assign (.attribute (.name owner) field) _ _ => if owner = "self" then some field else none
  | _ => none

@[simp] theorem assignedAttribute?_own
    (name : String)
    (value : Backtest.Code)
    (note : Option String) :
    assignedAttribute? (.assign (.own name) value note) = some name := by
  simp [assignedAttribute?, Backtest.Code.own, Backtest.Code.self]

/-- Attributes that instances of scripts have besides: the methods of the class and what
the class takes from its base. -/
def standingAttributes : List String :=
  ["init", "next", "_opened", "_flat", "data", "position", "buy", "I"]

/-- The attributes that are assigned at the start: the entry price, the levels of the
trailing stops and the series. -/
theorem filterMap_declaring (strategy : Strategy) :
    (Python.declaring strategy).filterMap assignedAttribute? =
      "entry_price" ::
        ((Backtest.trailingRules strategy).map (fun entry => Python.trailingName entry.1) ++
          strategy.indicators.map key) := by
  simp [Python.declaring, Backtest.entryPrice, Backtest.trailingLevel, Python.trailingName,
    List.filterMap_map]

/-- Trailing stops keep their levels under different names. -/
theorem nodup_trailingNames (strategy : Strategy) :
    ((Backtest.trailingRules strategy).map fun entry => Python.trailingName entry.1).Nodup := by
  have positions :
      ((strategy.exits.mapIdx fun index rule => (index, rule)).map Prod.fst).Nodup := by
    rw [List.mapIdx_eq_zipIdx_map, List.map_map]
    change (strategy.exits.zipIdx.map Prod.snd).Nodup
    rw [List.zipIdx_map_snd]
    exact List.nodup_range'
  have kept : ((Backtest.trailingRules strategy).map Prod.fst).Nodup :=
    positions.sublist (List.filter_sublist.map Prod.fst)
  have named := kept.map fun _ _ => Python.trailingName_injective
  rwa [List.map_map] at named

/-- Where the keys of the listed series differ, all attributes of an instance do. -/
theorem nodup_attributes
    {strategy : Strategy}
    (distinct : (strategy.indicators.map key).Nodup) :
    (standingAttributes ++
      (Python.declaring strategy).filterMap assignedAttribute?).Nodup := by
  have standing : standingAttributes.Nodup ∧ "entry_price" ∉ standingAttributes ∧
      ∀ name ∈ standingAttributes, name.toList.take 2 ≠ ['t', 'r'] ∧
        name.toList.take 2 ∉ Indicator.all.map fun indicator => indicator.name.toList.take 2 := by
    decide
  obtain ⟨distinctStanding, notEntryPrice, starts⟩ := standing
  rw [filterMap_declaring]
  refine List.nodup_append'.2 ⟨distinctStanding, List.nodup_cons.2 ⟨?_, ?_⟩, ?_⟩
  · intro repeated
    rcases List.mem_append.1 repeated with isLevel | isKey
    · obtain ⟨entry, _, same⟩ := List.mem_map.1 isLevel
      exact Python.Frame.entryPrice_ne_trailingName entry.1 same.symm
    · obtain ⟨series, _, same⟩ := List.mem_map.1 isKey
      exact Python.key_ne (by decide) series same
  · refine List.nodup_append'.2 ⟨nodup_trailingNames strategy, distinct, ?_⟩
    intro name isLevel isKey
    obtain ⟨entry, _, rfl⟩ := List.mem_map.1 isLevel
    obtain ⟨series, _, same⟩ := List.mem_map.1 isKey
    exact Python.Frame.key_ne_trailingName series entry.1 same
  · intro name isStanding assigned
    obtain ⟨notLevel, notKey⟩ := starts name isStanding
    rcases List.mem_cons.1 assigned with rfl | others
    · exact notEntryPrice isStanding
    · rcases List.mem_append.1 others with isLevel | isKey
      · obtain ⟨entry, _, rfl⟩ := List.mem_map.1 isLevel
        rw [Python.trailingName, String.toList_append] at notLevel
        exact notLevel rfl
      · obtain ⟨series, _, same⟩ := List.mem_map.1 isKey
        exact Python.key_ne notKey series same

/-! ## Main result -/

/-- Keys identify complete series: two of them have one key only if they have one
indicator and the same values. No key is that of a price column, and each is an identifier
in lower case. So of several series deduplication by keys keeps each one, and in the script
of a strategy that lists them no two attributes have one name. -/
theorem keys_identify_series
    {all : List IndicatorSeries}
    (complete : ∀ series ∈ all, series.Complete) :
    (∀ series ∈ all, ∀ other ∈ all, series.key = other.key ↔
      series.indicator = other.indicator ∧
        ∀ name, series.parameters.find? name = other.parameters.find? name) ∧
    (∀ series ∈ all, IsLowerIdentifier series.key ∧
      ∀ column : Column, series.key ≠ column.key) ∧
    distinctSeries all = all.eraseDups ∧
    ∀ strategy body, strategy.indicators = distinctSeries all ->
      Backtest.declarations strategy = .method "init" ["self"] body ->
        (standingAttributes ++ body.filterMap assignedAttribute?).Nodup := by
  refine ⟨fun series member other memberOther => ⟨fun sameKey => ?_, fun same => ?_⟩,
    fun series member => ⟨isLowerIdentifier_key (complete series member), key_ne_columnKey series⟩,
    distinctSeries_eq_eraseDups complete, fun strategy body listed declares => ?_⟩
  · have equal := eq_of_key_eq (complete series member) (complete other memberOther) sameKey
    rw [equal]
    exact ⟨rfl, fun _ => rfl⟩
  · obtain ⟨sameIndicator, sameValues⟩ := same
    have sameParameters := Dictionary.eq_of_find?_eq sameValues
    cases series
    cases other
    cases sameIndicator
    cases sameParameters
    rfl
  · cases declares
    refine nodup_attributes ?_
    rw [listed]
    exact nodup_keys_distinctSeries all

/-- A relative strength, a range over three bars, an upper band at two and a half deviations
and the relative strength again. -/
def repeatedStrength : List IndicatorSeries := [
  withDefaults .rsi,
  averageTrueRange 3,
  Indicator.complete .bollingerUpper (.ofList [("std_dev", 2.5)])
    (Configuration.default.overrides .bollingerUpper),
  withDefaults .rsi]

theorem keys_identify_series_repeated :
    (∀ series ∈ repeatedStrength, series.Complete) ∧
      repeatedStrength.map key = ["rsi_14", "atr_3", "bollinger_upper_20_2p5", "rsi_14"] ∧
      distinctSeries repeatedStrength = repeatedStrength.take 3 := by
  have complete : ∀ series ∈ repeatedStrength, series.Complete := by
    have band : ∀ parameter ∈ Indicator.parameters .bollingerUpper, ∀ value,
        (Dictionary.ofList [("std_dev", (2.5 : Float))]).find? parameter.name = some value ->
          parameter.Admits value := by
      have given : Indicator.checkGiven .bollingerUpper (.ofList [("std_dev", 2.5)]) = .ok () := by
        decide +kernel
      exact Indicator.checkGiven_eq_ok_iff.1 given
    have checked : Configuration.default.check = .ok () := by decide +kernel
    simp only [repeatedStrength, List.forall_mem_cons]
    exact ⟨complete_withDefaults .rsi, complete_averageTrueRange (by decide) (by decide),
      complete_complete checked band, complete_withDefaults .rsi, List.forall_mem_nil _⟩
  have distinct : repeatedStrength.eraseDups = repeatedStrength.take 3 := by decide +kernel
  exact ⟨complete, by decide +kernel, (keys_identify_series complete).2.2.1.trans distinct⟩

end IndicatorSeries
end StrategyGraph
