import StrategyGraph.Backtest.Script
import StrategyGraph.Proofs.Script.Rendering

/-!
# Names of indicator attributes

The key of a series can name an attribute, and no other attribute of a script has
that name. The computation of a series can be read.
-/

namespace StrategyGraph

/-- A series whose values have no sign. -/
def IndicatorSeries.Unsigned (series : IndicatorSeries) : Prop :=
  ∀ value ∈ series.orderedValues, Binary64.Unsigned value

namespace Python

open Backtest (Code Computation)
open NumberText (display)

/-- Of a numeral all characters but its point are digits. -/
theorem IsNumeral.digit_of_ne
    {content : List Char}
    {character : Char}
    (isNumeral : IsNumeral content)
    (member : character ∈ content)
    (notPoint : character ≠ '.') :
    isDigit character = true := by
  rcases isNumeral with ⟨_, digits⟩ | ⟨whole, fraction, rfl, _, _, digits, behind⟩
  · exact digits character member
  · rcases List.mem_append.1 member with inWhole | inFraction
    · exact digits character inWhole
    · exact behind character ((List.mem_cons.1 inFraction).resolve_left notPoint)

/-! ## Keys -/

theorem continuesWord_of_isDigit
    {character : Char}
    (digit : isDigit character = true) :
    continuesWord character = true :=
  Bool.or_eq_true_iff.2 (Or.inr digit)

/-- Numbers without a sign are written in characters of a word, but for the point. -/
theorem continuesWord_keyNumber
    {value : Float}
    (unsigned : Binary64.Unsigned value) :
    ∀ character ∈ (IndicatorSeries.keyNumber value).toList, continuesWord character = true := by
  intro character member
  rw [IndicatorSeries.keyNumber, String.toList_ofList] at member
  obtain ⟨written, inDisplay, rfl⟩ := List.mem_map.1 member
  split
  next => decide
  next notPoint =>
    rcases display_of_unsigned unsigned with isNumeral | infinite
    · exact continuesWord_of_isDigit (isNumeral.digit_of_ne inDisplay notPoint)
    · have inName : ∀ letter ∈ "inf".toList, continuesWord letter = true :=
        List.all_iff_forall_prop.1 (by decide)
      exact inName written (infinite ▸ inDisplay)

/-- Behind a word, an underscore and characters of a word continue it. -/
theorem IsWord.append
    {content others : List Char}
    (isWord : IsWord content)
    (continues : ∀ character ∈ others, continuesWord character = true) :
    IsWord (content ++ others) := by
  obtain ⟨first, rest, rfl, starts, continuesRest⟩ := isWord
  refine ⟨first, rest ++ others, rfl, starts, fun character member => ?_⟩
  rcases List.mem_append.1 member with inRest | inOthers
  · exact continuesRest character inRest
  · exact continues character inOthers

/-- The key of a series: the name of its indicator, and for each value an underscore
and the value. -/
theorem toList_key (series : IndicatorSeries) :
    series.key.toList =
      series.indicator.name.toList ++
        series.orderedValues.flatMap fun value =>
          '_' :: (IndicatorSeries.keyNumber value).toList := by
  rw [IndicatorSeries.key]
  generalize series.indicator.name = text
  induction series.orderedValues generalizing text with
  | nil => simp
  | cons value values hypothesis =>
      rw [List.foldl_cons, hypothesis]
      simp

theorem isWord_name (indicator : Indicator) : IsWord indicator.name.toList :=
  isWord_of_isIdentifier (by cases indicator <;> decide)

/-- No keyword has an underscore. -/
theorem underscore_not_mem_keyword :
    ∀ keyword ∈ keywords, '_' ∉ keyword.toList := by
  decide

/-- Keys can name attributes. -/
theorem isField_key {series : IndicatorSeries} (unsigned : series.Unsigned) :
    IsField series.key := by
  constructor
  · rw [toList_key]
    refine (isWord_name series.indicator).append fun character member => ?_
    obtain ⟨value, listed, inside⟩ := List.mem_flatMap.1 member
    rcases List.mem_cons.1 inside with rfl | written
    · decide
    · exact continuesWord_keyNumber (unsigned value listed) character written
  · cases values : series.orderedValues with
    | nil =>
        have isName : series.key = series.indicator.name := by
          rw [IndicatorSeries.key, values]
          rfl
        rw [isName]
        cases series.indicator <;> decide
    | cons value others =>
        rw [← Bool.not_eq_true, List.contains_iff_mem]
        intro isKeyword
        refine underscore_not_mem_keyword _ isKeyword ?_
        rw [toList_key, values]
        simp

/-- Names that start unlike the names of all indicators are not keys. -/
theorem key_ne
    {field : String}
    (reserved : field.toList.take 2 ∉
      Indicator.all.map fun indicator => indicator.name.toList.take 2)
    (series : IndicatorSeries) :
    series.key ≠ field := by
  rintro rfl
  have long : 2 <= series.indicator.name.toList.length := by
    cases series.indicator <;> decide
  rw [toList_key, List.take_append_of_le_length long] at reserved
  exact reserved (List.mem_map.2 ⟨series.indicator, Indicator.mem_all _, rfl⟩)

/-! ## Computations -/

/-- Printable characters other than quotes and backslashes stand for themselves. -/
theorem encodeCharacter_of_printable
    {character : Char}
    (lower : 32 <= character.toNat)
    (upper : character.toNat < 127)
    (notQuote : character ≠ '\"')
    (notEscape : character ≠ '\\') :
    Quoted.encodeCharacter character = [character] := by
  have above : ∀ control : Char, control.toNat < 32 -> character ≠ control := by
    rintro control small rfl
    omega
  have visible : Visible.isVisible character = true := by
    rw [Visible.isVisible]
    simp only [show character.toNat < 128 by omega, if_true]
    simp [lower, upper]
  rw [Quoted.encodeCharacter, if_neg (above _ (by decide)), if_neg (above _ (by decide)),
    if_neg (above _ (by decide)), if_neg (above _ (by decide)), if_neg notQuote,
    if_neg notEscape, if_pos visible]

theorem encodeCharacter_of_isDigit
    {character : Char}
    (digit : isDigit character = true) :
    Quoted.encodeCharacter character = [character] := by
  have range : 48 <= character.toNat ∧ character.toNat <= 57 := by
    simpa [isDigit, Char.le_def, UInt32.le_iff_toNat_le] using digit
  refine encodeCharacter_of_printable (by omega) (by omega) ?_ ?_
  · rintro rfl
    exact absurd digit (by decide)
  · rintro rfl
    exact absurd digit (by decide)

/-- Numbers without a sign are written in printable characters. -/
theorem encodeCharacter_display
    {value : Float}
    (unsigned : Binary64.Unsigned value) :
    ∀ character ∈ (display value).toList, Quoted.encodeCharacter character = [character] := by
  intro character member
  rcases display_of_unsigned unsigned with isNumeral | infinite
  · by_cases point : character = '.'
    · rw [point]
      decide
    · exact encodeCharacter_of_isDigit (isNumeral.digit_of_ne member point)
  · rw [infinite] at member
    have inName : ∀ letter ∈ "inf".toList, Quoted.encodeCharacter letter = [letter] :=
      List.all_iff_forall_prop.1 (by decide)
    exact inName character member

/-- Texts of series are written as they are. -/
theorem encodeCharacter_text {series : IndicatorSeries} (unsigned : series.Unsigned) :
    ∀ character ∈ series.text.toList, Quoted.encodeCharacter character = [character] := by
  have inLabel : ∀ character ∈ series.indicator.label.toList,
      Quoted.encodeCharacter character = [character] := by
    cases series.indicator <;> exact List.all_iff_forall_prop.1 (by decide)
  intro character member
  have inSeparator : ∀ sign ∈ ", ".toList, Quoted.encodeCharacter sign = [sign] :=
    List.all_iff_forall_prop.1 (by decide)
  rw [IndicatorSeries.text] at member
  split at member
  next => exact inLabel character member
  next values nonempty =>
    simp only [String.toList_append, String.toList_intercalate, List.mem_append] at member
    rcases member with ((inside | bracket) | inside) | bracket
    · exact inLabel character inside
    · rw [List.mem_singleton.1 bracket]
      decide
    · rcases mem_intercalate inside with isSign | ⟨written, listed, inValue⟩
      · exact inSeparator character isSign
      · obtain ⟨text, isText, rfl⟩ := List.mem_map.1 listed
        obtain ⟨value, isValue, rfl⟩ := List.mem_map.1 isText
        exact encodeCharacter_display (unsigned value isValue) character inValue
    · rw [List.mem_singleton.1 bracket]
      decide

theorem readable_number
    {value : Float}
    (unsigned : Binary64.Unsigned value) :
    Readable 1 (.number value) := by
  cases finite : value.isFinite with
  | true => exact .number finite
  | false =>
      refine .looser (.special finite ?_)
      rw [display_of_infinite unsigned finite]
      exact ⟨isWord_of_isIdentifier (by decide), by decide⟩

/-- Values of parameters are among the values of a series. -/
theorem unsigned_value
    {series : IndicatorSeries}
    {name : String}
    (unsigned : series.Unsigned)
    (isParameter : name ∈ series.indicator.parameters.map Parameter.name) :
    Binary64.Unsigned (series.value name) := by
  obtain ⟨parameter, listed, rfl⟩ := List.mem_map.1 isParameter
  exact unsigned _ (List.mem_map_of_mem listed)

/-- Names that a computation uses can be read, and each setting is a parameter. -/
structure ReadableComputation (indicator : Indicator) (computation : Computation) : Prop where
  function : isIdentifier computation.function = true ∧
    keywords.contains computation.function = false
  settings : ∀ setting ∈ computation.settings,
    (isIdentifier setting.1 = true ∧ keywords.contains setting.1 = false) ∧
      setting.2 ∈ indicator.parameters.map Parameter.name

theorem readableComputation (indicator : Indicator) :
    ReadableComputation indicator (Computation.ofIndicator indicator) := by
  constructor
  · cases indicator <;> decide
  · cases indicator <;> decide

theorem isField_of_isIdentifier
    {content : String}
    (isField : isIdentifier content = true ∧ keywords.contains content = false) :
    IsField content :=
  ⟨isWord_of_isIdentifier isField.1, isField.2⟩

theorem isField_inputName (column : Column) : IsField (Computation.inputName column) :=
  isField_of_isIdentifier (by cases column <;> decide)

theorem isField_label (column : Column) : IsField column.label :=
  isField_of_isIdentifier (by cases column <;> decide)

theorem readable_name {name : String} (isField : IsField name) : Readable 0 (.name name) :=
  .name isField.isName

theorem readable_self : Readable 0 Code.self :=
  readable_name (isField_of_isIdentifier (by decide))

theorem readable_own {name : String} (isField : IsField name) :
    Readable 0 (Code.own name) :=
  .member readable_self isField

theorem readable_columnCode (column : Column) : Readable 0 (Backtest.columnCode column) :=
  .member (readable_own (isField_of_isIdentifier (by decide))) (isField_label column)

/-- What computes the values of a series can be read. -/
theorem readable_body {series : IndicatorSeries} (unsigned : series.Unsigned) :
    Readable 0 ((Computation.ofIndicator series.indicator).body series) := by
  obtain ⟨function, settings⟩ := readableComputation series.indicator
  have values : Readable 0
      (.call (.attribute (.name "talib") (Computation.ofIndicator series.indicator).function)
        ((Computation.ofIndicator series.indicator).inputs.map
            (fun input => .name (Computation.inputName input)) ++
          (Computation.ofIndicator series.indicator).settings.map fun setting =>
            .keyword setting.1 (.number (series.value setting.2)))) := by
    refine .call (.member (readable_name (isField_of_isIdentifier (by decide)))
      (isField_of_isIdentifier function)) fun argument member => ?_
    rcases List.mem_append.1 member with isInput | isSetting
    · obtain ⟨column, _, rfl⟩ := List.mem_map.1 isInput
      exact (readable_name (isField_inputName column)).mono (by decide)
    · obtain ⟨setting, listed, rfl⟩ := List.mem_map.1 isSetting
      obtain ⟨isKey, isParameter⟩ := settings setting listed
      have number := readable_number (unsigned_value unsigned isParameter)
      exact .keyword (isField_of_isIdentifier isKey) (number.mono (by decide))
  rw [Computation.body]
  split
  next => exact .item values
  next => exact values

/-- The declaration of a series can be read. -/
theorem readable_declaration {series : IndicatorSeries} (unsigned : series.Unsigned) :
    Readable 0 (Backtest.declaration series) := by
  refine .call (readable_own (isField_of_isIdentifier (by decide))) fun argument member => ?_
  rcases List.mem_cons.1 member with rfl | behind
  · refine (Readable.lambda (fun parameter isInput => ?_)
      ((readable_body unsigned).mono (by decide))).mono (by decide)
    obtain ⟨column, _, rfl⟩ := List.mem_map.1 isInput
    exact isField_inputName column
  · rcases List.mem_append.1 behind with isColumn | isName
    · obtain ⟨column, _, rfl⟩ := List.mem_map.1 isColumn
      exact (readable_columnCode column).mono (by decide)
    · rw [List.mem_singleton.1 isName]
      have text : Readable 0 (.text series.text) := .text (encodeCharacter_text unsigned)
      exact .keyword (isField_of_isIdentifier (by decide)) (text.mono (by decide))

end Python
end StrategyGraph
