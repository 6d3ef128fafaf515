import Mathlib.Data.List.Basic
import StrategyGraph.Command.Path

/-!
# Parts of paths

A plain name has no slash and stands for itself. Behind a directory it is the last part of
a path, and all parts of the directory stand in front of it. The stem of a path has no slash,
so with an extension it is a plain name.
-/

namespace StrategyGraph
namespace Path

/-- A name that stands for itself as a part of a path. -/
structure IsPlain (name : String) : Prop where
  noSlash : '/' ∉ name.toList
  effective : isIdle name = false
  notUp : name ≠ ".."

/-! ## Splitting at slashes -/

theorem splitSlashes_ne_nil (text : List Char) : splitSlashes text ≠ [] := by
  cases text with
  | nil => exact List.cons_ne_nil _ _
  | cons character text =>
      rw [splitSlashes]
      split
      next => exact List.cons_ne_nil _ _
      next => split <;> exact List.cons_ne_nil _ _

/-- A slash ends a part. -/
theorem splitSlashes_append_slash (before behind : List Char) :
    splitSlashes (before ++ '/' :: behind) = splitSlashes before ++ splitSlashes behind := by
  induction before with
  | nil => simp [splitSlashes]
  | cons character before hypothesis =>
      rw [List.cons_append, splitSlashes, splitSlashes, hypothesis]
      by_cases slash : character = '/'
      · rw [if_pos slash, if_pos slash, List.cons_append]
      · rw [if_neg slash, if_neg slash]
        cases parts : splitSlashes before with
        | nil => exact absurd parts (splitSlashes_ne_nil before)
        | cons part others => rfl

theorem splitSlashes_of_notMem {text : List Char} (noSlash : '/' ∉ text) :
    splitSlashes text = [text] := by
  induction text with
  | nil => rfl
  | cons character text hypothesis =>
      rw [List.mem_cons, not_or] at noSlash
      rw [splitSlashes, if_neg (Ne.symm noSlash.1), hypothesis noSlash.2]

/-- Parts have no slashes. -/
theorem notMem_of_mem_splitSlashes {text part : List Char} (member : part ∈ splitSlashes text) :
    '/' ∉ part := by
  induction text generalizing part with
  | nil => exact List.mem_singleton.1 member ▸ List.not_mem_nil
  | cons character text hypothesis =>
      rw [splitSlashes] at member
      split at member
      next =>
        rcases List.mem_cons.1 member with rfl | later
        · exact List.not_mem_nil
        · exact hypothesis later
      next different =>
        split at member
        next none => exact absurd none (splitSlashes_ne_nil text)
        next first others split =>
          rw [split] at hypothesis
          rcases List.mem_cons.1 member with rfl | later
          · rw [List.mem_cons, not_or]
            exact ⟨Ne.symm different, hypothesis List.mem_cons_self⟩
          · exact hypothesis (List.mem_cons_of_mem first later)

/-! ## Names in directories -/

section

variable {name : String} {directory : Path}

/-- A name is put behind a directory, and behind a slash where there is none. -/
theorem join_cases (directory : Path) (name : String) :
    (directory = "" ∧ (directory.join name).toList = name.toList) ∨
    (∃ front, directory.toList = front ++ ['/'] ∧
      (directory.join name).toList = front ++ '/' :: name.toList) ∨
    (directory ≠ "" ∧
      (directory.join name).toList = directory.toList ++ '/' :: name.toList) := by
  rw [join]
  by_cases empty : directory.isEmpty = true
  · rw [empty, Bool.true_or, if_pos rfl]
    obtain rfl := String.isEmpty_iff.1 empty
    exact Or.inl ⟨rfl, by simp⟩
  · have some : directory ≠ "" := fun none => empty (String.isEmpty_iff.2 none)
    rw [Bool.eq_false_iff.2 empty, Bool.false_or]
    split
    next ends =>
      rw [endsInSlash, decide_eq_true_iff, List.getLast?_eq_some_iff] at ends
      obtain ⟨front, ends⟩ := ends
      exact Or.inr (Or.inl ⟨front, ends, by simp [ends]⟩)
    next => exact Or.inr (Or.inr ⟨some, by simp⟩)

/-- The parts of a name in a directory are those of the directory and the name, except that
an empty part at the end of the directory is left out. -/
theorem exists_parts_join (plain : IsPlain name) (directory : Path) :
    ∃ before, (directory.join name).parts = before ++ [name] ∧
      (directory.parts = before ∨ directory.parts = before ++ [""]) := by
  have single : parts name = [name] := by
    rw [parts, splitSlashes_of_notMem plain.noSlash, List.map_singleton, String.ofList_toList]
  have slashed : ∀ front : List Char,
      (splitSlashes (front ++ '/' :: name.toList)).map String.ofList =
        (splitSlashes front).map String.ofList ++ [name] := by
    intro front
    rw [splitSlashes_append_slash, List.map_append]
    exact congrArg _ single
  rcases join_cases directory name with
    ⟨rfl, joined⟩ | ⟨front, ends, joined⟩ | ⟨_, joined⟩
  · exact ⟨[], by rw [parts, joined]; exact single, Or.inr rfl⟩
  · refine ⟨(splitSlashes front).map String.ofList, by rw [parts, joined]; exact slashed front, ?_⟩
    rw [parts, ends, splitSlashes_append_slash, List.map_append]
    exact Or.inr rfl
  · exact ⟨directory.parts, by rw [parts, joined]; exact slashed directory.toList, Or.inl rfl⟩

theorem isAbsolute_join (plain : IsPlain name) (directory : Path) :
    (directory.join name).isAbsolute = directory.isAbsolute := by
  rw [isAbsolute, isAbsolute, decide_eq_decide]
  rcases join_cases directory name with
    ⟨rfl, joined⟩ | ⟨front, ends, joined⟩ | ⟨some, joined⟩
  · rw [joined]
    refine iff_of_false (fun slash => ?_) (by decide)
    exact plain.noSlash (List.mem_of_mem_head? slash)
  · rw [joined, ends]
    cases front <;> rfl
  · rw [joined]
    cases letters : directory.toList with
    | nil => exact absurd (String.toList_eq_nil_iff.1 letters) some
    | cons first others => rfl

theorem endsInSlash_join (plain : IsPlain name) (directory : Path) :
    (directory.join name).endsInSlash = false := by
  have letters : ∃ front, (directory.join name).toList = front ++ name.toList := by
    rcases join_cases directory name with
      ⟨rfl, joined⟩ | ⟨front, _, joined⟩ | ⟨_, joined⟩
    · exact ⟨[], joined⟩
    · exact ⟨front ++ ['/'], by simp [joined]⟩
    · exact ⟨directory.toList ++ ['/'], by simp [joined]⟩
  obtain ⟨front, joined⟩ := letters
  have some : name.toList ≠ [] := by
    intro none
    have effective := plain.effective
    rw [String.toList_eq_nil_iff.1 none] at effective
    cases effective
  rw [endsInSlash, decide_eq_false_iff_not, joined, List.getLast?_append_of_ne_nil front some]
  exact fun slash => plain.noSlash (List.mem_of_mem_getLast? slash)

theorem dropEmptyEnd_join (plain : IsPlain name) (directory : Path) :
    dropEmptyEnd (directory.join name).parts = (directory.join name).parts := by
  obtain ⟨before, ends, _⟩ := exists_parts_join plain directory
  have some : name ≠ "" := by
    rintro rfl
    cases plain.effective
  rw [ends, dropEmptyEnd, List.reverse_append, List.reverse_singleton, List.singleton_append,
    List.dropWhile_cons_of_neg (by simpa using some), List.reverse_cons, List.reverse_reverse]

end

/-! ## Stems -/

/-- A path that ends with a name has a stem. -/
theorem stem_of_parts
    {path : Path}
    {before : List String}
    {name : String}
    (ends : path.parts = before ++ [name])
    (effective : isIdle name = false)
    (notUp : name ≠ "..") :
    path.stem? = some (stemOf name) := by
  have last : (path.parts.filter fun part => !isIdle part).getLast? = some name := by
    rw [ends, List.filter_append, List.filter_singleton, effective]
    exact List.getLast?_concat
  rw [stem?, fileName?, last]
  split
  next up => exact absurd (Option.some.inj up) notUp
  next => rfl

/-- A stem has no slash. -/
theorem notMem_of_stem {path : Path} {stem : String} (isStem : path.stem? = some stem) :
    '/' ∉ stem.toList := by
  obtain ⟨name, isName, rfl⟩ := Option.map_eq_some_iff.1 isStem
  have noSlash : '/' ∉ name.toList := by
    rw [fileName?] at isName
    split at isName
    next => cases isName
    next =>
      obtain ⟨part, member, rfl⟩ :=
        List.mem_map.1 (List.mem_of_mem_filter (List.mem_of_mem_getLast? isName))
      rw [String.toList_ofList]
      exact notMem_of_mem_splitSlashes member
  rw [stemOf]
  split
  next => exact noSlash
  next =>
    rw [String.toList_ofList]
    exact fun slash => noSlash (List.mem_of_mem_take slash)

/-- A stem with an extension is a plain name. -/
theorem isPlain_of_stem
    {path : Path}
    {stem extension : String}
    (isStem : path.stem? = some stem)
    (noSlash : '/' ∉ extension.toList)
    (long : 2 < extension.length) :
    IsPlain (stem ++ extension) := by
  have different : ∀ short : String, short.length <= 2 -> stem ++ extension ≠ short := by
    rintro short bound rfl
    rw [String.length_append] at bound
    omega
  refine ⟨?_, ?_, different ".." (by decide)⟩
  · rw [String.toList_append, List.mem_append, not_or]
    exact ⟨notMem_of_stem isStem, noSlash⟩
  · rw [isIdle, Bool.or_eq_false_iff, beq_eq_false_iff_ne, beq_eq_false_iff_ne]
    exact ⟨different "" (by decide), different "." (by decide)⟩

end Path
end StrategyGraph
