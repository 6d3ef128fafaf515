import StrategyGraph.Proofs.Script.Consumption
import StrategyGraph.Proofs.Script.Numeral

/-!
# Reading of code

Code is written out as it is, with parentheses only where its tree has them. It is
read back as the tree it was written from if every operand binds at least as tightly
as its place asks for. Those trees are the readable ones.
-/

namespace StrategyGraph
namespace Python

open Backtest (Code Arithmetic)
open NumberText (display isSigned unsigned)

/-- A word that can stand for itself or for a constant. -/
def IsName (identifier : String) : Prop :=
  IsWord identifier.toList ∧
    (keywords.contains identifier = true -> constants.contains identifier = true)

/-- A word that can name an attribute, a parameter or an argument. -/
def IsField (identifier : String) : Prop :=
  IsWord identifier.toList ∧ keywords.contains identifier = false

/-- Term of a name. -/
def nameTerm (identifier : String) : Term :=
  if identifier = "None" then .none
  else if identifier = "True" then .truth true
  else if identifier = "False" then .truth false
  else .name identifier

/-- Term of a number. One that is not finite has a name instead of digits. -/
def numberTerm (x : Float) : Term :=
  if x.isFinite then
    if isSigned x then .negative (.numeral (unsigned x)) else .numeral (unsigned x)
  else nameTerm (display x)

mutual

/-- Term that code is read as. -/
def term : Code -> Term
  | .name identifier => nameTerm identifier
  | .count value => .numeral value.repr
  | .number value => numberTerm value
  | .text content => .text content
  | .attribute owner field => .attribute (term owner) field
  | .item owner position => .item (term owner) (.numeral position.repr)
  | .itemFromEnd owner position => .item (term owner) (.negative (.numeral position.repr))
  | .call function arguments => .call (term function) (terms arguments)
  | .keyword key value => .keyword key (term value)
  | .lambda parameters body => .lambda parameters (term body)
  | .arithmetic left operation right => .arithmetic (term left) operation (term right)
  | .comparison left relation right => .comparison (term left) relation (term right)
  | .isNone operand => .identical (term operand) .none
  | .isNotNone operand => .distinct (term operand) .none
  | .conjunction operands => grouped .conjunction (terms operands)
  | .disjunction operands => grouped .disjunction (terms operands)
  | .negation operand => .negation (term operand)
  | .enclosed inner => term inner

/-- Terms that several pieces of code are read as. -/
def terms : List Code -> List Term
  | [] => []
  | code :: codes => term code :: terms codes

end

mutual

/-- Items of code once its brackets are read. -/
def codeItems : Code -> List Item
  | .name identifier => [.word identifier]
  | .count value => [.numeral value.repr]
  | .number value =>
      if value.isFinite then
        (if isSigned value then [.negative] else []) ++ [.numeral (unsigned value)]
      else [.word (display value)]
  | .text content => [.text content]
  | .attribute owner field => codeItems owner ++ [.point, .word field]
  | .item owner position => codeItems owner ++ [.index (.numeral position.repr)]
  | .itemFromEnd owner position =>
      codeItems owner ++ [.index (.negative (.numeral position.repr))]
  | .call function arguments => codeItems function ++ [.enclosed (terms arguments)]
  | .keyword key value => .word key :: .assign :: codeItems value
  | .lambda parameters body => .header parameters :: codeItems body
  | .arithmetic left operation right =>
      codeItems left ++ .operation operation :: codeItems right
  | .comparison left relation right =>
      codeItems left ++ .relation relation :: codeItems right
  | .isNone operand => codeItems operand ++ [.word "is", .word "None"]
  | .isNotNone operand => codeItems operand ++ [.word "is", .word "not", .word "None"]
  | .conjunction operands => List.intercalate [.word "and"] (listItems operands)
  | .disjunction operands => List.intercalate [.word "or"] (listItems operands)
  | .negation operand => .word "not" :: codeItems operand
  | .enclosed inner => [.enclosed [term inner]]

/-- Items of several pieces of code. -/
def listItems : List Code -> List (List Item)
  | [] => []
  | code :: codes => codeItems code :: listItems codes

end

@[simp] theorem terms_eq_map (codes : List Code) : terms codes = codes.map term := by
  induction codes with
  | nil => rfl
  | cons code codes hypothesis => rw [terms, hypothesis, List.map_cons]

@[simp] theorem listItems_eq_map (codes : List Code) :
    listItems codes = codes.map codeItems := by
  induction codes with
  | nil => rfl
  | cons code codes hypothesis => rw [listItems, hypothesis, List.map_cons]

@[simp] theorem renderAll_eq_map (codes : List Code) :
    Code.renderAll codes = codes.map Code.render := by
  induction codes with
  | nil => rfl
  | cons code codes hypothesis => rw [Code.renderAll, hypothesis, List.map_cons]

/-- Code that can stand wherever the reader of a level reads. -/
inductive Readable : Nat -> Code -> Prop where
  | name (isName : IsName identifier) : Readable 0 (.name identifier)
  | count : Readable 0 (.count value)
  | text
      (plain : ∀ character ∈ content.toList,
        Quoted.encodeCharacter character = [character]) :
      Readable 0 (.text content)
  | member (owner : Readable 0 code) (isField : IsField field) :
      Readable 0 (.attribute code field)
  | item (owner : Readable 0 code) : Readable 0 (.item code position)
  | itemFromEnd (owner : Readable 0 code) : Readable 0 (.itemFromEnd code position)
  | call (function : Readable 0 code)
      (arguments : ∀ argument ∈ codes, Readable 9 argument) :
      Readable 0 (.call code codes)
  | enclosed (inner : Readable 8 code) : Readable 0 (.enclosed code)
  | number (finite : value.isFinite = true) : Readable 1 (.number value)
  | special (infinite : value.isFinite = false) (isName : IsName (display value)) :
      Readable 0 (.number value)
  | product
      (isProduct : Item.productSign? (.operation operation) = some operation)
      (left : Readable 2 first)
      (right : Readable 1 second) :
      Readable 2 (.arithmetic first operation second)
  | sum
      (isSum : Item.sumSign? (.operation operation) = some operation)
      (left : Readable 3 first)
      (right : Readable 2 second) :
      Readable 3 (.arithmetic first operation second)
  | comparison (left : Readable 3 first) (right : Readable 3 second) :
      Readable 4 (.comparison first relation second)
  | isNone (operand : Readable 3 code) : Readable 4 (.isNone code)
  | isNotNone (operand : Readable 3 code) : Readable 4 (.isNotNone code)
  | negation (operand : Readable 5 code) : Readable 5 (.negation code)
  | conjunction (nonempty : codes ≠ [])
      (operands : ∀ operand ∈ codes, Readable 5 operand) :
      Readable 6 (.conjunction codes)
  | disjunction (nonempty : codes ≠ [])
      (operands : ∀ operand ∈ codes, Readable 6 operand) :
      Readable 7 (.disjunction codes)
  | lambda (fields : ∀ parameter ∈ parameters, IsField parameter)
      (body : Readable 8 code) :
      Readable 8 (.lambda parameters code)
  | keyword (isField : IsField key) (value : Readable 8 code) :
      Readable 9 (.keyword key code)
  | looser (code : Readable level tree) : Readable (level + 1) tree

/-- What a level reads is read by all looser levels. -/
theorem Readable.mono
    {level higher : Nat}
    {code : Code}
    (readable : Readable level code)
    (above : level <= higher) :
    Readable higher code := by
  induction above with
  | refl => exact readable
  | step _ hypothesis => exact hypothesis.looser

/-! ## Shape of the items -/

theorem mem_intercalate
    {element : Element}
    {separator : List Element}
    {lists : List (List Element)}
    (member : element ∈ List.intercalate separator lists) :
    element ∈ separator ∨ ∃ elements ∈ lists, element ∈ elements := by
  induction lists with
  | nil => simp at member
  | cons first lists hypothesis =>
      cases lists with
      | nil => exact Or.inr ⟨first, by simp, by simpa using member⟩
      | cons second lists =>
          rw [List.intercalate_cons_cons, List.mem_append, List.mem_append] at member
          rcases member with (inFirst | inSeparator) | behind
          · exact Or.inr ⟨first, List.mem_cons_self, inFirst⟩
          · exact Or.inl inSeparator
          · rcases hypothesis behind with inSeparator | ⟨elements, listed, inside⟩
            · exact Or.inl inSeparator
            · exact Or.inr ⟨elements, List.mem_cons_of_mem first listed, inside⟩

/-- Names are no operators. -/
theorem IsName.looseness_word {identifier : String} (isName : IsName identifier) :
    (Item.word identifier).looseness = 0 := by
  have notOperator : ∀ word, keywords.contains word = true ->
      constants.contains word = false -> identifier ≠ word := by
    rintro word isKeyword notConstant rfl
    rw [isName.2 isKeyword] at notConstant
    cases notConstant
  have isNot := notOperator "is" (by decide) (by decide)
  have notNot := notOperator "not" (by decide) (by decide)
  have andNot := notOperator "and" (by decide) (by decide)
  have orNot := notOperator "or" (by decide) (by decide)
  simp [Item.looseness, isNot, notNot, andNot, orNot]

theorem IsField.isName {identifier : String} (isField : IsField identifier) :
    IsName identifier :=
  ⟨isField.1, fun isKeyword => by rw [isField.2] at isKeyword; cases isKeyword⟩

theorem IsName.endsOperand {identifier : String} (isName : IsName identifier) :
    (Item.word identifier).endsOperand = true := by
  rw [Item.endsOperand]
  cases isKeyword : keywords.contains identifier with
  | false => rfl
  | true => rw [isName.2 isKeyword]; rfl

theorem IsName.ne_lambda {identifier : String} (isName : IsName identifier) :
    identifier ≠ "lambda" := by
  rintro rfl
  exact absurd (isName.2 (by decide)) (by decide)

/-- Items that a level reads are no operators of looser levels. -/
theorem Readable.looseness_le
    {level : Nat}
    {code : Code}
    (readable : Readable level code) :
    ∀ item ∈ codeItems code, item.looseness <= level := by
  induction readable with
  | name isName =>
      intro item member
      rw [codeItems, List.mem_singleton] at member
      simp [member, isName.looseness_word]
  | count | text =>
      intro item member
      rw [codeItems, List.mem_singleton] at member
      rw [member]
      exact Nat.le_refl 0
  | member _ isField hypothesis =>
      intro item member
      rw [codeItems, List.mem_append] at member
      rcases member with inOwner | behind
      · exact hypothesis item inOwner
      · simp only [List.mem_cons, List.not_mem_nil, or_false] at behind
        rcases behind with rfl | rfl
        · exact Nat.le_refl 0
        · simp [isField.isName.looseness_word]
  | item _ hypothesis | itemFromEnd _ hypothesis | call _ _ hypothesis =>
      intro item member
      rw [codeItems, List.mem_append, List.mem_singleton] at member
      rcases member with inOwner | rfl
      · exact hypothesis item inOwner
      · exact Nat.le_refl 0
  | enclosed =>
      intro item member
      rw [codeItems, List.mem_singleton] at member
      rw [member]
      exact Nat.le_refl 0
  | special infinite isName =>
      intro item member
      rw [codeItems, infinite, if_neg Bool.false_ne_true, List.mem_singleton] at member
      simp [member, isName.looseness_word]
  | @number value finite =>
      intro item member
      rw [codeItems, if_pos finite, List.mem_append, List.mem_singleton] at member
      rcases member with sign | rfl
      · cases signed : isSigned value with
        | false => simp [signed] at sign
        | true =>
            rw [signed, if_pos rfl, List.mem_singleton] at sign
            rw [sign]
            exact Nat.le_refl 1
      · exact Nat.zero_le 1
  | @product operation _ _ isProduct _ _ left right =>
      intro item member
      rw [codeItems, List.mem_append, List.mem_cons] at member
      rcases member with inLeft | rfl | inRight
      · exact left item inLeft
      · cases operation <;> first | exact Nat.le_refl 2 | cases isProduct
      · exact Nat.le_succ_of_le (right item inRight)
  | @sum operation _ _ isSum _ _ left right =>
      intro item member
      rw [codeItems, List.mem_append, List.mem_cons] at member
      rcases member with inLeft | rfl | inRight
      · exact left item inLeft
      · cases operation <;> first | exact Nat.le_refl 3 | cases isSum
      · exact Nat.le_succ_of_le (right item inRight)
  | comparison _ _ left right =>
      intro item member
      rw [codeItems, List.mem_append, List.mem_cons] at member
      rcases member with inLeft | rfl | inRight
      · exact Nat.le_succ_of_le (left item inLeft)
      · exact Nat.le_refl 4
      · exact Nat.le_succ_of_le (right item inRight)
  | isNone _ hypothesis | isNotNone _ hypothesis =>
      intro item member
      rw [codeItems, List.mem_append] at member
      rcases member with inOperand | behind
      · exact Nat.le_succ_of_le (hypothesis item inOperand)
      · simp only [List.mem_cons, List.not_mem_nil, or_false] at behind
        rcases behind with rfl | rfl | rfl <;> decide
  | negation _ hypothesis =>
      intro item member
      rw [codeItems, List.mem_cons] at member
      rcases member with rfl | inOperand
      · decide
      · exact hypothesis item inOperand
  | conjunction _ _ hypothesis | disjunction _ _ hypothesis =>
      intro item member
      rw [codeItems, listItems_eq_map] at member
      rcases mem_intercalate member with separator | ⟨items, listed, inside⟩
      · rw [List.mem_singleton.1 separator]
        decide
      · obtain ⟨operand, isOperand, rfl⟩ := List.mem_map.1 listed
        exact Nat.le_succ_of_le (hypothesis operand isOperand item inside)
  | lambda _ _ hypothesis =>
      intro item member
      rw [codeItems, List.mem_cons] at member
      rcases member with rfl | inBody
      · exact Nat.le_refl 8
      · exact hypothesis item inBody
  | keyword isField _ hypothesis =>
      intro item member
      rw [codeItems, List.mem_cons, List.mem_cons] at member
      rcases member with rfl | rfl | inValue
      · rw [isField.isName.looseness_word]
        exact Nat.zero_le 9
      · exact Nat.le_refl 9
      · exact Nat.le_succ_of_le (hypothesis item inValue)
  | looser _ hypothesis =>
      exact fun item member => Nat.le_succ_of_le (hypothesis item member)

theorem intercalate_ne_nil
    {separator : Item}
    {lists : List (List Item)}
    (nonempty : lists ≠ [])
    (each : ∀ items ∈ lists, items ≠ []) :
    List.intercalate [separator] lists ≠ [] := by
  obtain ⟨first, others, rfl⟩ := List.exists_cons_of_ne_nil nonempty
  have firstNonempty := each first List.mem_cons_self
  cases others with
  | nil => simpa using firstNonempty
  | cons second others =>
      rw [List.intercalate_cons_cons]
      simp

/-- Every piece of code has items. -/
theorem Readable.codeItems_ne_nil
    {level : Nat}
    {code : Code}
    (readable : Readable level code) :
    codeItems code ≠ [] := by
  induction readable with
  | conjunction nonempty _ hypothesis | disjunction nonempty _ hypothesis =>
      rw [codeItems, listItems_eq_map]
      refine intercalate_ne_nil (by simpa using nonempty) ?_
      intro items member
      obtain ⟨operand, isOperand, rfl⟩ := List.mem_map.1 member
      exact hypothesis operand isOperand
  | number finite => simp [codeItems, finite]
  | special infinite => simp [codeItems, infinite]
  | looser _ hypothesis => exact hypothesis
  | _ => simp [codeItems]

/-- An operand of a sum ends like one, so that a minus behind it takes it. -/
theorem Readable.endsOperand
    {level : Nat}
    {code : Code}
    (readable : Readable level code)
    (tight : level <= 3) :
    (codeItems code).getLast?.any Item.endsOperand = true := by
  have behind : ∀ (items : List Item) {others : List Item},
      others.getLast?.any Item.endsOperand = true ->
        (items ++ others).getLast?.any Item.endsOperand = true := by
    intro items others ends
    rw [List.getLast?_append]
    cases last : others.getLast? with
    | none => rw [last] at ends; cases ends
    | some item => rw [last] at ends; exact ends
  induction readable with
  | name isName =>
      rw [codeItems, List.getLast?_singleton]
      exact isName.endsOperand
  | count | text | enclosed => rfl
  | member _ isField =>
      rw [codeItems]
      exact behind _ isField.isName.endsOperand
  | item | itemFromEnd | call =>
      rw [codeItems]
      exact behind _ rfl
  | number finite =>
      rw [codeItems, if_pos finite]
      exact behind _ rfl
  | special infinite isName =>
      rw [codeItems, infinite, if_neg Bool.false_ne_true, List.getLast?_singleton]
      exact isName.endsOperand
  | product _ _ _ _ right =>
      rw [codeItems, ← List.singleton_append, ← List.append_assoc]
      exact behind _ (right (by decide))
  | sum _ _ _ _ right =>
      rw [codeItems, ← List.singleton_append, ← List.append_assoc]
      exact behind _ (right (by decide))
  | looser _ hypothesis => exact hypothesis (by omega)
  | _ => omega

/-- A comparison starts with an operand. -/
theorem Readable.operandFirst
    {code : Code}
    (readable : Readable 4 code) :
    ∀ item ∈ (codeItems code).head?, item.looseness <= 3 := by
  have before : ∀ {first : Code} (others : List Item), Readable 3 first ->
      ∀ item ∈ (codeItems first ++ others).head?, item.looseness <= 3 := by
    intro first others operand item member
    obtain ⟨start, items, shape⟩ := List.exists_cons_of_ne_nil operand.codeItems_ne_nil
    rw [shape, List.cons_append, List.head?_cons, Option.mem_some_iff] at member
    exact operand.looseness_le item (by simp [shape, member])
  cases readable with
  | comparison left | isNone left | isNotNone left => exact before _ left
  | looser readable =>
      intro item member
      exact readable.looseness_le item (List.mem_of_mem_head? member)

/-! ## Reading the items -/

section

variable {items : List Item} {read : Term}

/-- What follows a term is read one after the other. -/
theorem postfixes_append
    {start : Term}
    (reads : postfixes start items = some read)
    (others : List Item) :
    postfixes start (items ++ others) = postfixes read others := by
  fun_induction postfixes start items with
  | case1 => rw [Option.some.inj reads]; rfl
  | case2 => cases reads
  | case3 start field items isNotKeyword hypothesis =>
      rw [List.cons_append, List.cons_append, postfixes, if_neg isNotKeyword]
      exact hypothesis reads
  | case4 start arguments items hypothesis => exact hypothesis reads
  | case5 start position items hypothesis => exact hypothesis reads
  | case6 => cases reads

theorem primary_append
    (reads : primary items = some read)
    (others : List Item) :
    primary (items ++ others) = postfixes read others := by
  cases items with
  | nil => cases reads
  | cons item items =>
      obtain ⟨start, isStart, follows⟩ := Option.bind_eq_some_iff.1 reads
      rw [List.cons_append, primary, isStart, Option.bind_some, postfixes_append follows]

end

/-- A name is read as itself or as the constant that it names. -/
theorem atom_word {identifier : String} (isName : IsName identifier) :
    atom (.word identifier) = some (nameTerm identifier) := by
  by_cases none : identifier = "None"
  · subst none; rfl
  by_cases truth : identifier = "True"
  · subst truth; rfl
  by_cases falsehood : identifier = "False"
  · subst falsehood; rfl
  have notKeyword : keywords.contains identifier ≠ true := by
    intro isKeyword
    have isConstant := isName.2 isKeyword
    simp [constants, none, truth, falsehood] at isConstant
  rw [nameTerm, if_neg none, if_neg truth, if_neg falsehood, atom]
  · exact if_neg notKeyword
  all_goals simp_all

theorem nameTerm_of_isField {identifier : String} (isField : IsField identifier) :
    nameTerm identifier = .name identifier := by
  have different : ∀ word, keywords.contains word = true -> identifier ≠ word := by
    rintro word isKeyword rfl
    rw [isField.2] at isKeyword
    cases isKeyword
  rw [nameTerm, if_neg (different "None" (by decide)), if_neg (different "True" (by decide)),
    if_neg (different "False" (by decide))]

theorem nameTerm_ne_keyword (identifier : String) :
    ∀ key value, nameTerm identifier ≠ .keyword key value := by
  intro key value
  rw [nameTerm]
  split
  next => simp
  next =>
    split
    next => simp
    next =>
      split
      next => simp
      next => simp

/-- Only arguments are passed by name. -/
theorem Readable.term_ne_keyword
    {level : Nat}
    {code : Code}
    (readable : Readable level code)
    (tight : level <= 8) :
    ∀ key value, term code ≠ .keyword key value := by
  have alone : ∀ {group : List Term -> Term} {codes : List Code},
      (∀ operands key value, group operands ≠ .keyword key value) ->
        (∀ operand ∈ codes, ∀ key value, term operand ≠ .keyword key value) ->
          ∀ key value, grouped group (codes.map term) ≠ .keyword key value := by
    intro group codes notGroup each key value
    match codes with
    | [] => exact notGroup [] key value
    | [only] => exact each only List.mem_cons_self key value
    | first :: second :: codes => exact notGroup _ key value
  induction readable with
  | name => exact nameTerm_ne_keyword _
  | number finite =>
      intro key value
      rw [term, numberTerm, if_pos finite]
      split
      next => simp
      next => simp
  | special infinite =>
      rw [term, numberTerm, infinite, if_neg Bool.false_ne_true]
      exact nameTerm_ne_keyword _
  | enclosed _ hypothesis =>
      rw [term]
      exact hypothesis (Nat.le_refl 8)
  | conjunction _ _ hypothesis =>
      rw [term, terms_eq_map]
      exact alone (by simp) fun operand member => hypothesis operand member (by decide)
  | disjunction _ _ hypothesis =>
      rw [term, terms_eq_map]
      exact alone (by simp) fun operand member => hypothesis operand member (by decide)
  | keyword => omega
  | looser _ hypothesis => exact hypothesis (by omega)
  | _ => simp [term]

/-- A term in parentheses is that term, unless it is an argument with a name. -/
theorem atom_enclosed
    {inner : Term}
    (notKeyword : ∀ key value, inner ≠ .keyword key value) :
    atom (.enclosed [inner]) = some inner := by
  unfold atom
  split
  all_goals simp_all

/-- Operands between separators are read one by one. -/
theorem mapM_splitOnP
    {reads : List Item -> Option Term}
    {isSeparator : Item -> Bool}
    {separator : Item}
    {codes : List Code}
    (separates : isSeparator separator = true)
    (nonempty : codes ≠ [])
    (free : ∀ code ∈ codes, ∀ item ∈ codeItems code, isSeparator item = false)
    (each : ∀ code ∈ codes, reads (codeItems code) = some (term code)) :
    ((List.intercalate [separator] (codes.map codeItems)).splitOnP isSeparator).mapM reads =
      some (codes.map term) := by
  rw [splitOnP_intercalate separates (by simpa using nonempty) (by simpa using free)]
  clear nonempty free
  induction codes with
  | nil => rfl
  | cons code codes hypothesis =>
      have others := hypothesis fun other member =>
        each other (List.mem_cons_of_mem code member)
      rw [List.map_cons, List.mapM_cons, each code List.mem_cons_self, others]
      rfl

/-- Items of readable code are read as the term of the code. -/
theorem Readable.reader_codeItems
    {level : Nat}
    {code : Code}
    (readable : Readable level code) :
    reader level (codeItems code) = some (term code) := by
  induction readable with
  | name isName =>
      rw [codeItems, reader, primary, atom_word isName]
      rfl
  | count | text => rfl
  | member _ isField hypothesis =>
      rw [codeItems, reader, primary_append hypothesis, postfixes,
        if_neg (by rw [isField.2]; decide)]
      rfl
  | item _ hypothesis | itemFromEnd _ hypothesis | call _ _ hypothesis =>
      rw [codeItems, reader, primary_append hypothesis]
      rfl
  | enclosed readable hypothesis =>
      have isTerm := atom_enclosed (readable.term_ne_keyword (Nat.le_refl 8))
      rw [codeItems, reader, primary, isTerm]
      rfl
  | special infinite isName =>
      rw [codeItems, infinite, if_neg Bool.false_ne_true, reader, primary, atom_word isName,
        term, numberTerm, infinite, if_neg Bool.false_ne_true]
      rfl
  | @number value finite =>
      rw [codeItems, if_pos finite, reader, term, numberTerm, if_pos finite]
      cases isSigned value with
      | false => rfl
      | true => rfl
  | product isProduct _ right readsLeft readsRight =>
      exact foldChain_append isProduct
        (fun item member => Item.productSign?_eq_none (right.looseness_le item member))
        readsLeft readsRight
  | sum isSum _ right readsLeft readsRight =>
      exact foldChain_append isSum
        (fun item member => Item.sumSign?_eq_none (right.looseness_le item member))
        readsLeft readsRight
  | comparison left right readsLeft readsRight =>
      exact comparison_relation left.looseness_le readsLeft _ right.looseness_le readsRight
  | isNone operand hypothesis => exact comparison_isNone operand.looseness_le hypothesis
  | isNotNone operand hypothesis =>
      exact comparison_isNotNone operand.looseness_le hypothesis
  | negation _ hypothesis =>
      rw [reader] at hypothesis
      rw [codeItems, reader, inversion, hypothesis]
      rfl
  | @conjunction codes nonempty operands hypothesis =>
      have free : ∀ code ∈ codes, ∀ item ∈ codeItems code, item.isWord "and" = false :=
        fun code member item inside =>
          Item.isWord_eq_false (by decide) ((operands code member).looseness_le item inside)
      have separates : (Item.word "and").isWord "and" = true := by decide
      have reads := mapM_splitOnP separates nonempty free hypothesis
      rw [codeItems, listItems_eq_map, reader, Python.conjunction, term, terms_eq_map]
      exact congrArg (Option.map (grouped .conjunction)) reads
  | @disjunction codes nonempty operands hypothesis =>
      have free : ∀ code ∈ codes, ∀ item ∈ codeItems code, item.isWord "or" = false :=
        fun code member item inside =>
          Item.isWord_eq_false (by decide) ((operands code member).looseness_le item inside)
      have separates : (Item.word "or").isWord "or" = true := by decide
      have reads := mapM_splitOnP separates nonempty free hypothesis
      rw [codeItems, listItems_eq_map, reader, Python.disjunction, term, terms_eq_map]
      exact congrArg (Option.map (grouped .disjunction)) reads
  | lambda _ _ hypothesis =>
      rw [reader] at hypothesis
      rw [codeItems, reader, expression, hypothesis]
      rfl
  | @keyword key code _ _ hypothesis =>
      rw [reader] at hypothesis
      have reads : argument (codeItems (.keyword key code)) = some (.keyword key (term code)) := by
        rw [codeItems, argument, hypothesis]
        rfl
      exact reads
  | looser readable hypothesis =>
      refine reader_succ hypothesis readable.looseness_le ?_
      rintro rfl
      exact readable.operandFirst

end Python
end StrategyGraph
