import StrategyGraph.Proofs.Script.Token

/-!
# Grammar of scripts

How a script is read: lines into tokens, tokens into items, items into terms by
the precedence of their operators, and lines into instructions by their
indentation. Only what backtest scripts use is read, and everything else is
refused: there are no chained comparisons, no powers and no instructions other
than those below.

Operators bind in this order, the loosest first: `or`, `and`, `not`, comparisons,
sums, products, negative signs. Sums and products are read from the left.

The grammar is lenient in one place. Reserved words are refused as names inside of terms
but not behind `def`, `class`, `import` and `from`. All of these names are fixed in a
backtest script, except that of its class: no check keeps a configuration from calling
the class `lambda`, and such a script is read here although it should be refused.
-/

namespace StrategyGraph
namespace Python

open Backtest (Arithmetic)

/-- An expression as the grammar reads it. -/
inductive Term where
  | none
  | truth (holds : Bool)
  | name (identifier : String)
  | numeral (content : String)
  | text (content : String)
  | attribute (owner : Term) (field : String)
  | item (owner position : Term)
  | call (function : Term) (arguments : List Term)
  /-- An argument that is passed by name. -/
  | keyword (key : String) (value : Term)
  | lambda (parameters : List String) (body : Term)
  | negative (operand : Term)
  | arithmetic (left : Term) (operation : Arithmetic) (right : Term)
  | comparison (left : Term) (relation : Relation) (right : Term)
  | identical (left right : Term)
  | distinct (left right : Term)
  | conjunction (operands : List Term)
  | disjunction (operands : List Term)
  | negation (operand : Term)
  deriving Inhabited

/-- What the line of a term consists of once everything in brackets is read. -/
inductive Item where
  | word (content : String)
  | numeral (content : String)
  | text (content : String)
  | point
  | comma
  | colon
  | assign
  /-- A minus without a number to its left. -/
  | negative
  | operation (operation : Arithmetic)
  | relation (relation : Relation)
  /-- Round brackets with the arguments between them. -/
  | enclosed (arguments : List Term)
  /-- Square brackets with the position between them. -/
  | index (position : Term)
  /-- The parameters of a function without a name, up to their colon. -/
  | header (parameters : List String)

/-- Words that name a value. -/
def constants : List String := ["None", "True", "False"]

/-- Words that are not names. -/
def keywords : List String :=
  constants ++ [
    "and", "as", "assert", "async", "await", "break", "class", "continue", "def", "del",
    "elif", "else", "except", "finally", "for", "from", "global", "if", "import", "in",
    "is", "lambda", "nonlocal", "not", "or", "pass", "raise", "return", "try", "while",
    "with", "yield"]

/-! ## Terms -/

namespace Item

/-- Whether an item may be the end of an operand, so that a minus behind it takes
two operands. -/
def endsOperand : Item -> Bool
  | .word content => !(keywords.contains content) || constants.contains content
  | .numeral _ | .text _ | .enclosed _ | .index _ => true
  | _ => false

/-- Whether the item is a given word. -/
def isWord (content : String) : Item -> Bool
  | .word other => other == content
  | _ => false

def isComma : Item -> Bool
  | .comma => true
  | _ => false

def isAssign : Item -> Bool
  | .assign => true
  | _ => false

/-- Operation of a sum. -/
def sumSign? : Item -> Option Arithmetic
  | .operation .add => some .add
  | .operation .sub => some .sub
  | _ => none

/-- Operation of a product. -/
def productSign? : Item -> Option Arithmetic
  | .operation .mul => some .mul
  | .operation .div => some .div
  | .operation .floorDiv => some .floorDiv
  | _ => none

/-- What a comparison compares by; `none` stands for identity. -/
def relation? : Item -> Option (Option Relation)
  | .relation sign => some (some sign)
  | .word "is" => some none
  | _ => none

end Item

/-- Cut items at the operators among them. -/
def chain (operator? : Item -> Option Operator) :
    List Item -> List Item × List (Operator × List Item)
  | [] => ([], [])
  | item :: items =>
      let (first, others) := chain operator? items
      match operator? item with
      | some operator => ([], (operator, first) :: others)
      | none => (item :: first, others)

/-- Read operands and combine them from the left. -/
def foldChain
    (operand : List Item -> Option Term)
    (operator? : Item -> Option Arithmetic)
    (items : List Item) : Option Term := do
  let (first, others) := chain operator? items
  others.foldlM
    (fun left (operation, right) => do return .arithmetic left operation (← operand right))
    (← operand first)

/-- A term that needs no operator. -/
def atom : Item -> Option Term
  | .word "None" => some .none
  | .word "True" => some (.truth true)
  | .word "False" => some (.truth false)
  | .word content => if keywords.contains content then none else some (.name content)
  | .numeral content => some (.numeral content)
  | .text content => some (.text content)
  | .enclosed [.keyword _ _] => none
  | .enclosed [inner] => some inner
  | _ => none

/-- What follows a term: attributes, arguments and positions. -/
def postfixes (term : Term) : List Item -> Option Term
  | [] => some term
  | .point :: .word field :: items =>
      if keywords.contains field then none else postfixes (.attribute term field) items
  | .enclosed arguments :: items => postfixes (.call term arguments) items
  | .index position :: items => postfixes (.item term position) items
  | _ => none

/-- An atom with what follows it. -/
def primary : List Item -> Option Term
  | [] => none
  | item :: items => (atom item).bind fun term => postfixes term items

/-- A primary behind any number of negative signs. -/
def factor : List Item -> Option Term
  | .negative :: items => (factor items).map .negative
  | items => primary items

def product (items : List Item) : Option Term :=
  foldChain factor Item.productSign? items

def sum (items : List Item) : Option Term :=
  foldChain product Item.sumSign? items

/-- Two sums compared, or one sum. -/
def comparison (items : List Item) : Option Term :=
  match chain Item.relation? items with
  | (first, []) => sum first
  | (first, [(some relation, second)]) => do
      return .comparison (← sum first) relation (← sum second)
  | (first, [(none, .word "not" :: second)]) => do
      return .distinct (← sum first) (← sum second)
  | (first, [(none, second)]) => do return .identical (← sum first) (← sum second)
  | _ => none

/-- A comparison behind any number of negations. -/
def inversion : List Item -> Option Term
  | .word "not" :: items => (inversion items).map .negation
  | items => comparison items

/-- A group of operands, unless there is only one of them. -/
def grouped (group : List Term -> Term) : List Term -> Term
  | [only] => only
  | several => group several

def conjunction (items : List Item) : Option Term :=
  ((items.splitOnP (Item.isWord "and")).mapM inversion).map (grouped .conjunction)

def disjunction (items : List Item) : Option Term :=
  ((items.splitOnP (Item.isWord "or")).mapM conjunction).map (grouped .disjunction)

/-- A whole term. A function without a name extends as far as it can. -/
def expression : List Item -> Option Term
  | .header parameters :: items => (expression items).map (.lambda parameters)
  | items => disjunction items

/-- An argument, passed by name or by position. -/
def argument : List Item -> Option Term
  | .word key :: .assign :: items => (expression items).map (.keyword key)
  | items => expression items

/-- Arguments between round brackets. -/
def arguments (items : List Item) : Option (List Term) :=
  if items.isEmpty then some [] else (items.splitOnP Item.isComma).mapM argument

/-- Names of parameters, separated by commas. -/
def parameterNames : List Item -> Option (List String)
  | [] => some []
  | [.word content] => if keywords.contains content then none else some [content]
  | .word content :: .comma :: items =>
      if keywords.contains content then none
      else (parameterNames items).map (content :: ·)
  | _ => none

/-! ## Brackets -/

/-- What is open at a token: a bracket, or a function without a name whose
parameters are being read. -/
inductive Bracket where
  | round
  | square
  | lambda
  deriving DecidableEq, Repr

/-- Items read so far: those before each open bracket, and those behind the last. -/
structure Grouping where
  outer : List (Bracket × List Item)
  items : List Item

namespace Grouping

/-- Nothing read. -/
def start : Grouping := ⟨[], []⟩

def push (grouping : Grouping) (item : Item) : Grouping :=
  ⟨grouping.outer, grouping.items ++ [item]⟩

def enter (grouping : Grouping) (bracket : Bracket) : Grouping :=
  ⟨(bracket, grouping.items) :: grouping.outer, []⟩

/-- Close a bracket with what its content is read as. -/
def close (grouping : Grouping) (bracket : Bracket) (content : Option Item) :
    Option Grouping :=
  match grouping.outer with
  | (other, before) :: outer =>
      if other = bracket then content.map fun item => ⟨outer, before ++ [item]⟩ else none
  | [] => none

/-- Whether the parameters of a function are being read. -/
def inParameters (grouping : Grouping) : Bool :=
  match grouping.outer with
  | (.lambda, _) :: _ => true
  | _ => false

/-- Whether an operand has just ended. -/
def afterOperand (grouping : Grouping) : Bool :=
  grouping.items.getLast?.any Item.endsOperand

/-- Whether the name of a class comes next. It is taken as it stands, also if it is a
reserved word, so that `lambda` opens no function there. -/
def namesClass (grouping : Grouping) : Bool :=
  match grouping.items with
  | [.word "class"] => true
  | _ => false

/-- Read one more token. -/
def step (grouping : Grouping) : Token -> Option Grouping
  | .word content =>
      if content = "lambda" && !grouping.namesClass then some (grouping.enter .lambda)
      else some (grouping.push (.word content))
  | .numeral content => some (grouping.push (.numeral content))
  | .text content => some (grouping.push (.text content))
  | .point => some (grouping.push .point)
  | .comma => some (grouping.push .comma)
  | .colon =>
      if grouping.inParameters then
        grouping.close .lambda ((parameterNames grouping.items).map .header)
      else some (grouping.push .colon)
  | .assign => some (grouping.push .assign)
  | .openRound => some (grouping.enter .round)
  | .closeRound => grouping.close .round ((arguments grouping.items).map .enclosed)
  | .openSquare => some (grouping.enter .square)
  | .closeSquare => grouping.close .square ((expression grouping.items).map .index)
  | .operation .sub =>
      some (grouping.push (if grouping.afterOperand then .operation .sub else .negative))
  | .operation operation => some (grouping.push (.operation operation))
  | .relation relation => some (grouping.push (.relation relation))

end Grouping

/-- Items of a line, all brackets closed. -/
def itemize (tokens : List Token) : Option (List Item) := do
  let grouping <- tokens.foldlM Grouping.step .start
  if grouping.outer.isEmpty then some grouping.items else none

/-! ## Lines -/

/-- An instruction of a script. -/
inductive Instruction where
  | importModule (module shortName : String)
  | importFrom (module name : String)
  | assign (target value : Term)
  /-- A term for its effect, with the remark that stands last before it. -/
  | evaluate (remark : Option String) (term : Term)
  | leave
  | conditional (condition : Term) (body : List Instruction)
  | function (name : String) (parameters : List String) (body : List Instruction)
  | classOf (name base : String) (body : List Instruction)

/-- A line that a block of instructions follows. -/
inductive Header where
  | conditional (condition : Term)
  | function (name : String) (parameters : List String)
  | classOf (name base : String)

/-- What a line says. -/
inductive Line where
  | simple (instruction : Instruction)
  | header (header : Header)

/-- The instruction of a header and its block. -/
def Header.with (body : List Instruction) : Header -> Instruction
  | .conditional condition => .conditional condition body
  | .function name parameters => .function name parameters body
  | .classOf name base => .classOf name base body

/-- Words that start an instruction. -/
def instructionWords : List String := ["return", "if", "def", "class", "import", "from"]

/-- A parameter of a function with a name. -/
def parameter? : Term -> Option String
  | .name identifier => some identifier
  | _ => none

/-- A line that starts with such a word, given what follows the word. What is defined or
imported may have any word for a name, a reserved one included. -/
def readInstruction (word : String) (items : List Item) : Option Line :=
  if word = "return" then
    match items with
    | [] => some (.simple .leave)
    | _ => none
  else if word = "if" then
    match items.getLast? with
    | some .colon =>
        (expression items.dropLast).map fun condition => .header (.conditional condition)
    | _ => none
  else if word = "def" then
    match items with
    | [.word name, .enclosed parameters, .colon] =>
        (parameters.mapM parameter?).map fun names => .header (.function name names)
    | _ => none
  else if word = "class" then
    match items with
    | [.word name, .enclosed [.name base], .colon] => some (.header (.classOf name base))
    | _ => none
  else if word = "import" then
    match items with
    | [.word module] => some (.simple (.importModule module module))
    | [.word module, .word "as", .word shortName] =>
        some (.simple (.importModule module shortName))
    | _ => none
  else
    match items with
    | [.word module, .word "import", .word name] => some (.simple (.importFrom module name))
    | _ => none

/-- A line that assigns or evaluates. -/
def readPlain (remark : Option String) (items : List Item) : Option Line :=
  match items.splitOnP Item.isAssign with
  | [term] => (expression term).map fun term => .simple (.evaluate remark term)
  | [target, value] => do
      return .simple (.assign (← expression target) (← expression value))
  | _ => none

/-- Read the items of a line. -/
def readItems (remark : Option String) (items : List Item) : Option Line :=
  match items with
  | .word word :: rest =>
      if instructionWords.contains word then readInstruction word rest
      else readPlain remark items
  | _ => readPlain remark items

/-- Read a line from its first visible character on. -/
def readLine (remark : Option String) (content : List Char) : Option Line := do
  readItems remark (← itemize (← lex content))

/-- Read lines, each with its indentation. Empty lines and remarks do not count, but
the last remark is remembered. -/
def readLines (remark : Option String) : List (List Char) -> Option (List (Nat × Line))
  | [] => some []
  | text :: texts =>
      let indentation := (text.takeWhile (· == ' ')).length
      match text.dropWhile (· == ' ') with
      | [] => readLines remark texts
      | first :: rest =>
          if first = '#' then
            if rest.all allowedInRemark then
              readLines (some (String.ofList (rest.drop 1))) texts
            else none
          else do
            let line <- readLine remark (first :: rest)
            let lines <- readLines remark texts
            return (indentation, line) :: lines

/-- Collect the blocks of headers: the instructions behind a header that stand
further right than it, all at one indentation. -/
def layout : List (Nat × Line) -> Option (List (Nat × Instruction))
  | [] => some []
  | (indentation, line) :: lines => do
      let entries <- layout lines
      match line with
      | .simple instruction => return (indentation, instruction) :: entries
      | .header header =>
          let body := entries.takeWhile fun entry => indentation < entry.1
          match body with
          | [] => none
          | first :: _ =>
              if body.all fun entry => entry.1 == first.1 then
                return (indentation, header.with (body.map Prod.snd)) ::
                  entries.dropWhile fun entry => indentation < entry.1
              else none

/-- Read a script. -/
def read (text : String) : Option (List Instruction) := do
  let lines <- readLines none (text.toList.splitOnP (· == '\n'))
  let entries <- layout lines
  if entries.all fun entry => entry.1 == 0 then some (entries.map Prod.snd) else none

end Python
end StrategyGraph
