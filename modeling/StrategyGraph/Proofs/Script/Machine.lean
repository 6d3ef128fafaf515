import StrategyGraph.Proofs.Number.Exact
import StrategyGraph.Proofs.Script.Grammar
import StrategyGraph.Run.Evaluation

/-!
# Running scripts

What a script does at each bar: its class is created once, its method `init` runs
once and its method `next` at every bar. Numbers are exact, and a missing number
makes every comparison fail.

The surroundings of a run supply what the script does not compute: what a numeral
denotes, the market data up to the bar, the values of every declared indicator
under the name of its attribute, and whether there is an open position. What the
script does is a list of effects. Each carries the remark that stands last before
it, which is how the script says for which rule it acts.

Whatever has no meaning here ends the run.
-/

namespace StrategyGraph
namespace Python

open Backtest (Arithmetic)

/-- A function that is there without being defined. -/
inductive Builtin where
  | isnan
  | len
  | int
  deriving DecidableEq, Repr

/-- A value at run time. -/
inductive Value where
  | none
  | truth (holds : Bool)
  | number (quantity : Exact)
  | text (content : String)
  /-- The values under a key, up to the bar. -/
  | series (key : String)
  /-- The market data of the run. -/
  | market
  /-- The position of the run. -/
  | position
  /-- The instance whose method runs. -/
  | self
  | library (module : String)
  | builtin (function : Builtin)
  deriving DecidableEq

/-- What surrounds a script at a bar. -/
structure Surroundings where
  /-- The number a numeral denotes. -/
  numeral : String -> ℚ
  set : SeriesSet Exact
  bar : Nat
  /-- Whether there is an open position. -/
  holding : Bool

/-- Attributes of the instance. -/
abbrev Attributes := String -> Option Value

/-- What names and attributes stand for. -/
structure Scope where
  globals : String -> Option Value
  locals : String -> Option Value
  attributes : Attributes

/-! ## Terms -/

namespace Value

/-- Whether a value counts as true. -/
def isTrue (here : Surroundings) : Value -> Option Bool
  | .none => some false
  | .truth holds => some holds
  | .number quantity => some (quantity != .number 0)
  | .position => some here.holding
  | _ => Option.none

/-- An attribute of a value. -/
def member (attributes : Attributes) (field : String) : Value -> Option Value
  | .self =>
      if field = "data" then some .market
      else if field = "position" then some .position
      else attributes field
  | .market =>
      (Column.all.find? fun column => column.label == field).map fun column =>
        .series column.key
  | .library "numpy" => if field = "isnan" then some (.builtin .isnan) else Option.none
  | _ => Option.none

/-- Place of an item among several, counted from the start, or from the end for
negative positions. -/
def place? (count : Nat) (position : ℚ) : Option Nat :=
  if position.den = 1 then
    if 0 <= position.num then
      if position.num.toNat < count then some position.num.toNat else Option.none
    else if position.num.natAbs <= count then some (count - position.num.natAbs)
    else Option.none
  else Option.none

/-- An item of the values up to the bar. -/
def item (here : Surroundings) : Value -> Value -> Option Value
  | .series key, .number (.number place) =>
      ((place? (here.bar + 1) place).bind (here.set.value? key)).map .number
  | _, _ => Option.none

/-- The whole number between a number and zero that is nearest to it. -/
def truncate (value : ℚ) : ℚ :=
  if 0 <= value then ⌊value⌋ else ⌈value⌉

/-- Call a function that is there without being defined. -/
def apply (here : Surroundings) : Value -> List Value -> Option Value
  | .builtin .isnan, [.number quantity] => some (.truth quantity.isMissing)
  | .builtin .len, [.market] => some (.number (.number ((here.bar + 1 : Nat) : ℚ)))
  | .builtin .int, [.number (.number value)] => some (.number (.number (truncate value)))
  | _, _ => Option.none

def negative : Value -> Option Value
  | .number (.number value) => some (.number (.number (-value)))
  | .number .missing => some (.number .missing)
  | _ => Option.none

/-- The outcome of an operation; nothing is divided by zero. -/
def arithmetic (operation : Arithmetic) : Value -> Value -> Option Value
  | .number left, .number right =>
      match operation with
      | .add => some (.number (Quantity.add left right))
      | .sub => some (.number (Quantity.sub left right))
      | .mul => some (.number (Quantity.mul left right))
      | .div =>
          if right = .number 0 then Option.none
          else some (.number (Quantity.div left right))
      | .floorDiv =>
          if right = .number 0 then Option.none
          else some (.number (Quantity.floor (Quantity.div left right)))
  | _, _ => Option.none

def comparison (relation : Relation) : Value -> Value -> Option Value
  | .number left, .number right => some (.truth (relation.holds left right))
  | _, _ => Option.none

/-- Whether a value is the one for no value. -/
def isNone : Value -> Bool
  | .none => true
  | _ => false

end Value

mutual

/-- The value of a term. Of a group only those operands are evaluated that decide
about it. -/
def eval (here : Surroundings) (scope : Scope) : Term -> Option Value
  | .none => some .none
  | .truth holds => some (.truth holds)
  | .name identifier => scope.locals identifier <|> scope.globals identifier
  | .numeral content => some (.number (.number (here.numeral content)))
  | .text content => some (.text content)
  | .attribute owner field =>
      (eval here scope owner).bind (Value.member scope.attributes field)
  | .item owner position => do
      Value.item here (← eval here scope owner) (← eval here scope position)
  | .call function arguments => do
      Value.apply here (← eval here scope function) (← evalEach here scope arguments)
  | .negative operand => (eval here scope operand).bind Value.negative
  | .arithmetic left operation right => do
      Value.arithmetic operation (← eval here scope left) (← eval here scope right)
  | .comparison left relation right => do
      Value.comparison relation (← eval here scope left) (← eval here scope right)
  | .identical operand .none =>
      (eval here scope operand).map fun value => .truth value.isNone
  | .distinct operand .none =>
      (eval here scope operand).map fun value => .truth !value.isNone
  | .conjunction operands => evalUntil here scope false operands
  | .disjunction operands => evalUntil here scope true operands
  | .negation operand =>
      ((eval here scope operand).bind (Value.isTrue here)).map fun holds => .truth !holds
  | _ => none

/-- The values of several terms. -/
def evalEach (here : Surroundings) (scope : Scope) : List Term -> Option (List Value)
  | [] => some []
  | term :: terms => do
      return (← eval here scope term) :: (← evalEach here scope terms)

/-- The value of the first operand that decides, else that of the last one. -/
def evalUntil (here : Surroundings) (scope : Scope) (deciding : Bool) :
    List Term -> Option Value
  | [] => none
  | term :: terms => do
      let value <- eval here scope term
      if terms.isEmpty then some value
      else if (← value.isTrue here) = deciding then some value
      else evalUntil here scope deciding terms

end

/-- What a name stands for. -/
def Scope.value? (scope : Scope) (name : String) : Option Value :=
  scope.locals name <|> scope.globals name

section

variable {here : Surroundings} {scope : Scope}

theorem eval_name (name : String) :
    eval here scope (.name name) = scope.value? name := by
  rw [eval]
  rfl

theorem evalUntil_singleton (deciding : Bool) (term : Term) :
    evalUntil here scope deciding [term] = eval here scope term := by
  rw [evalUntil]
  cases eval here scope term <;> rfl

/-- The first operand that decides is the last one to be evaluated. -/
theorem evalUntil_of_decides
    {deciding : Bool}
    {term : Term}
    (decides : eval here scope term = some (.truth deciding))
    (terms : List Term) :
    evalUntil here scope deciding (term :: terms) = some (.truth deciding) := by
  rw [evalUntil, decides]
  cases terms <;> simp [Value.isTrue]

/-- Behind an operand that does not decide the others are evaluated. -/
theorem evalUntil_of_passes
    {deciding : Bool}
    {term : Term}
    (passes : eval here scope term = some (.truth !deciding))
    {terms : List Term}
    (nonempty : terms ≠ []) :
    evalUntil here scope deciding (term :: terms) = evalUntil here scope deciding terms := by
  rw [evalUntil, passes]
  cases terms with
  | nil => exact absurd rfl nonempty
  | cons second terms => cases deciding <;> simp [Value.isTrue]

end

/-- The value of an argument, passed by name or by position. -/
def evalArgument (here : Surroundings) (scope : Scope) : Term -> Option Value
  | .keyword _ value => eval here scope value
  | term => eval here scope term

/-! ## Instructions -/

/-- What a script does to its position. -/
inductive Act where
  | buy
  | close
  deriving DecidableEq, Repr

/-- An act and the remark that stands last before it. -/
structure Effect where
  act : Act
  remark : Option String
  deriving DecidableEq, Repr

/-- A method that is running. -/
structure Frame where
  locals : String -> Option Value
  attributes : Attributes
  effects : List Effect

namespace Frame

def scope (frame : Frame) (globals : String -> Option Value) : Scope :=
  ⟨globals, frame.locals, frame.attributes⟩

/-- Give a variable a value. -/
def setVariable (frame : Frame) (name : String) (value : Value) : Frame :=
  { frame with locals := Function.update frame.locals name (some value) }

/-- Give an attribute of the instance a value. -/
def setAttribute (frame : Frame) (field : String) (value : Value) : Frame :=
  { frame with attributes := Function.update frame.attributes field (some value) }

def addEffect (frame : Frame) (act : Act) (remark : Option String) : Frame :=
  { frame with effects := frame.effects ++ [⟨act, remark⟩] }

end Frame

/-- Whether a term declares an indicator, which the run computes and supplies under
the attribute it is assigned to. -/
def declares : Term -> Bool
  | .call (.attribute (.name "self") "I") _ => true
  | _ => false

/-- How the methods of the instance are called: the name, the arguments and the
attributes before and after. -/
abbrev Calls := String -> List Value -> Attributes -> Option Attributes

section

variable (here : Surroundings) (globals : String -> Option Value) (calls : Calls)

/-- Assign the value of a term. -/
def assign (target value : Term) (frame : Frame) : Option Frame :=
  match target with
  | .name identifier => do
      return frame.setVariable identifier (← eval here (frame.scope globals) value)
  | .attribute owner field => do
      if (← eval here (frame.scope globals) owner) = .self then
        if declares value then return frame.setAttribute field (.series field)
        else return frame.setAttribute field (← eval here (frame.scope globals) value)
      else none
  | _ => none

/-- Evaluate a term for its effect: an order, the end of the position, or a call of
another method. -/
def evaluate (remark : Option String) (term : Term) (frame : Frame) : Option Frame :=
  match term with
  | .call (.attribute owner method) arguments => do
      match ← eval here (frame.scope globals) owner with
      | .position =>
          if method = "close" && arguments.isEmpty then return frame.addEffect .close remark
          else none
      | .self =>
          if method = "buy" then do
            let _ <- arguments.mapM (evalArgument here (frame.scope globals))
            return frame.addEffect .buy remark
          else do
            let values <- evalEach here (frame.scope globals) arguments
            let attributes <- calls method values frame.attributes
            return { frame with attributes }
      | _ => none
  | _ => none

mutual

/-- Carry out an instruction. The flag says whether the method is left. -/
def perform : Instruction -> Frame -> Option (Frame × Bool)
  | .assign target value, frame =>
      (assign here globals target value frame).map fun frame => (frame, false)
  | .evaluate remark term, frame =>
      (evaluate here globals calls remark term frame).map fun frame => (frame, false)
  | .leave, frame => some (frame, true)
  | .conditional condition body, frame => do
      let value <- eval here (frame.scope globals) condition
      if ← value.isTrue here then performAll body frame else some (frame, false)
  | _, _ => none

/-- Carry out instructions until one leaves the method. -/
def performAll : List Instruction -> Frame -> Option (Frame × Bool)
  | [], frame => some (frame, false)
  | instruction :: instructions, frame => do
      let (frame, left) <- perform instruction frame
      if left then some (frame, true) else performAll instructions frame

end

end

section

variable
  {here : Surroundings}
  {globals : String -> Option Value}
  {calls : Calls}

/-- Instructions are carried out until some leave the method. -/
theorem performAll_append
    (instructions others : List Instruction)
    (frame : Frame) :
    performAll here globals calls (instructions ++ others) frame =
      (performAll here globals calls instructions frame).bind fun outcome =>
        if outcome.2 then some outcome else performAll here globals calls others outcome.1 := by
  induction instructions generalizing frame with
  | nil => rw [List.nil_append, performAll]; rfl
  | cons instruction instructions hypothesis =>
      rw [List.cons_append, performAll, performAll]
      cases perform here globals calls instruction frame with
      | none => rfl
      | some outcome =>
          obtain ⟨next, left⟩ := outcome
          cases left with
          | true => rfl
          | false => exact hypothesis next

/-- Instructions that do not leave are followed by the others. -/
theorem performAll_append_of_stays
    {instructions : List Instruction}
    {frame next : Frame}
    (stays : performAll here globals calls instructions frame = some (next, false))
    (others : List Instruction) :
    performAll here globals calls (instructions ++ others) frame =
      performAll here globals calls others next := by
  rw [performAll_append, stays]
  rfl

/-- Nothing follows instructions that leave. -/
theorem performAll_append_of_leaves
    {instructions : List Instruction}
    {frame next : Frame}
    (leaves : performAll here globals calls instructions frame = some (next, true))
    (others : List Instruction) :
    performAll here globals calls (instructions ++ others) frame = some (next, true) := by
  rw [performAll_append, leaves]
  rfl

theorem performAll_singleton (instruction : Instruction) (frame : Frame) :
    performAll here globals calls [instruction] frame =
      perform here globals calls instruction frame := by
  rw [performAll]
  cases perform here globals calls instruction frame with
  | none => rfl
  | some outcome =>
      obtain ⟨next, left⟩ := outcome
      cases left <;> rfl

/-- A block is carried out where its condition holds. -/
theorem perform_conditional
    {condition : Term}
    {holds : Bool}
    {frame : Frame}
    (isTruth : eval here (frame.scope globals) condition = some (.truth holds))
    (body : List Instruction) :
    perform here globals calls (.conditional condition body) frame =
      if holds then performAll here globals calls body frame else some (frame, false) := by
  rw [perform, isTruth]
  rfl

/-- Carry out an instruction that stays, then others. -/
theorem performAll_of_stays
    {instruction : Instruction}
    {frame next : Frame}
    (stays : perform here globals calls instruction frame = some (next, false))
    (others : List Instruction) :
    performAll here globals calls (instruction :: others) frame =
      performAll here globals calls others next := by
  rw [performAll, stays]
  rfl

/-- Nothing follows an instruction that leaves. -/
theorem performAll_of_leaves
    {instruction : Instruction}
    {frame next : Frame}
    (leaves : perform here globals calls instruction frame = some (next, true))
    (others : List Instruction) :
    performAll here globals calls (instruction :: others) frame = some (next, true) := by
  rw [performAll, leaves]
  rfl

end

/-! ## Scripts -/

/-- What the names outside of all methods stand for. -/
def globalsOf (instructions : List Instruction) (name : String) : Option Value :=
  if name = "len" then some (.builtin .len)
  else if name = "int" then some (.builtin .int)
  else
    instructions.findSome? fun instruction =>
      match instruction with
      | .importModule module shortName =>
          if shortName = name then some (.library module) else none
      | _ => none

/-- The body of the first class. -/
def classBody (instructions : List Instruction) : Option (List Instruction) :=
  instructions.findSome? fun instruction =>
    match instruction with
    | .classOf _ _ body => some body
    | _ => none

/-- Parameters and body of a method. -/
def method? (methods : List Instruction) (name : String) :
    Option (List String × List Instruction) :=
  methods.findSome? fun instruction =>
    match instruction with
    | .function other parameters body =>
        if other = name then some (parameters, body) else none
    | _ => none

/-- A script whose class has been created. -/
structure Script where
  globals : String -> Option Value
  methods : List Instruction

namespace Script

/-- The script that instructions make. -/
def ofInstructions (instructions : List Instruction) : Option Script :=
  (classBody instructions).map fun methods => ⟨globalsOf instructions, methods⟩

/-- Variables of a method at its start: the instance and the arguments. -/
def parameterValues (parameters : List String) (arguments : List Value) :
    Option (String -> Option Value) :=
  if parameters.length = arguments.length + 1 then
    some fun name => (parameters.zip (.self :: arguments)).lookup name
  else none

/-- Run a method. -/
def runMethod
    (script : Script)
    (here : Surroundings)
    (calls : Calls)
    (name : String)
    (arguments : List Value)
    (attributes : Attributes) : Option Frame := do
  let (parameters, body) <- method? script.methods name
  let locals <- parameterValues parameters arguments
  let (frame, _) <- performAll here script.globals calls body ⟨locals, attributes, []⟩
  return frame

/-- Run a method that calls no other one and has no effect outside. -/
def runHelper (script : Script) (here : Surroundings) : Calls :=
  fun name arguments attributes => do
    let frame <- script.runMethod here (fun _ _ _ => none) name arguments attributes
    if frame.effects.isEmpty then some frame.attributes else none

/-- Attributes of the instance once `init` has run. -/
def create (script : Script) (here : Surroundings) : Option Attributes :=
  script.runHelper here "init" [] fun _ => none

/-- Run `next` at a bar. -/
def next (script : Script) (here : Surroundings) (attributes : Attributes) :
    Option (List Effect × Attributes) := do
  let frame <- script.runMethod here (script.runHelper here) "next" [] attributes
  return (frame.effects, frame.attributes)

/-- Whether there is an open position once the effects of a bar are carried out. -/
def holdingAfter (holding : Bool) (effects : List Effect) : Bool :=
  match effects.getLast? with
  | some effect => effect.act = .buy
  | none => holding

/-- Run `next` at some bars. The outcome is what it did at each and the attributes
afterwards. -/
def runBars
    (script : Script)
    (numeral : String -> ℚ)
    (set : SeriesSet Exact) :
    Bool -> Attributes -> List Nat -> Option (List (List Effect × Attributes))
  | _, _, [] => some []
  | holding, attributes, bar :: bars => do
      let (effects, attributes) <- script.next ⟨numeral, set, bar, holding⟩ attributes
      let others <-
        script.runBars numeral set (holdingAfter holding effects) attributes bars
      return (effects, attributes) :: others

/-- Run a script over all bars of a set: the attributes at the start, then what
`next` did at each bar. -/
def run (script : Script) (numeral : String -> ℚ) (set : SeriesSet Exact) :
    Option (Attributes × List (List Effect × Attributes)) := do
  let attributes <- script.create ⟨numeral, set, 0, false⟩
  return (attributes,
    ← script.runBars numeral set false attributes (List.range set.barCount))

end Script
end Python
end StrategyGraph
