import StrategyGraph.Proofs.Script.Size

/-!
# Instructions of scripts

How the instructions of a method are carried out one behind the other, and what their
frame keeps. The close of the bar is known before any rule is tried.
-/

namespace StrategyGraph
namespace Python

open Backtest (Code Statement)

/-- Name of the attribute that keeps the level of a trailing stop. -/
def trailingName (index : Nat) : String := "trail_" ++ index.repr

/-- The value of an attribute that keeps a number or none. -/
def shown : Option Exact -> Value
  | none => .none
  | some quantity => .number quantity

/-- Attributes with an entry price and without trailing levels. -/
def resetAttributes (strategy : Strategy) (price : Value) (attributes : Attributes) :
    Attributes :=
  (Backtest.trailingRules strategy).foldl
    (fun attributes entry =>
      Function.update attributes (trailingName entry.1) (some .none))
    (Function.update attributes "entry_price" (some price))

/-- A frame whose position is closed for a rule. -/
def Frame.closed (frame : Frame) (strategy : Strategy) (remark : Option String) : Frame where
  locals := frame.locals
  attributes := resetAttributes strategy .none frame.attributes
  effects := frame.effects ++ [⟨.close, remark⟩]

/-- A frame whose position is opened for a rule at a price. -/
def Frame.opened
    (frame : Frame)
    (strategy : Strategy)
    (price : Exact)
    (remark : Option String) : Frame where
  locals := frame.locals
  attributes := resetAttributes strategy (.number price) frame.attributes
  effects := frame.effects ++ [⟨.buy, remark⟩]

/-- A frame of the method that decides, once the close is known. -/
structure Frame.Prepared
    (frame : Frame)
    (globals : String -> Option Value)
    (declared : List IndicatorSeries)
    (close : ℚ) : Prop where
  ready : (frame.scope globals).Ready declared
  close : frame.locals "close" = some (.number (.number close))

/-- Whether two frames differ at most in a candidate and in one trailing level. -/
structure Frame.Moved (index : Nat) (before after : Frame) : Prop where
  effects : after.effects = before.effects
  locals : ∀ name, name ≠ "candidate" -> after.locals name = before.locals name
  attributes : ∀ name, name ≠ trailingName index ->
    after.attributes name = before.attributes name

namespace Frame

variable
  {frame after : Frame}
  {globals : String -> Option Value}
  {declared : List IndicatorSeries}
  {close : ℚ}
  {index : Nat}

theorem Moved.refl (index : Nat) (frame : Frame) : frame.Moved index frame :=
  ⟨rfl, fun _ _ => rfl, fun _ _ => rfl⟩

theorem Moved.setVariable (moved : frame.Moved index after) (value : Value) :
    frame.Moved index (after.setVariable "candidate" value) :=
  ⟨moved.effects,
    fun name different =>
      (Function.update_of_ne different _ after.locals).trans (moved.locals name different),
    moved.attributes⟩

theorem Moved.setAttribute (moved : frame.Moved index after) (value : Value) :
    frame.Moved index (after.setAttribute (trailingName index) value) :=
  ⟨moved.effects, moved.locals,
    fun name different =>
      (Function.update_of_ne different _ after.attributes).trans
        (moved.attributes name different)⟩

/-- Keys of series are not names of trailing levels. -/
theorem key_ne_trailingName (series : IndicatorSeries) (index : Nat) :
    series.key ≠ trailingName index := by
  refine key_ne ?_ series
  have starts : (trailingName index).toList.take 2 = ['t', 'r'] := by
    rw [trailingName, String.toList_append]
    rfl
  rw [starts]
  decide

theorem entryPrice_ne_trailingName (index : Nat) : "entry_price" ≠ trailingName index := by
  intro equal
  have starts := congrArg (fun text => text.toList.take 1) equal
  rw [trailingName, String.toList_append] at starts
  exact absurd starts (by simp)

theorem value?_eq_of_locals
    {name : String}
    (locals : after.locals name = frame.locals name) :
    (after.scope globals).value? name = (frame.scope globals).value? name :=
  congrArg (· <|> globals name) locals

/-- A frame stays prepared where only a candidate and no series has changed. -/
theorem Prepared.of_eq
    (prepared : frame.Prepared globals declared close)
    (locals : ∀ name, name ≠ "candidate" -> after.locals name = frame.locals name)
    (attributes : ∀ series : IndicatorSeries,
      after.attributes series.key = frame.attributes series.key) :
    after.Prepared globals declared close where
  ready := by
    refine prepared.ready.of_eq (fun name member => ?_) attributes
    have different : name ≠ "candidate" := by
      rintro rfl
      exact absurd member (by decide)
    exact value?_eq_of_locals (locals name different)
  close := (locals "close" (by decide)).trans prepared.close

theorem Moved.prepared
    (moved : frame.Moved index after)
    (prepared : frame.Prepared globals declared close) :
    after.Prepared globals declared close :=
  prepared.of_eq moved.locals fun series =>
    moved.attributes _ (key_ne_trailingName series index)

/-- Once the close is assigned, the rules can be tried. -/
theorem prepared_setClose
    (ready : (frame.scope globals).Ready declared)
    (close : ℚ) :
    (frame.setVariable "close" (.number (.number close))).Prepared globals declared close where
  ready := by
    refine ready.of_eq (fun name member => value?_eq_of_locals ?_) fun _ => rfl
    have different : name ≠ "close" := by
      rintro rfl
      exact absurd member (by decide)
    exact Function.update_of_ne different _ frame.locals
  close := Function.update_self "close" _ frame.locals

end Frame

/-! ## Instructions -/

section

variable
  {here : Surroundings}
  {globals : String -> Option Value}
  {calls : Calls}

variable (here) in
theorem eval_close
    {frame : Frame}
    {declared : List IndicatorSeries}
    {close : ℚ}
    (prepared : frame.Prepared globals declared close) :
    eval here (frame.scope globals) (term Backtest.close) = some (.number (.number close)) := by
  refine (eval_name "close").trans ?_
  rw [Scope.value?]
  change (frame.locals "close" <|> globals "close") = _
  rw [prepared.close]
  rfl

variable (here calls) in
/-- A block for an open position is carried out where there is one. -/
theorem perform_position
    {frame : Frame}
    {declared : List IndicatorSeries}
    (ready : (frame.scope globals).Ready declared)
    (body : List Instruction) :
    perform here globals calls (.conditional (term Backtest.position) body) frame =
      if here.holding then performAll here globals calls body frame else some (frame, false) := by
  rw [perform, eval_position here ready]
  rfl

variable (calls) in
theorem perform_assign_name
    (identifier : String)
    {value : Code}
    {frame : Frame}
    {result : Value}
    (isValue : eval here (frame.scope globals) (term value) = some result) :
    perform here globals calls (.assign (.name identifier) (term value)) frame =
      some (frame.setVariable identifier result, false) := by
  rw [perform, assign, isValue]
  rfl

/-- A value that declares no indicator is assigned to an attribute. -/
theorem perform_assign_own
    {field : String}
    {value : Code}
    {frame : Frame}
    {result : Value}
    (isSelf : (frame.scope globals).value? "self" = some .self)
    (notDeclared : declares (term value) = false)
    (isValue : eval here (frame.scope globals) (term value) = some result) :
    perform here globals calls (.assign (term (Code.own field)) (term value)) frame =
      some (frame.setAttribute field result, false) := by
  rw [perform, term_own, assign, eval_name, isSelf, isValue, notDeclared]
  rfl

/-- What closes the position ends the bar and resets the state. -/
theorem performAll_closing
    {strategy : Strategy}
    {declared : List IndicatorSeries}
    {frame : Frame}
    (ready : (frame.scope globals).Ready declared)
    (flat : ∀ attributes,
      calls "_flat" [] attributes = some (resetAttributes strategy .none attributes))
    (remark : Option String) :
    performAll here globals calls (allInstructions remark Backtest.closing) frame =
      some (frame.closed strategy remark, true) := by
  have closes : perform here globals calls
      (.evaluate remark (term (.call (.attribute Backtest.position "close") []))) frame =
        some (frame.addEffect .close remark, false) := by
    have isPosition := eval_position here ready
    change (evaluate here globals calls remark
      (.call (.attribute (term Backtest.position) "close") []) frame).map _ = _
    rw [evaluate, isPosition]
    rfl
  have resets : perform here globals calls
      (.evaluate remark (term (.call (Code.own "_flat") []))) (frame.addEffect .close remark) =
        some (frame.closed strategy remark, false) := by
    have isSelf : eval here ((frame.addEffect .close remark).scope globals) (.name "self") =
        some .self := (eval_name "self").trans ready.self
    change (evaluate here globals calls remark
      (.call (.attribute (.name "self") "_flat") []) (frame.addEffect .close remark)).map _ = _
    rw [evaluate, isSelf]
    change (Option.map _ ((calls "_flat" [] frame.attributes).bind _)) = _
    rw [flat]
    rfl
  exact (performAll_of_stays closes _).trans ((performAll_of_stays resets _).trans rfl)

/-- A condition closes the position exactly when it is true. -/
theorem performAll_closingIf
    {strategy : Strategy}
    {declared : List IndicatorSeries}
    {frame : Frame}
    (ready : (frame.scope globals).Ready declared)
    (flat : ∀ attributes,
      calls "_flat" [] attributes = some (resetAttributes strategy .none attributes))
    {condition : Code}
    {holds : Bool}
    (isTruth : eval here (frame.scope globals) (term condition) = some (.truth holds))
    (remark : Option String) :
    performAll here globals calls
        (allInstructions remark [.conditional condition Backtest.closing]) frame =
      if holds then some (frame.closed strategy remark, true) else some (frame, false) := by
  change performAll here globals calls
    [.conditional (term condition) (allInstructions remark Backtest.closing)] frame = _
  rw [performAll_singleton, perform_conditional isTruth, performAll_closing ready flat]

end

end Python
end StrategyGraph
