import StrategyGraph.Command.Execution
import StrategyGraph.Command.FileStore
import StrategyGraph.Proofs.Compile.Meaning
import StrategyGraph.Proofs.Compile.Totality

/-!
# What is accepted

A graph compiles unless it is refused by validation, its configuration by the check of
the settings, or its warnings by a strict configuration; there is no other way to fail.
On the command line this means that checking graphs and compiling them without a
configuration end alike, whatever the files hold.
-/

namespace StrategyGraph

/-! ## Compilation -/

namespace ValidGraph

/-- Once the settings are accepted, a valid graph compiles unless its warnings are
promoted to errors. -/
theorem compile_eq_of_check
    (valid : ValidGraph)
    {configuration : Configuration}
    {compilation : Compilation}
    (checked : configuration.check = .ok ())
    (compiled : valid.compileLenient configuration = .ok compilation) :
    valid.compile configuration =
      if configuration.strict = true ∧ compilation.warnings ≠ [] then
        .error (.warningsAsErrors compilation.warnings)
      else .ok compilation := by
  rw [compile, checked, compiled]
  simp [List.isEmpty_eq_false_iff]

end ValidGraph

namespace Graph

/-- The compiler takes exactly the graphs that validation takes, when it has no
configuration to refuse. -/
theorem exists_compile_default_iff (graph : Graph) :
    (∃ compilation, graph.compile .default = .ok compilation) ↔
      ∃ valid, graph.validate = .ok valid := by
  unfold compile
  cases graph.validate with
  | error error => simp
  | ok valid =>
      have checked : Configuration.default.check = .ok () := by decide +kernel
      obtain ⟨compilation, compiled⟩ := valid.exists_compileLenient .default
      refine iff_of_true ⟨compilation, ?_⟩ ⟨valid, rfl⟩
      dsimp only
      rw [valid.compile_eq_of_check checked compiled]
      exact if_neg fun promoted => Bool.false_ne_true promoted.1

end Graph

namespace Command

/-! ## Procedures -/

instance : LawfulMonad Procedure := by
  refine LawfulMonad.mk' Procedure ?_ (fun _ _ => rfl) ?_
  · intro Value procedure
    change procedure.bind (fun value => .done value) = procedure
    induction procedure with
    | done value => rfl
    | act effect next hypothesis => exact congrArg (Procedure.act effect) hypothesis
    | read path next hypothesis => exact congrArg (Procedure.read path) (funext hypothesis)
  · intro Value Middle Next procedure further last
    change (procedure.bind further).bind last =
      procedure.bind fun value => (further value).bind last
    induction procedure with
    | done value => rfl
    | act effect next hypothesis => exact congrArg (Procedure.act effect) hypothesis
    | read path next hypothesis => exact congrArg (Procedure.read path) (funext hypothesis)

/-- An action that reads one file and ends with an outcome of what the file holds. -/
def Loads
    (action : Action Value)
    (path : Path)
    (outcome : Except SystemError ByteArray -> Except Failure Value) : Prop :=
  action.run = .read path fun content => .done (outcome content)

namespace Loads

variable
  {action : Action Value}
  {path : Path}
  {outcome : Except SystemError ByteArray -> Except Failure Value}

/-- Going on without further effects changes the outcome alone. -/
theorem bind
    (loads : Loads action path outcome)
    {next : Value -> Action Next}
    {result : Value -> Except Failure Next}
    (ends : ∀ value, (next value).run = .done (result value)) :
    Loads (action >>= next) path fun content => outcome content >>= result := by
  change Procedure.bind action.run (ExceptT.bindCont next) =
    .read path fun content => .done (outcome content >>= result)
  rw [loads]
  refine congrArg (Procedure.read path) (funext fun content => ?_)
  change ExceptT.bindCont next (outcome content) = .done (outcome content >>= result)
  cases outcome content with
  | ok value => exact ends value
  | error failure => rfl

theorem within (loads : Loads action path outcome) (context : String) :
    Loads (action.within context) path fun content =>
      (outcome content).mapError fun failure => failure.within context := by
  change Procedure.bind action.run (fun outcome =>
      Procedure.done (outcome.mapError fun failure => failure.within context)) = _
  rw [loads]
  rfl

end Loads

/-- A text file is loaded by reading it. -/
theorem loads_readText (describe : SystemError -> Failure) (path : Path) :
    Loads (readText describe path) path fun content =>
      content.mapError describe >>= fun bytes => (textOf bytes).mapError describe := by
  have bytes : Loads (Action.readFile describe path) path
      fun content => content.mapError describe := rfl
  exact bytes.bind fun _ => rfl

/-- A graph from the text of a file. -/
def graphOf (path : Path) (text : String) : Except Failure Graph :=
  match Graph.ofJson? .stepwise text with
  | some graph => .ok graph
  | none => .error ((Failure.plain "not a graph").within ("parsing graph " ++ path))

/-- A graph from what a file holds. -/
def graphIn (path : Path) (content : Except SystemError ByteArray) : Except Failure Graph := do
  let text <-
    (content.mapError SystemError.failure >>= fun bytes =>
      (textOf bytes).mapError SystemError.failure).mapError fun failure =>
        failure.within ("reading graph " ++ path)
  graphOf path text

theorem loads_loadGraph (path : Path) : Loads (loadGraph path) path (graphIn path) := by
  have text := (loads_readText SystemError.failure path).within ("reading graph " ++ path)
  have ends : ∀ text, ExceptT.run (match Graph.ofJson? .stepwise text with
      | some graph => (return graph : Action Graph)
      | none => Action.fail
          ((Failure.plain "not a graph").within ("parsing graph " ++ path))) =
        Procedure.done (graphOf path text) := by
    intro text
    rw [graphOf]
    split <;> rfl
  exact text.bind ends

/-- Validating a graph file and compiling it without a configuration succeed alike,
whatever the file holds. -/
theorem exists_loads_alike (path : Path) :
    ∃ validated compiled,
      Loads (loadValid path) path validated ∧
        Loads (loadCompilation .default path) path compiled ∧
        ∀ content, (validated content).isOk = (compiled content).isOk := by
  have loads := loads_loadGraph path
  refine ⟨_, _, loads.bind fun _ => rfl, loads.bind fun _ => rfl, fun content => ?_⟩
  cases graphIn path content with
  | error failure => rfl
  | ok graph =>
      have alike := graph.exists_compile_default_iff
      change (Except.mapError _ (graph.validate.mapError _)).isOk =
        (Except.mapError _ ((graph.compile .default).mapError _)).isOk
      cases validated : graph.validate with
      | ok valid =>
          obtain ⟨compilation, compiled⟩ := alike.2 ⟨valid, validated⟩
          rw [compiled]
          rfl
      | error error =>
          have refused : graph.compile .default = .error (.graph error) := by
            rw [Graph.compile, validated]
          rw [refused]
          rfl

/-! ## Runs -/

/-- Whether an effect prints and does nothing else. -/
def Effect.Prints : Effect -> Prop
  | .print _ | .report _ => True
  | .createDirectories _ | .write _ _ => False

/-- No failure is counted exactly when every outcome is a success. -/
theorem countFailures_eq_zero_iff {outcomes : List (Path × Except Failure Value)} :
    countFailures outcomes = 0 ↔ ∀ outcome ∈ outcomes, outcome.2.isOk = true := by
  rw [countFailures, List.countP_eq_zero]
  refine forall₂_congr fun outcome _ => ?_
  cases outcome.2 <;> simp [Except.isOk, Except.toBool]

theorem prints_compileEffects (outcome : Path × Except Failure Compilation) :
    ∀ effect ∈ compileEffects none outcome, effect.Prints := by
  intro effect member
  rw [compileEffects] at member
  split at member
  next => exact List.mem_singleton.1 member ▸ trivial
  next =>
    rcases List.mem_append.1 member with warns | delivers
    · obtain ⟨warning, _, rfl⟩ := List.mem_map.1 warns
      trivial
    · exact List.mem_singleton.1 delivers ▸ trivial

theorem prints_checkEffect (outcome : Path × Except Failure ValidGraph) :
    (checkEffect outcome).Prints := by
  rw [checkEffect]
  split <;> trivial

namespace Machine

/-- What a machine finds in a file. -/
def content (machine : Machine) (path : Path) : Except SystemError ByteArray :=
  (machine.store.read path).map String.toUTF8

/-- An action ends well if its run does. -/
theorem execute_eq (machine : Machine) (action : Action Unit) :
    (machine.execute action).2 = (machine.run action.run).2.isOk := by
  rw [execute]
  split
  next ended => rw [ended]; rfl
  next ended => rw [ended]; rfl

/-- A run that loads a file goes on with what the file holds, or ends there. -/
theorem run_bind_of_loads
    {action : Action Value}
    {path : Path}
    {outcome : Except SystemError ByteArray -> Except Failure Value}
    (loads : Loads action path outcome)
    (machine : Machine)
    (further : Value -> Action Unit) :
    machine.run (action >>= further).run =
      match outcome (machine.content path) with
      | .ok value => machine.run (further value).run
      | .error failure => (machine, .error failure) := by
  change machine.run (Procedure.bind action.run (ExceptT.bindCont further)) = _
  rw [loads]
  change machine.run (ExceptT.bindCont further (outcome (machine.content path))) = _
  cases outcome (machine.content path) <;> rfl

/-- An attempt to load a file reads it and leaves the machine as it is. -/
theorem run_attempt
    {action : Action Value}
    {path : Path}
    {outcome : Except SystemError ByteArray -> Except Failure Value}
    (loads : Loads action path outcome)
    (machine : Machine)
    (further : Except Failure Value -> Action Unit) :
    machine.run (action.attempt >>= further).run =
      machine.run (further (outcome (machine.content path))).run := by
  have attempts : Loads action.attempt path fun content => Except.ok (outcome content) := by
    change Procedure.bind action.run (fun outcome => Procedure.done (Except.ok outcome)) =
      .read path fun content => .done (Except.ok (outcome content))
    rw [loads]
    rfl
  exact run_bind_of_loads attempts machine further

/-- So do attempts to load several files, one after the other. -/
theorem run_attemptEach
    {load : Path -> Action Value}
    {outcome : Path -> Except SystemError ByteArray -> Except Failure Value}
    (loads : ∀ path, Loads (load path) path (outcome path))
    (machine : Machine)
    (graphs : List Path)
    (further : List (Path × Except Failure Value) -> Action Unit) :
    machine.run (attemptEach load graphs >>= further).run =
      machine.run
        (further
          (graphs.map fun path => (path, outcome path (machine.content path)))).run := by
  induction graphs generalizing further with
  | nil => rfl
  | cons path graphs hypothesis =>
      rw [attemptEach, List.mapM_cons]
      simp only [bind_assoc, pure_bind]
      rw [run_attempt (loads path)]
      exact hypothesis fun outcomes =>
        further ((path, outcome path (machine.content path)) :: outcomes)

/-- Printing does not keep an action from going on. -/
theorem run_performAll
    {effects : List Effect}
    (prints : ∀ effect ∈ effects, effect.Prints)
    (machine : Machine)
    (further : Unit -> Action Unit) :
    ∃ changed : Machine,
      machine.run (Action.performAll effects >>= further).run =
        changed.run (further ()).run := by
  induction effects generalizing machine with
  | nil => exact ⟨machine, rfl⟩
  | cons effect effects hypothesis =>
      have printed : ∃ changed, machine.perform effect = .ok changed := by
        have one := prints effect List.mem_cons_self
        cases effect with
        | print text => exact ⟨_, rfl⟩
        | report text => exact ⟨_, rfl⟩
        | createDirectories path => exact one.elim
        | write path content => exact one.elim
      obtain ⟨between, performed⟩ := printed
      obtain ⟨changed, ran⟩ := hypothesis
        (fun other member => prints other (List.mem_cons_of_mem effect member)) between
      refine ⟨changed, ?_⟩
      rw [← ran]
      change machine.run
        ((Action.perform effect >>= fun _ => Action.performAll effects) >>= further).run = _
      rw [bind_assoc]
      change machine.run (.act effect (Action.performAll effects >>= further).run) = _
      rw [run, performed]

theorem isOk_run_conclude (machine : Machine) (failed total : Nat) (verdict : String) :
    (machine.run (conclude failed total verdict).run).2.isOk = true ↔ failed = 0 := by
  rw [conclude]
  split
  next none => exact iff_of_true rfl none
  next some => exact iff_of_false Bool.false_ne_true some

/-- A command that loads several graphs and prints what comes of them ends well exactly
when all of them are loaded. -/
theorem execute_loading
    {load : Path -> Action Value}
    {outcome : Path -> Except SystemError ByteArray -> Except Failure Value}
    (loads : ∀ path, Loads (load path) path (outcome path))
    (shown : List (Path × Except Failure Value) -> List Effect)
    (prints : ∀ outcomes, ∀ effect ∈ shown outcomes, effect.Prints)
    (machine : Machine)
    (graphs : List Path)
    (verdict : String) :
    (machine.execute do
      let outcomes <- attemptEach load graphs
      Action.performAll (shown outcomes)
      conclude (countFailures outcomes) graphs.length verdict).2 = true ↔
      ∀ path ∈ graphs, (outcome path (machine.content path)).isOk = true := by
  rw [execute_eq, run_attemptEach loads]
  obtain ⟨changed, ran⟩ := machine.run_performAll
    (prints (graphs.map fun path => (path, outcome path (machine.content path))))
    fun _ => conclude
      (countFailures (graphs.map fun path => (path, outcome path (machine.content path))))
      graphs.length verdict
  rw [ran, isOk_run_conclude, countFailures_eq_zero_iff, List.forall_mem_map]

/-- Without a configuration, compiling graphs ends well exactly when checking them
does. -/
theorem execute_check_eq_execute_compile (machine : Machine) (graphs : List Path) :
    (machine.execute (Invocation.check graphs).action).2 =
      (machine.execute (Invocation.compile graphs none none).action).2 := by
  choose validated compiled loadsValid loadsCompiled alike using exists_loads_alike
  have checks := machine.execute_loading loadsValid
    (fun outcomes => outcomes.map checkEffect)
    (fun outcomes effect member => by
      obtain ⟨outcome, _, rfl⟩ := List.mem_map.1 member
      exact prints_checkEffect outcome)
    graphs "invalid"
  have compiles := machine.execute_loading loadsCompiled
    (fun outcomes => outcomes.flatMap (compileEffects none))
    (fun outcomes effect member => by
      obtain ⟨outcome, _, inside⟩ := List.mem_flatMap.1 member
      exact prints_compileEffects outcome effect inside)
    graphs "failed to compile"
  rw [Bool.eq_iff_iff]
  refine checks.trans (Iff.trans ?_ compiles.symm)
  exact forall₂_congr fun path _ => by rw [alike path]

end Machine
end Command

namespace Graph

/-- Compilation is total. A graph that is refused by validation fails with what
validation says. For any other graph the settings are checked first; then every
indicator node has its parameters completed and every action its rule, so nothing is
left to fail but a strict configuration with something to warn about. Without a
configuration the compiler takes exactly the valid graphs, and so do the commands. -/
theorem compile_total (graph : Graph) (configuration : Configuration) :
    (∀ error, graph.validate = .error error ->
      graph.compile configuration = .error (.graph error)) ∧
    (∀ valid, graph.validate = .ok valid ->
      (∀ error, configuration.check = .error error ->
        graph.compile configuration = .error (.configuration error)) ∧
      (∀ node ∈ graph.nodes, ∀ line given condition,
        node.kind = .condition (.indicator line given) condition ->
        line.resolve given (configuration.overrides line) =
          .ok {
            series := line.complete given (configuration.overrides line)
            defaulted := line.defaulted given (configuration.overrides line)
            unknown := line.unknown given }) ∧
      ∃ compilation, valid.compileLenient configuration = .ok compilation ∧
        (configuration.check = .ok () ->
          graph.compile configuration =
            if configuration.strict = true ∧ compilation.warnings ≠ [] then
              .error (.warningsAsErrors compilation.warnings)
            else .ok compilation)) ∧
    ((∃ valid, graph.validate = .ok valid) ↔
      ∃ compilation, graph.compile .default = .ok compilation) ∧
    ∀ (machine : Command.Machine) (graphs : List Path),
      (machine.execute (Command.Invocation.check graphs).action).2 =
        (machine.execute (Command.Invocation.compile graphs none none).action).2 := by
  refine ⟨fun error refused => ?_, fun valid validated => ⟨fun error refused => ?_, ?_, ?_⟩,
    graph.exists_compile_default_iff.symm, Command.Machine.execute_check_eq_execute_compile⟩
  · rw [compile, refused]
  · rw [compile, validated]
    dsimp only
    rw [ValidGraph.compile, refused]
  · intro node member line given condition kind
    have wellFormed : graph.WellFormed :=
      validate_eq_ok_iff.1 validated ▸ wellFormed_of_check valid.checked
    exact wellFormed.resolve_eq configuration member kind
  · obtain ⟨compilation, compiled⟩ := valid.exists_compileLenient configuration
    refine ⟨compilation, compiled, fun checked => ?_⟩
    rw [compile, validated]
    exact valid.compile_eq_of_check checked compiled

/-- The default settings with warnings promoted to errors. -/
def strictConfiguration : Configuration := { Configuration.default with strict := true }

theorem compile_total_crossing :
    crossing.compile strictConfiguration =
        .error (.warningsAsErrors [.unreachableNode "idle"]) ∧
      ∃ compilation, crossing.compile .default = .ok compilation := by
  have validated : crossing.validate = .ok ⟨crossing, _, check_crossing⟩ :=
    validate_eq_ok_iff.2 rfl
  have checked : strictConfiguration.check = .ok () := by
    decide +kernel
  have lenient : ∃ strategy,
      ValidGraph.compileLenient ⟨crossing, _, check_crossing⟩ strictConfiguration =
        .ok ⟨strategy, [.unreachableNode "idle"]⟩ :=
    ⟨_, by cbv⟩
  obtain ⟨_, accepted, alike, _⟩ := crossing.compile_total strictConfiguration
  obtain ⟨_, _, compilation, compiled, strict⟩ := accepted _ validated
  obtain ⟨strategy, computed⟩ := lenient
  cases computed.symm.trans compiled
  exact ⟨strict checked, alike.1 ⟨_, validated⟩⟩

end Graph
end StrategyGraph
