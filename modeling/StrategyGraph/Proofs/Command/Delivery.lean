import StrategyGraph.Proofs.Command.Acceptance
import StrategyGraph.Proofs.Command.FileStore

/-!
# What compiling several graphs leaves behind

A run that compiles graphs into a directory and is not broken off ends with the artifact of
each graph that compiles, under the stem of its path, unless a graph behind it has the same
stem. All other files are as they were.

Two things are therefore not promised: graphs with one stem share one artifact, and a file of
the directory that has the name of an artifact is lost, be it one of the graphs.
-/

namespace StrategyGraph
namespace Command

open Outcome

/-! ## Loading -/

/-- A file of a store has a graph that compiles with some settings. -/
def Compiles
    (settings : Configuration)
    (store : FileStore)
    (path : Path)
    (compilation : Compilation) : Prop :=
  ∃ text graph, store.read path = .ok text ∧ Graph.ofJson? .stepwise text = some graph ∧
    graph.compile settings = .ok compilation

theorem textOf_toUTF8 (text : String) : textOf text.toUTF8 = .ok text := by
  have valid : text.toUTF8.IsValidUTF8 := text.isValidUTF8
  rw [textOf, String.fromUTF8?, dif_pos valid]
  rfl

theorem graphIn_eq_ok_iff {machine : Machine} {path : Path} {graph : Graph} :
    graphIn path (machine.content path) = .ok graph ↔
      ∃ text, machine.store.read path = .ok text ∧
        Graph.ofJson? .stepwise text = some graph := by
  rw [graphIn, Machine.content, bind_eq_ok_iff]
  refine exists_congr fun text => and_congr ?_ ?_
  · cases machine.store.read path with
    | error error =>
        refine iff_of_false (fun impossible => ?_) fun impossible => ?_
        · cases impossible
        · cases impossible
    | ok found =>
        rw [mapError_eq_ok_iff]
        change (textOf found.toUTF8).mapError SystemError.failure = .ok text ↔ _
        rw [mapError_eq_ok_iff, textOf_toUTF8]
  · rw [graphOf]
    cases Graph.ofJson? .stepwise text <;> simp

/-- A graph is loaded for compilation by reading its file. -/
theorem exists_loads_loadCompilation (settings : Configuration) (path : Path) :
    ∃ outcome, Loads (loadCompilation settings path) path outcome ∧
      ∀ (machine : Machine) (compilation : Compilation),
        outcome (machine.content path) = .ok compilation ↔
          Compiles settings machine.store path compilation := by
  refine ⟨_, (loads_loadGraph path).bind fun _ => rfl, fun machine compilation => ?_⟩
  rw [bind_eq_ok_iff]
  constructor
  · rintro ⟨graph, isGraph, compiled⟩
    obtain ⟨text, isRead, parsed⟩ := graphIn_eq_ok_iff.1 isGraph
    exact ⟨text, graph, isRead, parsed, mapError_eq_ok_iff.1 (mapError_eq_ok_iff.1 compiled)⟩
  · rintro ⟨text, graph, isRead, parsed, compiled⟩
    exact ⟨graph, graphIn_eq_ok_iff.2 ⟨text, isRead, parsed⟩,
      mapError_eq_ok_iff.2 (mapError_eq_ok_iff.2 compiled)⟩

/-! ## Runs that are not broken off -/

/-- An outcome is that of a command itself and not of something it could not do, which would
be the cause of the failure. -/
def Unbroken (outcome : Except Failure Unit) : Prop :=
  ∀ failure, outcome = .error failure -> failure.causes = []

theorem not_unbroken_within (failure : Failure) (context : String) :
    ¬ Unbroken (.error (failure.within context)) :=
  fun unbroken => List.cons_ne_nil _ _ (unbroken _ rfl)

/-- Settings are loaded by reading their file. -/
theorem exists_loads_loadConfiguration (path : Path) :
    ∃ result, Loads (loadConfiguration (some path)) path result ∧
      ∀ content failure, result content = .error failure -> ¬ Unbroken (.error failure) := by
  have text := loads_readText (fun error =>
    error.failure.within ("failed to read config " ++ path ++ ": " ++ error.text)) path
  have settings : ∀ text, (Action.ofExcept (configurationOf text)).run =
      .done (configurationOf text) := fun _ => rfl
  refine ⟨_, (text.bind settings).within ("loading config " ++ path), ?_⟩
  intro content failure failed
  obtain ⟨cause, _, rfl⟩ := mapError_eq_error_iff.1 failed
  exact not_unbroken_within cause _

namespace Machine

variable {machine final : Machine} {outcome : Except Failure Unit}

theorem run_of_loads
    {action : Action Value}
    {path : Path}
    {result : Except SystemError ByteArray -> Except Failure Value}
    (loads : Loads action path result) :
    machine.run action.run = (machine, result (machine.content path)) := by
  rw [loads]
  rfl

/-- A run goes on with the settings that it loads. -/
theorem exists_settings
    {configuration : Option Path}
    {further : Configuration -> Action Unit}
    (ran : machine.run (loadConfiguration configuration >>= further).run = (final, outcome))
    (unbroken : Unbroken outcome) :
    ∃ settings, machine.run (loadConfiguration configuration).run = (machine, .ok settings) ∧
      machine.run (further settings).run = (final, outcome) := by
  cases configuration with
  | none => exact ⟨.default, rfl, ran⟩
  | some path =>
      obtain ⟨result, loads, broken⟩ := exists_loads_loadConfiguration path
      rw [run_bind_of_loads loads] at ran
      rw [run_of_loads loads]
      cases loaded : result (machine.content path) with
      | ok settings =>
          rw [loaded] at ran
          exact ⟨settings, rfl, ran⟩
      | error failure =>
          rw [loaded] at ran
          exact absurd ((Prod.mk.inj ran).2 ▸ unbroken) (broken _ failure loaded)

/-- A run goes on from what its effects have changed. -/
theorem exists_performed
    {effects : List Effect}
    {further : Unit -> Action Unit}
    (ran : machine.run (Action.performAll effects >>= further).run = (final, outcome))
    (unbroken : Unbroken outcome) :
    ∃ changed, effects.foldlM perform machine = .ok changed ∧
      changed.run (further ()).run = (final, outcome) := by
  induction effects generalizing machine with
  | nil => exact ⟨machine, rfl, ran⟩
  | cons effect effects hypothesis =>
      change machine.run
        ((Action.perform effect >>= fun _ => Action.performAll effects) >>= further).run = _ at ran
      rw [bind_assoc] at ran
      change machine.run (.act effect (Action.performAll effects >>= further).run) = _ at ran
      rw [run] at ran
      split at ran
      next between performed =>
        obtain ⟨changed, rest, ended⟩ := hypothesis ran
        exact ⟨changed, bind_eq_ok_iff.2 ⟨between, performed, rest⟩, ended⟩
      next error _ =>
        exact absurd ((Prod.mk.inj ran).2 ▸ unbroken) (not_unbroken_within _ _)

end Machine

/-! ## Delivering -/

/-- Name and text of what is delivered for a graph, if it compiles. -/
def delivery? (outcome : Path × Except Failure Compilation) : Option (String × String) :=
  outcome.2.toOption.map fun compilation =>
    ((outcome.1.stem?.getD (Strategy.shortDigest compilation.strategy.fingerprint)) ++ ".json",
      artifact compilation)

/-- What is delivered for several graphs, in their order. -/
def deliveries (result : Path -> Except Failure Compilation) (graphs : List Path) :
    List (String × String) :=
  (graphs.map fun path => (path, result path)).filterMap delivery?

namespace Machine

variable {machine changed : Machine}

/-- Printing leaves the files alone. -/
theorem store_of_prints
    {effects : List Effect}
    (prints : ∀ effect ∈ effects, effect.Prints)
    (performed : effects.foldlM perform machine = .ok changed) :
    changed.store = machine.store := by
  induction effects generalizing machine with
  | nil => exact congrArg Machine.store (Except.ok.inj performed).symm
  | cons effect effects hypothesis =>
      rw [List.forall_mem_cons] at prints
      obtain ⟨between, isFirst, rest⟩ := bind_eq_ok_iff.1 performed
      rw [hypothesis prints.2 rest]
      cases effect with
      | print text | report text =>
          obtain rfl := Except.ok.inj isFirst
          rfl
      | createDirectories path => exact prints.1.elim
      | write path content => exact prints.1.elim

/-- What comes of a graph writes its artifact if it compiles, and nothing else. -/
theorem write_of_compileEffects
    {directory : Path}
    {outcome : Path × Except Failure Compilation}
    (performed : (compileEffects (some directory) outcome).foldlM perform machine = .ok changed) :
    machine.store.writeAll directory (delivery? outcome).toList = .ok changed.store := by
  obtain ⟨path, result⟩ := outcome
  cases result with
  | error failure =>
      rw [store_of_prints (prints_compileEffects (path, .error failure)) performed]
      rfl
  | ok compilation =>
      -- Warnings come first and the place is told last; only the write between them changes files.
      rw [compileEffects] at performed
      dsimp only at performed
      rw [List.foldlM_append] at performed
      obtain ⟨warned, warns, delivers⟩ := bind_eq_ok_iff.1 performed
      obtain ⟨written, writes, prints⟩ := bind_eq_ok_iff.1 delivers
      have sameStore : warned.store = machine.store := by
        refine store_of_prints (fun effect member => ?_) warns
        obtain ⟨warning, _, rfl⟩ := List.mem_map.1 member
        trivial
      have finalStore : changed.store = written.store := by
        refine store_of_prints (fun effect member => ?_) prints
        obtain rfl := List.mem_singleton.1 member
        trivial
      rw [finalStore, ← sameStore]
      change (warned.store.write (artifactPath directory path compilation.strategy.fingerprint)
        (artifact compilation)).map _ = .ok written at writes
      change (warned.store.write (artifactPath directory path compilation.strategy.fingerprint)
        (artifact compilation) >>= pure) = _
      rw [bind_pure]
      obtain ⟨store, isStore, rfl⟩ := map_eq_ok_iff.1 writes
      exact isStore

/-- What comes of several graphs writes the artifacts of those that compile, in order. -/
theorem writeAll_of_compileEffects
    {directory : Path}
    {outcomes : List (Path × Except Failure Compilation)}
    (performed :
      (outcomes.flatMap (compileEffects (some directory))).foldlM perform machine = .ok changed) :
    machine.store.writeAll directory (outcomes.filterMap delivery?) = .ok changed.store := by
  induction outcomes generalizing machine with
  | nil => exact congrArg (Except.ok ∘ Machine.store) (Except.ok.inj performed)
  | cons outcome outcomes hypothesis =>
      rw [List.flatMap_cons, List.foldlM_append] at performed
      obtain ⟨between, isFirst, rest⟩ := bind_eq_ok_iff.1 performed
      have split : (outcome :: outcomes).filterMap delivery? =
          (delivery? outcome).toList ++ outcomes.filterMap delivery? := by
        rw [List.filterMap_cons]
        cases delivery? outcome <;> rfl
      rw [split, FileStore.writeAll, List.foldlM_append]
      exact bind_eq_ok_iff.2 ⟨between.store, write_of_compileEffects isFirst, hypothesis rest⟩

/-- A command ends without changing anything, and well if nothing has failed. -/
theorem eq_of_run_conclude
    {final : Machine}
    {outcome : Except Failure Unit}
    {failed total : Nat}
    {verdict : String}
    (ran : machine.run (conclude failed total verdict).run = (final, outcome)) :
    final = machine ∧ (outcome.isOk = true ↔ failed = 0) := by
  have ended := isOk_run_conclude machine failed total verdict
  rw [ran] at ended
  refine ⟨?_, ended⟩
  rw [conclude] at ran
  split at ran
  next => exact (Prod.mk.inj ran).1.symm
  next => exact (Prod.mk.inj ran).1.symm

/-- A run that is not broken off loads the settings, makes the directory, loads the graphs and
writes the artifacts of those that compile. -/
theorem exists_delivered
    {final : Machine}
    {graphs : List Path}
    {configuration : Option Path}
    {directory : Path}
    {outcome : Except Failure Unit}
    (ran : machine.run (compileGraphs graphs configuration (some directory)).run = (final, outcome))
    (unbroken : Unbroken outcome) :
    ∃ settings made, machine.run (loadConfiguration configuration).run = (machine, .ok settings) ∧
      machine.store.createDirectories directory = .ok made ∧
      ∃ result : Path -> Except Failure Compilation,
        (∀ path compilation, result path = .ok compilation ↔
          Compiles settings made path compilation) ∧
        made.writeAll directory (deliveries result graphs) = .ok final.store ∧
        (outcome.isOk = true ↔
          ∀ path ∈ graphs, ∃ compilation, Compiles settings made path compilation) := by
  obtain ⟨settings, loaded, ran⟩ := exists_settings ran unbroken
  obtain ⟨prepared, makes, ran⟩ := exists_performed ran unbroken
  obtain ⟨_, isMade, same⟩ := bind_eq_ok_iff.1 makes
  obtain rfl := Except.ok.inj same
  obtain ⟨made, created, rfl⟩ := map_eq_ok_iff.1 isMade
  choose result loads compiles using exists_loads_loadCompilation settings
  rw [run_attemptEach loads] at ran
  obtain ⟨delivered, delivers, ran⟩ := exists_performed ran unbroken
  obtain ⟨same, ended⟩ := eq_of_run_conclude ran
  refine ⟨settings, made, loaded, created, _,
    fun path => compiles path { machine with store := made }, ?_, ?_⟩
  · exact same ▸ writeAll_of_compileEffects delivers
  · rw [ended, countFailures_eq_zero_iff, List.forall_mem_map]
    refine forall₂_congr fun path _ => isOk_eq_true_iff.trans (exists_congr fun compilation => ?_)
    exact compiles path { machine with store := made } compilation

end Machine

/-! ## Artifacts -/

/-- The place of the artifact of a graph in a directory. -/
def ArtifactPlace (store : FileStore) (directory graph : Path) (place : Place) : Prop :=
  ∃ home stem, store.directory? directory = .ok home ∧ graph.stem? = some stem ∧
    place = home ++ [stem ++ ".json"]

/-- Artifacts of two graphs have one place only if the graphs have one stem. -/
theorem ArtifactPlace.stem_eq
    {store : FileStore}
    {directory first second : Path}
    {place : Place}
    (isFirst : ArtifactPlace store directory first place)
    (isSecond : ArtifactPlace store directory second place) :
    first.stem? = second.stem? := by
  obtain ⟨home, stem, found, isStem, rfl⟩ := isFirst
  obtain ⟨homeToo, stemToo, foundToo, isStemToo, same⟩ := isSecond
  have names := (List.append_singleton_inj.1 same).2
  rw [isStem, isStemToo, (String.append_left_inj _).1 names]

/-- The name of an artifact can be written to a directory. -/
theorem isPlain_artifactName {path : Path} {stem : String} (isStem : path.stem? = some stem) :
    Path.IsPlain (stem ++ ".json") ∧ stem ++ ".json" ≠ "null" := by
  refine ⟨Path.isPlain_of_stem isStem (by decide) (by decide), fun same => ?_⟩
  have length := congrArg String.length same
  rw [String.length_append] at length
  have extension : ".json".length = 5 := rfl
  have null : "null".length = 4 := rfl
  omega

section

variable {settings : Configuration} {store : FileStore} {path : Path} {graphs : List Path}
  {result : Path -> Except Failure Compilation}

/-- What is delivered for a graph is its artifact under its stem. -/
theorem delivery_eq_some_iff
    (isResult : ∀ path compilation,
      result path = .ok compilation ↔ Compiles settings store path compilation)
    {text : String × String} :
    delivery? (path, result path) = some text ↔
      ∃ compilation stem, Compiles settings store path compilation ∧ path.stem? = some stem ∧
        text = (stem ++ ".json", artifact compilation) := by
  rw [delivery?, Option.map_eq_some_iff]
  refine exists_congr fun compilation => ?_
  rw [toOption_eq_some_iff, isResult]
  constructor
  · rintro ⟨compiles, rfl⟩
    obtain ⟨text, graph, isRead, compiled⟩ := compiles
    obtain ⟨stem, isStem⟩ := FileStore.exists_stem_of_read isRead
    rw [isStem]
    exact ⟨stem, ⟨text, graph, isRead, compiled⟩, rfl, rfl⟩
  · rintro ⟨stem, compiles, isStem, rfl⟩
    rw [isStem]
    exact ⟨compiles, rfl⟩

/-- Among what is delivered for several graphs is what is delivered for one of them. -/
theorem deliveries_append_cons
    {before after : List Path}
    {text : String × String}
    (delivered : delivery? (path, result path) = some text) :
    deliveries result (before ++ path :: after) =
      deliveries result before ++ text :: deliveries result after := by
  rw [deliveries, List.map_append, List.filterMap_append, List.map_cons,
    List.filterMap_cons_some delivered]
  rfl

/-- The texts that are delivered are the artifacts of the graphs that compile. -/
theorem mem_deliveries_iff
    (isResult : ∀ path compilation,
      result path = .ok compilation ↔ Compiles settings store path compilation)
    {text : String × String} :
    text ∈ deliveries result graphs ↔
      ∃ path ∈ graphs, ∃ compilation stem, Compiles settings store path compilation ∧
        path.stem? = some stem ∧ text = (stem ++ ".json", artifact compilation) := by
  rw [deliveries, List.mem_filterMap]
  constructor
  · rintro ⟨_, member, delivered⟩
    obtain ⟨path, listed, rfl⟩ := List.mem_map.1 member
    exact ⟨path, listed, (delivery_eq_some_iff isResult).1 delivered⟩
  · rintro ⟨path, listed, delivered⟩
    exact ⟨_, List.mem_map_of_mem listed, (delivery_eq_some_iff isResult).2 delivered⟩

/-- What is delivered has names that can be written to a directory. -/
theorem isPlain_of_mem_deliveries
    (isResult : ∀ path compilation,
      result path = .ok compilation ↔ Compiles settings store path compilation) :
    ∀ text ∈ deliveries result graphs, Path.IsPlain text.1 ∧ text.1 ≠ "null" := by
  intro text member
  obtain ⟨path, _, compilation, stem, _, isStem, rfl⟩ := (mem_deliveries_iff isResult).1 member
  exact isPlain_artifactName isStem

theorem artifactPath_of_stem
    {stem : String}
    (isStem : path.stem? = some stem)
    (directory : Path)
    (digest : String) :
    artifactPath directory path digest = directory.join (stem ++ ".json") := by
  rw [artifactPath, isStem, Option.getD_some]

/-- The artifact of a graph is read back, unless a graph behind it with the same stem compiles
to something else. -/
theorem exists_read_artifact
    {final : FileStore}
    {directory : Path}
    {before after : List Path}
    {compilation : Compilation}
    (isResult : ∀ path compilation,
      result path = .ok compilation ↔ Compiles settings store path compilation)
    (only : store.OnlyNullDevice)
    (written : store.writeAll directory (deliveries result (before ++ path :: after)) = .ok final)
    (compiles : Compiles settings store path compilation)
    (last : ∀ later ∈ after, later.stem? = path.stem? -> ∀ other,
      Compiles settings store later other -> other = compilation) :
    ∃ place, ArtifactPlace final directory path place ∧
      final.place? (artifactPath directory path compilation.strategy.fingerprint) = .ok place ∧
      final.read (artifactPath directory path compilation.strategy.fingerprint) =
        .ok (artifact compilation) := by
  obtain ⟨text, graph, isFile, _⟩ := id compiles
  obtain ⟨stem, isStem⟩ := FileStore.exists_stem_of_read isFile
  have delivered := (delivery_eq_some_iff isResult).2 ⟨compilation, stem, compiles, isStem, rfl⟩
  have lastText : ∀ later ∈ deliveries result after, later.1 = stem ++ ".json" ->
      later.2 = artifact compilation := by
    intro later member sameName
    obtain ⟨behind, listed, other, otherStem, isOther, isOtherStem, rfl⟩ :=
      (mem_deliveries_iff isResult).1 member
    obtain rfl := (String.append_left_inj _).1 sameName
    exact congrArg artifact (last behind listed (isOtherStem.trans isStem.symm) other isOther)
  obtain ⟨home, found, isPlace, isRead⟩ :=
    FileStore.read_of_writeAll only (isPlain_of_mem_deliveries isResult) written
      (deliveries_append_cons delivered) lastText
  rw [artifactPath_of_stem isStem]
  exact ⟨_, ⟨home, stem, found, isStem, rfl⟩, isPlace, isRead⟩

end

/-- Compiling graphs into a directory leaves their artifacts there. The run is not broken off.
Then it ends well exactly when every graph compiles. For each graph that compiles, whatever
the others do, there is a place in the directory under the stem of its path, and in the end
the artifact of the graph stands there, unless a graph behind it with the same stem compiles to
something else. Graphs share a place only if they share a stem. Every file that could be read
at first still reads the same if it does not stand at the place of an artifact. -/
theorem compiled_graphs_delivered
    {machine final : Machine}
    {graphs : List Path}
    {configuration : Option Path}
    {directory : Path}
    {outcome : Except Failure Unit}
    (only : machine.store.OnlyNullDevice)
    (ran : machine.run (Invocation.compile graphs configuration (some directory)).action.run =
      (final, outcome))
    (unbroken : Unbroken outcome) :
    ∃ settings made,
      machine.run (loadConfiguration configuration).run = (machine, .ok settings) ∧
      machine.store.createDirectories directory = .ok made ∧
      ((machine.execute (Invocation.compile graphs configuration (some directory)).action).2 =
          true ↔
        ∀ path ∈ graphs, ∃ compilation, Compiles settings made path compilation) ∧
      (∀ before path after compilation, graphs = before ++ path :: after ->
        Compiles settings made path compilation ->
        (∀ later ∈ after, later.stem? = path.stem? -> ∀ other,
          Compiles settings made later other -> other = compilation) ->
        ∃ place, ArtifactPlace final.store directory path place ∧
          final.store.place?
            (artifactPath directory path compilation.strategy.fingerprint) = .ok place ∧
          final.store.read
            (artifactPath directory path compilation.strategy.fingerprint) =
              .ok (artifact compilation)) ∧
      (∀ first second place, ArtifactPlace final.store directory first place ->
        ArtifactPlace final.store directory second place -> first.stem? = second.stem?) ∧
      ∀ path content, machine.store.read path = .ok content ->
        (∀ graph ∈ graphs, ∀ compilation, Compiles settings made graph compilation ->
          ∀ place, machine.store.place? path = .ok place ->
            ¬ ArtifactPlace final.store directory graph place) ->
        final.store.read path = .ok content := by
  obtain ⟨settings, made, loaded, created, result, isResult, written, ended⟩ :=
    Machine.exists_delivered ran unbroken
  have keepsMade : FileStore.Keeps (fun _ => False) machine.store made :=
    FileStore.keeps_of_createDirectories created
  have onlyMade := keepsMade.onlyNullDevice only
  refine ⟨settings, made, loaded, created, ?_, ?_, fun _ _ _ => ArtifactPlace.stem_eq, ?_⟩
  · rw [Machine.execute_eq, ran, ended]
  · rintro before path after compilation rfl compiles last
    exact exists_read_artifact isResult onlyMade written compiles last
  · intro path content isRead free
    obtain ⟨place, isPlace⟩ := FileStore.exists_place_of_read isRead
    have keeps :=
      FileStore.keeps_of_writeAll onlyMade (isPlain_of_mem_deliveries isResult) written
    refine keeps.read (keepsMade.read isRead fun _ _ => not_false) fun placeToo isPlaceToo => ?_
    obtain rfl := Except.ok.inj ((keepsMade.place isPlace).symm.trans isPlaceToo)
    rintro ⟨home, found, name, member, rfl⟩
    obtain ⟨text, delivered, rfl⟩ := List.mem_map.1 member
    obtain ⟨graph, listed, compilation, stem, compiles, isStem, rfl⟩ :=
      (mem_deliveries_iff isResult).1 delivered
    exact free graph listed compilation compiles _ isPlace ⟨home, stem, found, isStem, rfl⟩

/-- A graph with one order that always fires. -/
def orderText (name side : String) : String :=
  "\x7b\"nodes\": [\x7b\"id\": \"" ++ name ++ "\", \"kind\": \"action\", \"side\": \"" ++ side ++
    "\", \"sizing\": \"all_available\"\x7d]\x7d\n"

/-- A machine with three graphs, two of them under names with one stem, and with notes. -/
def desk : Machine :=
  .ofStore { FileStore.empty with
    entries := [
      (["tmp", "work", "g.json"], .file (orderText "enter" "buy")),
      (["tmp", "work", "g.v2"], .file (orderText "leave" "sell")),
      (["tmp", "work", "h.json"], .file (orderText "leave" "sell")),
      (["tmp", "work", "notes.txt"], .file "buy low, sell high\n")] ++
        FileStore.empty.entries }

theorem onlyNullDevice_desk : desk.store.OnlyNullDevice :=
  FileStore.onlyNullDevice_of_entries (by decide)

/-- The order of a graph on the desk compiles, with a warning. -/
theorem exists_compiles_order
    {name side : String}
    (listed : (name, side) ∈ [("enter", "buy"), ("leave", "sell")]) :
    ∃ compilation, compilation.warnings = [.ungatedAction name] ∧
      ∀ store path, store.read path = .ok (orderText name side) ->
        Compiles .default store path compilation := by
  have computed : ∀ order ∈ [("enter", "buy"), ("leave", "sell")],
      (Graph.ofJson? .stepwise (orderText order.1 order.2)).bind (fun graph =>
        (graph.compile .default).toOption.map Compilation.warnings) =
          some [.ungatedAction order.1] := by
    decide +kernel
  obtain ⟨graph, isGraph, found⟩ := Option.bind_eq_some_iff.1 (computed _ listed)
  obtain ⟨compilation, compiled, warnings⟩ := Option.map_eq_some_iff.1 found
  exact ⟨compilation, warnings, fun store path isRead =>
    ⟨_, graph, isRead, isGraph, toOption_eq_some_iff.1 compiled⟩⟩

theorem compiled_graphs_delivered_desk :
    ∃ final outcome compilation other,
      desk.run (Invocation.compile ["g.json", "notes.txt", "h.json"] none
        (some "out")).action.run = (final, outcome) ∧
      Unbroken outcome ∧ outcome.isOk = false ∧
      Compiles .default desk.store "g.json" compilation ∧
      Compiles .default desk.store "h.json" other ∧
      final.store.read "out/g.json" = .ok (artifact compilation) ∧
      final.store.read "out/h.json" = .ok (artifact other) ∧
      final.store.read "g.json" = .ok (orderText "enter" "buy") := by
  have readOne : desk.store.read "g.json" = .ok (orderText "enter" "buy") :=
    toOption_eq_some_iff.1 (by decide +kernel)
  have readTwo : desk.store.read "h.json" = .ok (orderText "leave" "sell") :=
    toOption_eq_some_iff.1 (by decide +kernel)
  have computed : (match desk.run (Invocation.compile ["g.json", "notes.txt", "h.json"] none
        (some "out")).action.run with
      | (_, .ok _) => none
      | (final, .error failure) =>
          some (failure.causes, (final.store.directory? "out").toOption)) =
      some ([], some ["tmp", "work", "out"]) := by
    decide +kernel
  obtain ⟨⟨final, outcome⟩, ran⟩ : ∃ result, desk.run (Invocation.compile ["g.json",
      "notes.txt", "h.json"] none (some "out")).action.run = result := ⟨_, rfl⟩
  rw [ran] at computed
  obtain ⟨failure, rfl⟩ : ∃ failure, outcome = .error failure := by
    cases outcome with
    | ok value => cases computed
    | error failure => exact ⟨failure, rfl⟩
  obtain ⟨causes, home⟩ := Prod.mk.inj (Option.some.inj computed)
  have unbroken : Unbroken (.error failure) := fun other same => Except.error.inj same ▸ causes
  obtain ⟨compilation, _, compiles⟩ :=
    exists_compiles_order (show ("enter", "buy") ∈ _ from by decide)
  obtain ⟨other, _, compilesOther⟩ :=
    exists_compiles_order (show ("leave", "sell") ∈ _ from by decide)
  obtain ⟨settings, made, loaded, created, _, delivered, _, kept⟩ :=
    compiled_graphs_delivered onlyNullDevice_desk ran unbroken
  obtain rfl : Configuration.default = settings := Except.ok.inj (Prod.mk.inj loaded).2
  have keeps : FileStore.Keeps (fun _ => False) desk.store made :=
    FileStore.keeps_of_createDirectories created
  have madeOne := keeps.read readOne fun _ _ => not_false
  have madeTwo := keeps.read readTwo fun _ _ => not_false
  have stemOne : Path.stem? "g.json" = some "g" := by decide +kernel
  have stemTwo : Path.stem? "h.json" = some "h" := by decide +kernel
  have alone : ∀ later ∈ ["notes.txt", "h.json"], Path.stem? later ≠ some "g" := by
    decide +kernel
  obtain ⟨_, _, _, artifactOne⟩ := delivered [] "g.json" _ compilation rfl
    (compiles made _ madeOne)
    fun later listed same => absurd (same.trans stemOne) (alone later listed)
  obtain ⟨_, _, _, artifactTwo⟩ := delivered ["g.json", "notes.txt"] "h.json" [] other
    rfl (compilesOther made _ madeTwo) fun later none => absurd none List.not_mem_nil
  rw [artifactPath_of_stem stemOne] at artifactOne
  rw [artifactPath_of_stem stemTwo] at artifactTwo
  refine ⟨final, _, compilation, other, ran, unbroken, rfl, compiles _ _ readOne,
    compilesOther _ _ readTwo, artifactOne, artifactTwo, kept "g.json" _ readOne ?_⟩
  rintro graph _ _ _ _ isPlace ⟨directory, stem, found, _, rfl⟩
  obtain rfl := Option.some.inj (home.symm.trans (toOption_eq_some_iff.2 found))
  have place : (desk.store.place? "g.json").toOption = some ["tmp", "work", "g.json"] := by
    decide +kernel
  have same := Option.some.inj (place.symm.trans (toOption_eq_some_iff.2 isPlace))
  simp at same

/-- What an artifact with some warnings ends with. -/
def artifactEnding (warnings : Datum) : String :=
  Json.newLine 1 ++ Json.quote "warnings" ++ ": " ++ Json.indented 1 warnings ++
    Json.newLine 0 ++ Json.closeBrace

/-- The members of an artifact are in the order of their names. -/
theorem sortMembers_artifact (digest strategy warnings : Datum) :
    Json.sortMembers
        (.record [("fingerprint", digest), ("strategy", strategy), ("warnings", warnings)]) =
      .record [("fingerprint", Json.sortMembers digest), ("strategy", Json.sortMembers strategy),
        ("warnings", Json.sortMembers warnings)] := by
  have sorted : List.Pairwise (fun first second : String × Datum => first.1 <= second.1)
      (Json.sortValues
        [("fingerprint", digest), ("strategy", strategy), ("warnings", warnings)]) := by
    have names : List.Pairwise (· <= ·) ["fingerprint", "strategy", "warnings"] := by decide
    exact List.pairwise_map.1 names
  rw [Json.sortMembers, List.mergeSort_of_pairwise (sorted.imp fun before => decide_eq_true before)]
  rfl

/-- An artifact ends with its warnings. -/
theorem exists_artifact_eq (compilation : Compilation) :
    ∃ front, artifact compilation = front ++
      artifactEnding
        (Json.sortMembers (.list (compilation.warnings.map Warning.toDatum))) := by
  rw [artifact, Json.pretty, sortMembers_artifact, artifactEnding, Json.indented]
  · simp only [Json.indentedMembers, String.intercalate_cons_cons, String.intercalate_singleton,
      ← String.append_assoc]
    exact ⟨_, rfl⟩
  · exact List.cons_ne_nil _ _

/-- The warning about an order that always fires, with its members in order. -/
theorem sortMembers_ungatedAction (node : NodeId) :
    Json.sortMembers (.list ([Warning.ungatedAction node].map Warning.toDatum)) =
      .list [.record [("node", .text node), ("warning", .text "ungated_action")]] := by
  cbv

/-- Two graphs with one stem, compiled into their own directory, leave one artifact: that of the
second one, in the place of the first graph. -/
theorem compiling_overwrites_graph :
    ∃ final compilation other,
      desk.run (Invocation.compile ["./g.json", "./g.v2"] none (some ".")).action.run =
        (final, .ok ()) ∧
      Compiles .default desk.store "./g.json" compilation ∧
      Compiles .default desk.store "./g.v2" other ∧
      artifactPath "." "./g.json" compilation.strategy.fingerprint = "./g.json" ∧
      artifactPath "." "./g.v2" other.strategy.fingerprint = "./g.json" ∧
      final.store.read "./g.json" = .ok (artifact other) ∧
      artifact other ≠ artifact compilation ∧
      desk.store.read "./g.json" ≠ .ok (artifact other) := by
  have readOne : desk.store.read "./g.json" = .ok (orderText "enter" "buy") :=
    toOption_eq_some_iff.1 (by decide +kernel)
  have readTwo : desk.store.read "./g.v2" = .ok (orderText "leave" "sell") :=
    toOption_eq_some_iff.1 (by decide +kernel)
  have isOk : (desk.run (Invocation.compile ["./g.json", "./g.v2"] none
      (some ".")).action.run).2.isOk = true := by
    decide +kernel
  obtain ⟨⟨final, outcome⟩, ran⟩ : ∃ result, desk.run (Invocation.compile ["./g.json",
      "./g.v2"] none (some ".")).action.run = result := ⟨_, rfl⟩
  rw [ran] at isOk
  obtain ⟨_, rfl⟩ := isOk_eq_true_iff.1 isOk
  obtain ⟨compilation, warnings, compiles⟩ :=
    exists_compiles_order (show ("enter", "buy") ∈ _ from by decide)
  obtain ⟨other, warningsOther, compilesOther⟩ :=
    exists_compiles_order (show ("leave", "sell") ∈ _ from by decide)
  have unbroken : Unbroken (.ok ()) := fun failure impossible => by cases impossible
  obtain ⟨settings, made, loaded, created, result, isResult, written, _⟩ :=
    Machine.exists_delivered ran unbroken
  obtain rfl : Configuration.default = settings := Except.ok.inj (Prod.mk.inj loaded).2
  have keeps : FileStore.Keeps (fun _ => False) desk.store made :=
    FileStore.keeps_of_createDirectories created
  have stemOne : Path.stem? "./g.json" = some "g" := by decide +kernel
  have stemTwo : Path.stem? "./g.v2" = some "g" := by decide +kernel
  have joined : Path.join "." ("g" ++ ".json") = "./g.json" := by decide +kernel
  obtain ⟨_, _, _, isRead⟩ :=
    exists_read_artifact isResult (keeps.onlyNullDevice onlyNullDevice_desk)
      (show made.writeAll "." (deliveries result (["./g.json"] ++ "./g.v2" :: [])) = _
        from written)
      (compilesOther made _ (keeps.read readTwo fun _ _ => not_false))
      fun later none => absurd none List.not_mem_nil
  rw [artifactPath_of_stem stemTwo, joined] at isRead
  obtain ⟨front, isArtifact⟩ := exists_artifact_eq compilation
  obtain ⟨frontOther, isArtifactOther⟩ := exists_artifact_eq other
  rw [warnings, sortMembers_ungatedAction] at isArtifact
  rw [warningsOther, sortMembers_ungatedAction] at isArtifactOther
  refine ⟨final, compilation, other, ran, compiles _ _ readOne, compilesOther _ _ readTwo,
    (artifactPath_of_stem stemOne _ _).trans joined,
    (artifactPath_of_stem stemTwo _ _).trans joined, isRead, ?_, ?_⟩
  · rw [isArtifact, isArtifactOther]
    intro same
    have letters := congrArg String.toList same
    rw [String.toList_append, String.toList_append] at letters
    exact absurd (List.append_inj_right' letters (by decide +kernel)) (by decide +kernel)
  · rw [readOne, isArtifactOther]
    intro same
    have last := congrArg (fun text : String => text.toList.getLast?) (Except.ok.inj same)
    rw [String.toList_append, List.getLast?_append_of_ne_nil _ (by decide +kernel)] at last
    exact absurd last (by decide +kernel)

end Command
end StrategyGraph
