import StrategyGraph.Command.FileStore
import StrategyGraph.Proofs.Command.Path
import StrategyGraph.Proofs.Outcome

/-!
# What changes of a file store leave as it is

Writing a file changes what is at its place and nothing else, and making directories changes
nothing that is there. Directories stay in any case, so paths lead where they led before, and
files that are not written to are read as before.
-/

namespace StrategyGraph
namespace Command
namespace FileStore

open Outcome

/-- The place of a directory, found by following all parts of its path. The empty path
leads to the working directory. -/
def directory? (store : FileStore) (path : Path) : Except SystemError Place :=
  (Path.parts path).foldlM store.enter
    (if Path.isAbsolute path then [] else store.workingDirectory)

/-- The place that a path leads to, whether or not something is there. -/
def place? (store : FileStore) (path : Path) : Except SystemError Place := do
  match <- store.locate (<- store.start path) (Path.parts path) with
  | .directory place => return place
  | .named directory name => return directory ++ [name]

/-- Nothing takes what is written to it and stays empty, except the null device. -/
def OnlyNullDevice (store : FileStore) : Prop :=
  ∀ place, store.entry? place = some .sink -> place = ["dev", "null"]

/-! ## Entries -/

section

variable {store : FileStore} {place other : Place} {entry : StoreEntry}

theorem onlyNullDevice_of_entries
    (only : ∀ entry ∈ store.entries, entry.2 = .sink -> entry.1 = ["dev", "null"]) :
    store.OnlyNullDevice := by
  intro place isSink
  unfold entry? at isSink
  split at isSink
  next => cases isSink
  next =>
    obtain ⟨before, behind, split, _⟩ := List.lookup_eq_some_iff.1 isSink
    exact only (place, .sink) (split ▸ List.mem_append_right before List.mem_cons_self) rfl

@[simp] theorem entry_put_self (some : place ≠ []) :
    FileStore.entry? (store.put place entry) place = .some entry := by
  unfold entry?
  rw [if_neg (List.isEmpty_iff.not.2 some), put, List.lookup_cons, beq_self_eq_true]

theorem lookup_filter_ne
    (different : other ≠ place)
    (entries : List (Place × StoreEntry)) :
    (entries.filter fun entry => entry.1 != place).lookup other = entries.lookup other := by
  induction entries with
  | nil => rfl
  | cons first entries hypothesis =>
      rw [List.filter_cons]
      by_cases same : first.1 = place
      · rw [same, bne_self_eq_false, if_neg Bool.false_ne_true, hypothesis, List.lookup_cons,
          same, beq_eq_false_iff_ne.2 different]
      · rw [bne_iff_ne.2 same, if_pos rfl, List.lookup_cons, List.lookup_cons, hypothesis]

@[simp] theorem entry_put_of_ne (different : other ≠ place) :
    FileStore.entry? (store.put place entry) other = store.entry? other := by
  unfold entry? put
  dsimp only
  rw [List.lookup_cons, beq_eq_false_iff_ne.2 different, lookup_filter_ne different]

end

/-! ## Ways -/

section

variable {store : FileStore} {place next : Place} {part name : String}

theorem find_eq_ok_iff {found : Option StoreEntry} :
    store.find place name = .ok found ↔
      Path.isTooLongName name = false ∧ found = store.entry? (place ++ [name]) := by
  rw [find]
  cases Path.isTooLongName name with
  | true => simp
  | false => simp [eq_comm]

/-- A part of a path leads to a directory: to the same one, to the one above or to one that
is there under its name. -/
theorem enter_eq_ok_iff :
    store.enter place part = .ok next ↔
      (Path.isIdle part = true ∧ next = place) ∨
      (Path.isIdle part = false ∧ part = ".." ∧ next = place.dropLast) ∨
      (Path.isIdle part = false ∧ part ≠ ".." ∧ Path.isTooLongName part = false ∧
        store.entry? (place ++ [part]) = some .directory ∧ next = place ++ [part]) := by
  rw [enter]
  cases idle : Path.isIdle part with
  | true =>
      rw [if_pos rfl]
      constructor
      · intro entered
        exact Or.inl ⟨rfl, (Except.ok.inj entered).symm⟩
      · rintro (⟨_, rfl⟩ | ⟨impossible, _⟩ | ⟨impossible, _⟩)
        · rfl
        · cases impossible
        · cases impossible
  | false =>
      rw [if_neg Bool.false_ne_true]
      by_cases up : part = ".."
      · rw [if_pos up]
        constructor
        · intro entered
          exact Or.inr (Or.inl ⟨rfl, up, (Except.ok.inj entered).symm⟩)
        · rintro (⟨impossible, _⟩ | ⟨_, _, rfl⟩ | ⟨_, notUp, _⟩)
          · cases impossible
          · rfl
          · exact absurd up notUp
      · rw [if_neg up, bind_eq_ok_iff]
        constructor
        · rintro ⟨found, isFound, entered⟩
          obtain ⟨short, rfl⟩ := find_eq_ok_iff.1 isFound
          refine Or.inr (Or.inr ⟨rfl, up, short, ?_⟩)
          split at entered
          next isDirectory => exact ⟨isDirectory, (Except.ok.inj entered).symm⟩
          next => cases entered
          next => cases entered
        · rintro (⟨impossible, _⟩ | ⟨_, isUp, _⟩ | ⟨_, _, short, isDirectory, rfl⟩)
          · cases impossible
          · exact absurd isUp up
          · exact ⟨_, find_eq_ok_iff.2 ⟨short, rfl⟩, by rw [isDirectory]; rfl⟩

/-- What is read is the file that a path names, or nothing if that is a device. -/
theorem read_eq_ok_iff {path : Path} {content : String} :
    store.read path = .ok content ↔
      ∃ start directory name, store.start path = .ok start ∧
        store.locate start (Path.parts path) = .ok (.named directory name) ∧
        Path.isTooLongName name = false ∧
        (store.entry? (directory ++ [name]) = some (.file content) ∨
          store.entry? (directory ++ [name]) = some .sink ∧ content = "") := by
  rw [read, bind_eq_ok_iff]
  constructor
  · rintro ⟨start, starts, resolved⟩
    obtain ⟨entry, resolved, isContent⟩ := bind_eq_ok_iff.1 resolved
    rw [resolve, bind_eq_ok_iff] at resolved
    obtain ⟨target, located, resolved⟩ := resolved
    cases target with
    | directory place =>
        cases resolved
        cases isContent
    | named directory name =>
        obtain ⟨found, isFound, resolved⟩ := bind_eq_ok_iff.1 resolved
        obtain ⟨short, rfl⟩ := find_eq_ok_iff.1 isFound
        refine ⟨start, directory, name, starts, located, short, ?_⟩
        cases isEntry : store.entry? (directory ++ [name]) with
        | none =>
            rw [isEntry] at resolved
            cases resolved
        | some found =>
            rw [isEntry] at resolved
            obtain rfl := Except.ok.inj resolved
            cases found with
            | file text => exact Or.inl (congrArg _ (congrArg _ (Except.ok.inj isContent)))
            | directory => cases isContent
            | sink => exact Or.inr ⟨rfl, (Except.ok.inj isContent).symm⟩
  · rintro ⟨start, directory, name, starts, located, short, isEntry⟩
    have resolved : ∀ entry, store.entry? (directory ++ [name]) = some entry ->
        store.resolve start (Path.parts path) = .ok entry := by
      intro entry isEntry
      refine bind_eq_ok_iff.2 ⟨_, located, bind_eq_ok_iff.2 ⟨_, find_eq_ok_iff.2 ⟨short, rfl⟩, ?_⟩⟩
      rw [isEntry]
      rfl
    refine ⟨start, starts, bind_eq_ok_iff.2 ?_⟩
    rcases isEntry with isFile | ⟨isSink, rfl⟩
    · exact ⟨_, resolved _ isFile, rfl⟩
    · exact ⟨_, resolved _ isSink, rfl⟩

/-- A path that does not lead to a directory ends with a plain name. -/
theorem parts_of_locate
    {start directory : Place}
    {parts : List String}
    (located : store.locate start parts = .ok (.named directory name)) :
    ∃ before, parts = before ++ [name] ∧ Path.isIdle name = false ∧ name ≠ ".." := by
  obtain ⟨place, _, located⟩ := bind_eq_ok_iff.1 located
  split at located
  next => cases located
  next part isLast =>
    split at located
    next => cases located
    next effective =>
      split at located
      next => cases located
      next notUp =>
        cases located
        obtain ⟨before, split⟩ := List.getLast?_eq_some_iff.1 isLast
        exact ⟨before, split, Bool.eq_false_iff.2 effective, notUp⟩

/-- The path of a file has a stem. -/
theorem exists_stem_of_read
    {path : Path}
    {content : String}
    (isRead : store.read path = .ok content) :
    ∃ stem, path.stem? = some stem := by
  obtain ⟨start, directory, name, _, located, _⟩ := read_eq_ok_iff.1 isRead
  obtain ⟨before, ends, effective, notUp⟩ := parts_of_locate located
  exact ⟨_, Path.stem_of_parts ends effective notUp⟩

theorem place_of_locate
    {path : Path}
    {start directory : Place}
    (starts : store.start path = .ok start)
    (located : store.locate start (Path.parts path) = .ok (.named directory name)) :
    store.place? path = .ok (directory ++ [name]) :=
  bind_eq_ok_iff.2 ⟨start, starts, bind_eq_ok_iff.2 ⟨_, located, rfl⟩⟩

theorem exists_place_of_read
    {path : Path}
    {content : String}
    (isRead : store.read path = .ok content) :
    ∃ place, store.place? path = .ok place := by
  obtain ⟨start, directory, name, starts, located, _⟩ := read_eq_ok_iff.1 isRead
  exact ⟨_, place_of_locate starts located⟩

end

/-! ## Changes -/

/-- A store has changed at most at some places, and nowhere where directories or devices
are concerned. -/
structure Keeps (touched : Place -> Prop) (old new : FileStore) : Prop where
  workingDirectory : new.workingDirectory = old.workingDirectory
  directories : ∀ place, old.entry? place = some .directory -> new.entry? place = some .directory
  sinks : ∀ place, new.entry? place = some .sink -> old.entry? place = some .sink
  others : ∀ place, ¬ touched place -> ∀ entry, old.entry? place = some entry ->
    new.entry? place = some entry

namespace Keeps

section

variable {touched : Place -> Prop} {old new newest : FileStore}

theorem refl (touched : Place -> Prop) (store : FileStore) : Keeps touched store store :=
  ⟨rfl, fun _ isEntry => isEntry, fun _ isEntry => isEntry, fun _ _ _ isEntry => isEntry⟩

theorem trans (keeps : Keeps touched old new) (keepsToo : Keeps touched new newest) :
    Keeps touched old newest where
  workingDirectory := keepsToo.workingDirectory.trans keeps.workingDirectory
  directories place isEntry := keepsToo.directories place (keeps.directories place isEntry)
  sinks place isEntry := keeps.sinks place (keepsToo.sinks place isEntry)
  others place free entry isEntry :=
    keepsToo.others place free entry (keeps.others place free entry isEntry)

theorem mono
    {more : Place -> Prop}
    (keeps : Keeps touched old new)
    (subset : ∀ place, touched place -> more place) :
    Keeps more old new :=
  { keeps with
    others := fun place free => keeps.others place fun isTouched => free (subset place isTouched) }

theorem onlyNullDevice (keeps : Keeps touched old new) (only : old.OnlyNullDevice) :
    new.OnlyNullDevice :=
  fun place isSink => only place (keeps.sinks place isSink)

/-- Paths that led somewhere still lead there. -/
theorem enter
    (keeps : Keeps touched old new)
    {place next : Place}
    {part : String}
    (entered : old.enter place part = .ok next) :
    new.enter place part = .ok next := by
  rw [enter_eq_ok_iff] at entered ⊢
  refine entered.imp_right (Or.imp_right ?_)
  rintro ⟨effective, notUp, short, isDirectory, rfl⟩
  exact ⟨effective, notUp, short, keeps.directories _ isDirectory, rfl⟩

theorem foldlM_enter
    (keeps : Keeps touched old new)
    {parts : List String}
    {start place : Place}
    (followed : parts.foldlM old.enter start = .ok place) :
    parts.foldlM new.enter start = .ok place := by
  induction parts generalizing start with
  | nil => exact followed
  | cons part parts hypothesis =>
      rw [List.foldlM_cons, bind_eq_ok_iff] at followed ⊢
      obtain ⟨next, entered, followed⟩ := followed
      exact ⟨next, keeps.enter entered, hypothesis followed⟩

theorem locate
    (keeps : Keeps touched old new)
    {start : Place}
    {parts : List String}
    {target : Target}
    (located : old.locate start parts = .ok target) :
    new.locate start parts = .ok target := by
  rw [FileStore.locate, bind_eq_ok_iff] at located ⊢
  obtain ⟨place, followed, located⟩ := located
  exact ⟨place, keeps.foldlM_enter followed, located⟩

theorem start_eq (keeps : Keeps touched old new) (path : Path) :
    new.start path = old.start path := by
  rw [start, start, keeps.workingDirectory]

/-- A directory is found where it was. -/
theorem directory
    (keeps : Keeps touched old new)
    {path : Path}
    {place : Place}
    (found : old.directory? path = .ok place) :
    new.directory? path = .ok place := by
  rw [directory?] at found ⊢
  rw [keeps.workingDirectory]
  exact keeps.foldlM_enter found

/-- A path leads to the place it led to. -/
theorem place
    (keeps : Keeps touched old new)
    {path : Path}
    {place : Place}
    (found : old.place? path = .ok place) :
    new.place? path = .ok place := by
  rw [place?, bind_eq_ok_iff] at found ⊢
  obtain ⟨start, starts, found⟩ := found
  obtain ⟨target, located, found⟩ := bind_eq_ok_iff.1 found
  exact ⟨start, (keeps.start_eq path).trans starts,
    bind_eq_ok_iff.2 ⟨target, keeps.locate located, found⟩⟩

/-- A file is read as before unless its place is touched. -/
theorem read
    (keeps : Keeps touched old new)
    {path : Path}
    {content : String}
    (isRead : old.read path = .ok content)
    (free : ∀ place, old.place? path = .ok place -> ¬ touched place) :
    new.read path = .ok content := by
  rw [read_eq_ok_iff] at isRead ⊢
  obtain ⟨start, directory, name, starts, located, short, isEntry⟩ := isRead
  have untouched := keeps.others _ (free _ (place_of_locate starts located))
  refine ⟨start, directory, name, (keeps.start_eq path).trans starts, keeps.locate located, short,
    ?_⟩
  exact isEntry.imp (untouched _) fun isSink => ⟨untouched _ isSink.1, isSink.2⟩

end

end Keeps

/-! ## Making directories -/

section

variable {touched : Place -> Prop} {store made : FileStore} {start place : Place}
  {entry : StoreEntry}

/-- Something new may be put anywhere, and a file may be replaced where it may be touched. -/
theorem keeps_put
    (some : place ≠ [])
    (stores : entry ≠ .sink)
    (free : store.entry? place = none ∨ touched place ∧ store.entry? place ≠ .some .directory) :
    Keeps touched store (store.put place entry) where
  workingDirectory := rfl
  directories other isDirectory := by
    have different : other ≠ place := by
      rintro rfl
      rcases free with none | ⟨_, notDirectory⟩
      · cases none.symm.trans isDirectory
      · exact notDirectory isDirectory
    rwa [entry_put_of_ne different]
  sinks other isSink := by
    by_cases same : other = place
    · rw [same, entry_put_self some] at isSink
      exact absurd (Option.some.inj isSink) stores
    · rwa [entry_put_of_ne same] at isSink
  others other untouched found isFound := by
    have different : other ≠ place := by
      rintro rfl
      rcases free with none | ⟨isTouched, _⟩
      · cases none.symm.trans isFound
      · exact untouched isTouched
    rwa [entry_put_of_ne different]

theorem keeps_of_makeDirectory
    {parts : List String}
    (isMade : store.makeDirectory start parts = .ok made) :
    Keeps touched store made := by
  obtain ⟨target, _, isMade⟩ := bind_eq_ok_iff.1 isMade
  cases target with
  | directory place => cases isMade
  | named directory name =>
      obtain ⟨found, isFound, isMade⟩ := bind_eq_ok_iff.1 isMade
      obtain ⟨_, rfl⟩ := find_eq_ok_iff.1 isFound
      split at isMade
      next => cases isMade
      next none =>
        obtain rfl := Except.ok.inj isMade
        exact keeps_put (List.append_ne_nil_of_right_ne_nil _ (List.cons_ne_nil _ _))
          StoreEntry.noConfusion (Or.inl none)

theorem keeps_of_makeAscent
    {ascent : List (List String)}
    (isMade : store.makeAscent start ascent = .ok made) :
    Keeps touched store made := by
  induction ascent generalizing made with
  | nil => exact Except.ok.inj isMade ▸ Keeps.refl touched store
  | cons parts above hypothesis =>
      have kept : ∀ {store : FileStore} {error : SystemError},
          (if store.isDirectory start parts then Except.ok store else .error error) = .ok made ->
            store = made := by
        intro store error isKept
        split at isKept
        next => exact Except.ok.inj isKept
        next => cases isKept
      rw [makeAscent] at isMade
      dsimp only at isMade
      split at isMade
      next first =>
        obtain rfl := Except.ok.inj isMade
        exact keeps_of_makeDirectory first
      next =>
        obtain ⟨between, ascended, isMade⟩ := bind_eq_ok_iff.1 isMade
        have keeps := hypothesis ascended
        split at isMade
        next second =>
          obtain rfl := Except.ok.inj isMade
          exact keeps.trans (keeps_of_makeDirectory second)
        next => exact kept isMade ▸ keeps
      next => exact kept isMade ▸ Keeps.refl touched store

/-- Making directories changes nothing that is there. -/
theorem keeps_of_createDirectories
    {path : Path}
    (isMade : store.createDirectories path = .ok made) :
    Keeps touched store made := by
  rw [createDirectories] at isMade
  split at isMade
  next => exact Except.ok.inj isMade ▸ Keeps.refl touched store
  next =>
    obtain ⟨start, _, isMade⟩ := bind_eq_ok_iff.1 isMade
    exact keeps_of_makeAscent isMade

end

/-! ## Writing -/

section

variable {store written final : FileStore} {directory : Path} {name content : String}

/-- A plain name in a directory is found there. -/
theorem locate_join
    (plain : Path.IsPlain name)
    {start : Place}
    (starts : store.start (directory.join name) = .ok start) :
    store.locate start (Path.parts (directory.join name)) =
      (store.directory? directory).map fun home => .named home name := by
  have origin : start = if Path.isAbsolute directory then [] else store.workingDirectory := by
    rw [FileStore.start, Path.isAbsolute_join plain] at starts
    split at starts
    next => cases starts
    next =>
      split at starts
      next => cases starts
      next => exact (Except.ok.inj starts).symm
  obtain ⟨before, parts, directoryParts⟩ := Path.exists_parts_join plain directory
  have followed : before.foldlM store.enter start = store.directory? directory := by
    rw [directory?, ← origin]
    rcases directoryParts with same | longer
    · rw [same]
    · have stays : ∀ place, store.enter place "" = .ok place := fun place =>
        enter_eq_ok_iff.2 (Or.inl ⟨rfl, rfl⟩)
      rw [longer, List.foldlM_append]
      simp only [List.foldlM_cons, List.foldlM_nil, stays]
      cases before.foldlM store.enter start <;> rfl
  rw [locate, parts, List.dropLast_concat, List.getLast?_concat, followed]
  simp only [plain.effective, Bool.false_eq_true, if_false, plain.notUp]
  cases store.directory? directory <;> rfl

/-- Writing a plain name in a directory puts a file there. -/
theorem written_of_write
    (only : store.OnlyNullDevice)
    (plain : Path.IsPlain name)
    (notNull : name ≠ "null")
    (isWritten : store.write (directory.join name) content = .ok written) :
    ∃ home start, store.directory? directory = .ok home ∧
      store.start (directory.join name) = .ok start ∧ Path.isTooLongName name = false ∧
      store.entry? (home ++ [name]) ≠ some .directory ∧
      written = store.put (home ++ [name]) (.file content) := by
  obtain ⟨start, starts, isWritten⟩ := bind_eq_ok_iff.1 isWritten
  rw [Path.dropEmptyEnd_join plain, locate_join plain starts] at isWritten
  obtain ⟨target, located, isWritten⟩ := bind_eq_ok_iff.1 isWritten
  cases found : store.directory? directory with
  | error error =>
      rw [found] at located
      cases located
  | ok home =>
      rw [found] at located
      obtain rfl := Except.ok.inj located
      dsimp only at isWritten
      rw [Path.endsInSlash_join plain, if_neg Bool.false_ne_true] at isWritten
      obtain ⟨entry, isEntry, isWritten⟩ := bind_eq_ok_iff.1 isWritten
      obtain ⟨short, rfl⟩ := find_eq_ok_iff.1 isEntry
      refine ⟨home, start, rfl, starts, short, ?_⟩
      split at isWritten
      next => cases isWritten
      next isSink =>
        have device := only _ isSink
        have last := congrArg List.getLast? device
        rw [List.getLast?_concat] at last
        exact absurd (Option.some.inj last) notNull
      next notDirectory _ => exact ⟨notDirectory, (Except.ok.inj isWritten).symm⟩

/-- A file that was written is read back. -/
theorem read_of_write
    (only : store.OnlyNullDevice)
    (plain : Path.IsPlain name)
    (notNull : name ≠ "null")
    (isWritten : store.write (directory.join name) content = .ok written) :
    ∃ home, store.directory? directory = .ok home ∧
      Keeps (· = home ++ [name]) store written ∧
      written.place? (directory.join name) = .ok (home ++ [name]) ∧
      written.read (directory.join name) = .ok content := by
  obtain ⟨home, start, found, starts, short, notDirectory, rfl⟩ :=
    written_of_write only plain notNull isWritten
  have some : home ++ [name] ≠ [] :=
    List.append_ne_nil_of_right_ne_nil home (List.cons_ne_nil name [])
  have keeps : Keeps (· = home ++ [name]) store (store.put (home ++ [name]) (.file content)) :=
    keeps_put some StoreEntry.noConfusion (Or.inr ⟨rfl, notDirectory⟩)
  have located := keeps.locate ((locate_join plain starts).trans (congrArg _ found))
  have startsToo := (keeps.start_eq _).trans starts
  exact ⟨home, found, keeps, place_of_locate startsToo located,
    read_eq_ok_iff.2 ⟨start, home, name, startsToo, located, short,
      Or.inl (entry_put_self some)⟩⟩

/-- Write texts under their names in a directory, one after the other. -/
def writeAll (store : FileStore) (directory : Path) (texts : List (String × String)) :
    Except SystemError FileStore :=
  texts.foldlM (fun store text => store.write (directory.join text.1) text.2) store

/-- The places of some names in a directory. -/
def InDirectory (store : FileStore) (directory : Path) (names : List String) (place : Place) :
    Prop :=
  ∃ home, store.directory? directory = .ok home ∧ ∃ name ∈ names, place = home ++ [name]

variable {texts : List (String × String)}

/-- Writing texts touches nothing but their places. -/
theorem keeps_of_writeAll
    (only : store.OnlyNullDevice)
    (names : ∀ text ∈ texts, Path.IsPlain text.1 ∧ text.1 ≠ "null")
    (isWritten : store.writeAll directory texts = .ok final) :
    Keeps (final.InDirectory directory (texts.map Prod.fst)) store final := by
  induction texts generalizing store with
  | nil => exact Except.ok.inj isWritten ▸ Keeps.refl _ store
  | cons text texts hypothesis =>
      rw [List.forall_mem_cons] at names
      obtain ⟨between, isFirst, isWritten⟩ := bind_eq_ok_iff.1 isWritten
      obtain ⟨home, found, keeps, _⟩ := read_of_write only names.1.1 names.1.2 isFirst
      have keepsRest := hypothesis (keeps.onlyNullDevice only) names.2 isWritten
      -- The places are those of the last store, in which the directory is where it was.
      have foundAtLast := keepsRest.directory (keeps.directory found)
      refine (keeps.mono ?_).trans (keepsRest.mono ?_)
      · rintro place rfl
        exact ⟨home, foundAtLast, text.1, List.mem_cons_self, rfl⟩
      · rintro place ⟨home, found, name, member, rfl⟩
        exact ⟨home, found, name, List.mem_cons_of_mem text.1 member, rfl⟩

/-- A text stays as it was written, unless another one is written under its name. -/
theorem read_of_read_writeAll
    (only : store.OnlyNullDevice)
    (names : ∀ text ∈ texts, Path.IsPlain text.1 ∧ text.1 ≠ "null")
    (isWritten : store.writeAll directory texts = .ok final)
    {home : Place}
    (found : store.directory? directory = .ok home)
    (isPlace : store.place? (directory.join name) = .ok (home ++ [name]))
    (isRead : store.read (directory.join name) = .ok content)
    (last : ∀ text ∈ texts, text.1 = name -> text.2 = content) :
    final.read (directory.join name) = .ok content := by
  induction texts generalizing store with
  | nil => exact Except.ok.inj isWritten ▸ isRead
  | cons text texts hypothesis =>
      rw [List.forall_mem_cons] at names last
      obtain ⟨between, isFirst, isWritten⟩ := bind_eq_ok_iff.1 isWritten
      obtain ⟨homeToo, foundToo, keeps, _, reads⟩ :=
        read_of_write only names.1.1 names.1.2 isFirst
      obtain rfl := Except.ok.inj (found.symm.trans foundToo)
      refine hypothesis (keeps.onlyNullDevice only) names.2 isWritten (keeps.directory found)
        (keeps.place isPlace) ?_ last.2
      by_cases same : text.1 = name
      · rw [← same, ← last.1 same]
        exact reads
      · refine keeps.read isRead fun place isPlaceToo touched => same ?_
        obtain rfl := Except.ok.inj (isPlace.symm.trans isPlaceToo)
        exact (List.append_singleton_inj.1 touched).2.symm

/-- A text that was written is read back, unless another one was written under its name
afterwards. -/
theorem read_of_writeAll
    (only : store.OnlyNullDevice)
    (names : ∀ text ∈ texts, Path.IsPlain text.1 ∧ text.1 ≠ "null")
    (isWritten : store.writeAll directory texts = .ok final)
    {before after : List (String × String)}
    {text : String × String}
    (split : texts = before ++ text :: after)
    (last : ∀ later ∈ after, later.1 = text.1 -> later.2 = text.2) :
    ∃ home, final.directory? directory = .ok home ∧
      final.place? (directory.join text.1) = .ok (home ++ [text.1]) ∧
      final.read (directory.join text.1) = .ok text.2 := by
  subst split
  rw [List.forall_mem_append, List.forall_mem_cons] at names
  rw [writeAll, List.foldlM_append] at isWritten
  obtain ⟨first, areBefore, isWritten⟩ := bind_eq_ok_iff.1 isWritten
  obtain ⟨second, isText, areAfter⟩ := bind_eq_ok_iff.1 isWritten
  have onlyFirst := (keeps_of_writeAll only names.1 areBefore).onlyNullDevice only
  obtain ⟨home, found, keeps, isPlace, isRead⟩ :=
    read_of_write onlyFirst names.2.1.1 names.2.1.2 isText
  have onlySecond := keeps.onlyNullDevice onlyFirst
  have keepsRest := keeps_of_writeAll onlySecond names.2.2 areAfter
  exact ⟨home, keepsRest.directory (keeps.directory found), keepsRest.place isPlace,
    read_of_read_writeAll onlySecond names.2.2 areAfter (keeps.directory found) isPlace isRead last⟩

end

end FileStore
end Command
end StrategyGraph
