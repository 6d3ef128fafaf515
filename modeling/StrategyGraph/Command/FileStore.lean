import StrategyGraph.Command.Procedure

/-!
# File stores

A file store holds files and directories. Procedures run on it as they would on
a disk: reading, writing and making directories, with the errors that these
meet. A path is followed part by part, and all parts but the last have to be
directories. Names and paths have a greatest length.
-/

namespace StrategyGraph
namespace Command

/-- What a place in a file store holds. -/
inductive StoreEntry where
  | file (content : String)
  | directory
  /-- A file that stays empty. -/
  | sink
  deriving DecidableEq

/-- Names from the root down to a place. -/
abbrev Place := List String

/-- Files and directories by their places. -/
structure FileStore where
  entries : List (Place × StoreEntry)
  workingDirectory : Place

/-- A file store and what has been printed. -/
structure Machine where
  store : FileStore
  output : String
  errors : String

/-- Where a path leads to, once all parts but the last have been followed. -/
inductive Target where
  | directory (place : Place)
  | named (directory : Place) (name : String)

namespace FileStore

/-- Directories of every system. -/
def systemDirectories : List String := [
  "bin", "boot", "dev", "etc", "home", "lib", "media", "mnt", "opt", "proc", "root",
  "run", "sbin", "srv", "sys", "tmp", "usr", "var"]

/-- A system with an empty working directory and no files but the null device. -/
def empty : FileStore where
  entries :=
    (["tmp", "work"], .directory) :: (["dev", "null"], .sink) ::
      systemDirectories.map fun name => ([name], .directory)
  workingDirectory := ["tmp", "work"]

/-- What a place holds. The root is always there. -/
def entry? (store : FileStore) (place : Place) : Option StoreEntry :=
  if place.isEmpty then some .directory else store.entries.lookup place

/-- Put an entry at a place, instead of any earlier one. -/
def put (store : FileStore) (place : Place) (entry : StoreEntry) : FileStore :=
  { store with
    entries := (place, entry) :: store.entries.filter fun other => other.1 != place }

/-- What a directory holds under a name. -/
def find (store : FileStore) (directory : Place) (name : String) :
    Except SystemError (Option StoreEntry) :=
  if Path.isTooLongName name then .error .nameTooLong
  else .ok (store.entry? (directory ++ [name]))

/-- Go on from a directory by one part of a path, to another directory. -/
def enter (store : FileStore) (place : Place) (part : String) :
    Except SystemError Place := do
  if Path.isIdle part then return place
  else if part = ".." then return place.dropLast
  else
    match <- store.find place part with
    | some .directory => return place ++ [part]
    | some _ => .error .notDirectory
    | none => .error .notFound

/-- Where the parts of a path lead to from a place. -/
def locate (store : FileStore) (start : Place) (parts : List String) :
    Except SystemError Target := do
  let place <- parts.dropLast.foldlM store.enter start
  match parts.getLast? with
  | none => return .directory place
  | some part =>
      if Path.isIdle part then return .directory place
      else if part = ".." then return .directory place.dropLast
      else return .named place part

/-- The place from which a path starts, if its length is one a system takes. -/
def start (store : FileStore) (path : Path) : Except SystemError Place :=
  if Path.isTooLong path then .error .nameTooLong
  else if path.isEmpty then .error .notFound
  else .ok (if Path.isAbsolute path then [] else store.workingDirectory)

/-- What the parts of a path lead to from a place. -/
def resolve (store : FileStore) (start : Place) (parts : List String) :
    Except SystemError StoreEntry := do
  match <- store.locate start parts with
  | .directory _ => return .directory
  | .named directory name =>
      match <- store.find directory name with
      | some entry => return entry
      | none => .error .notFound

/-- Read a file. -/
def read (store : FileStore) (path : Path) : Except SystemError String := do
  match <- store.resolve (<- store.start path) (Path.parts path) with
  | .file content => return content
  | .sink => return ""
  | .directory => .error .isDirectory

/-- Write a file, new or in place of an earlier one. A path that ends in a slash
can only be that of a directory. -/
def write (store : FileStore) (path : Path) (content : String) :
    Except SystemError FileStore := do
  let start <- store.start path
  match <- store.locate start (Path.dropEmptyEnd (Path.parts path)) with
  | .directory _ => .error .isDirectory
  | .named directory name =>
      if Path.endsInSlash path then .error .isDirectory
      else
        match <- store.find directory name with
        | some .directory => .error .isDirectory
        | some .sink => return store
        | _ => return store.put (directory ++ [name]) (.file content)

/-- Make the directory that the parts of a path lead to. -/
def makeDirectory (store : FileStore) (start : Place) (parts : List String) :
    Except SystemError FileStore := do
  match <- store.locate start (Path.dropEmptyEnd parts) with
  | .directory _ => .error .alreadyExists
  | .named directory name =>
      match <- store.find directory name with
      | some _ => .error .alreadyExists
      | none => return store.put (directory ++ [name]) .directory

/-- Whether the parts of a path lead to a directory. -/
def isDirectory (store : FileStore) (start : Place) (parts : List String) : Bool :=
  match store.resolve start parts with
  | .ok .directory => true
  | _ => false

/-- Make a directory unless it is there, and before it those above it which are
missing. -/
def makeAscent (store : FileStore) (start : Place) :
    List (List String) -> Except SystemError FileStore
  | [] => .ok store
  | parts :: above =>
      let kept (store : FileStore) (error : SystemError) :=
        if store.isDirectory start parts then .ok store else .error error
      match store.makeDirectory start parts with
      | .ok made => .ok made
      | .error .notFound => do
          let store <- store.makeAscent start above
          match store.makeDirectory start parts with
          | .ok made => .ok made
          | .error error => kept store error
      | .error error => kept store error

/-- Make a directory with all directories above it. -/
def createDirectories (store : FileStore) (path : Path) :
    Except SystemError FileStore := do
  if path.isEmpty then return store
  else store.makeAscent (<- store.start path) (Path.ascent path)

end FileStore

namespace Machine

/-- A machine on which nothing has been printed. -/
def ofStore (store : FileStore) : Machine := ⟨store, "", ""⟩

/-- Carry out an effect. -/
def perform (machine : Machine) : Effect -> Except SystemError Machine
  | .print text => .ok { machine with output := machine.output ++ text }
  | .report text => .ok { machine with errors := machine.errors ++ text }
  | .createDirectories path =>
      (machine.store.createDirectories path).map fun store => { machine with store }
  | .write path content =>
      (machine.store.write path content).map fun store => { machine with store }

/-- Run a procedure up to its end or to the first effect that fails. -/
def run (machine : Machine) :
    Procedure (Except Failure Value) -> Machine × Except Failure Value
  | .done outcome => (machine, outcome)
  | .act effect next =>
      match machine.perform effect with
      | .ok changed => changed.run next
      | .error error => (machine, .error (error.failure.within effect.purpose))
  | .read path next => machine.run (next ((machine.store.read path).map String.toUTF8))

/-- Run an action and report its failure. The truth value says whether it ended
well. -/
def execute (machine : Machine) (action : Action Unit) : Machine × Bool :=
  match machine.run action.run with
  | (final, .ok ()) => (final, true)
  | (final, .error failure) =>
      ({ final with errors := final.errors ++ failure.ending }, false)

end Machine
end Command
end StrategyGraph
