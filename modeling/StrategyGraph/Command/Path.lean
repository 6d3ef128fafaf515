/-!
# Paths

A path is a sequence of names separated by slashes. Empty names and single dots
between slashes have no effect.
-/

namespace StrategyGraph

/-- A path as it was given. -/
abbrev Path := String

namespace Path

/-- Split at slashes; there is always at least one part. -/
def splitSlashes : List Char -> List (List Char)
  | [] => [[]]
  | character :: rest =>
      if character = '/' then [] :: splitSlashes rest
      else
        match splitSlashes rest with
        | [] => [[character]]
        | part :: parts => (character :: part) :: parts

/-- Parts of a path, those without effect included. -/
def parts (path : Path) : List String :=
  (splitSlashes path.toList).map String.ofList

/-- Whether a part has no effect. -/
def isIdle (part : String) : Bool :=
  part == "" || part == "."

/-- Whether a path starts at the root of all directories. -/
def isAbsolute (path : Path) : Bool :=
  path.toList.head? = some '/'

/-- Whether a path has more bytes than a system takes. -/
def isTooLong (path : Path) : Bool :=
  4096 <= path.utf8ByteSize

/-- Whether a name has more bytes than a directory takes. -/
def isTooLongName (name : String) : Bool :=
  255 < name.utf8ByteSize

/-- Parts without the empty ones at their end. -/
def dropEmptyEnd (parts : List String) : List String :=
  (parts.reverse.dropWhile (· = "")).reverse

/-- The leading parts that end in one with an effect, all of them first. The parts
are given from the last to the first. -/
def leadingParts : List String -> List (List String)
  | [] => []
  | part :: before =>
      if isIdle part then leadingParts before
      else (part :: before).reverse :: leadingParts before

/-- Parts of a path and of the directories above it, from the path upwards. -/
def ascent (path : Path) : List (List String) :=
  path.parts :: (leadingParts path.parts.reverse).drop 1

/-- The name a path ends with, unless it ends in a way up. -/
def fileName? (path : Path) : Option String :=
  match (path.parts.filter fun part => !isIdle part).getLast? with
  | some ".." => none
  | name? => name?

/-- A name up to its last dot. A name that starts with its only dot is kept. -/
def stemOf (name : String) : String :=
  let behindDot := name.toList.reverse.takeWhile (· != '.')
  let before := name.toList.take (name.length - behindDot.length - 1)
  if before.isEmpty then name else String.ofList before

/-- The name a path ends with, without its extension. -/
def stem? (path : Path) : Option String :=
  path.fileName?.map stemOf

/-- Whether a path ends in a slash and so can only be that of a directory. -/
def endsInSlash (path : Path) : Bool :=
  path.toList.getLast? = some '/'

/-- The path of a name in a directory. -/
def join (directory : Path) (name : String) : Path :=
  if directory.isEmpty || directory.endsInSlash then directory ++ name
  else directory ++ "/" ++ name

end Path
end StrategyGraph
