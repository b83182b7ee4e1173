import LinearScan.Cli.Run

/-!
# Running in memory

A command line can be run on a directory that is held in memory, which makes it a
function of its arguments and files.

## Main Definitions

* `Cli.Directory` — files by name
* `Cli.Place` — where a path leads
* `Cli.Directory.lookup` — what stands at a path
* `Cli.Directory.run` — the outcome and the output of a command line

## Design Notes

Paths are relative to the directory.  The directories above it exist but hold nothing
else, and no time passes.  A path is followed segment by segment, and the first segment
that leads nowhere says what is wrong with it.
-/

namespace LinearScan.Cli

/-- Where a path leads. -/
inductive Place where
  /-- Into the directory, by these names. -/
  | inside (names : List String)
  /-- To one of the directories above it. -/
  | above
deriving DecidableEq

namespace Place

/-- The directory that a place is in.  The topmost one is in itself. -/
def parent : Place → Place
  | inside [] => above
  | inside names => inside names.dropLast
  | above => above

/-- The place of a name in a directory, if it can be anywhere. -/
def child? : Place → String → Option Place
  | inside names, name => some (inside (names ++ [name]))
  | above, _ => none

end Place

/-- The files of a directory, by path. -/
structure Directory where
  files : List (String × ByteArray)

namespace Directory

/-- The most bytes that a name in a directory has. -/
def nameLimit : Nat := 255

/-- The fewest bytes that are too many for a path. -/
def pathLimit : Nat := 4096

/-- The names along a path, without the segments that stay where they are. -/
def namesOf (path : String) : List String :=
  (path.splitOn "/").filter fun segment => segment ≠ "" ∧ segment ≠ "."

/-- The content of the file at a place. -/
def file? (directory : Directory) : Place → Option ByteArray
  | .inside names => (directory.files.find? fun file => namesOf file.1 == names).map (·.2)
  | .above => none

/-- Whether a place is a directory. -/
def isDirectory (directory : Directory) : Place → Bool
  | .inside names =>
    names.isEmpty || directory.files.any fun file =>
      names.isPrefixOf (namesOf file.1) && names.length < (namesOf file.1).length
  | .above => true

/-- Follows one segment of a path.  Only a directory leads on, even to itself. -/
def step (directory : Directory) (place : Place) (segment : String) : Except ReadError Place :=
  if !directory.isDirectory place then .error .notDirectory
  else if segment = "" ∨ segment = "." then .ok place
  else if segment = ".." then .ok place.parent
  else if nameLimit < segment.utf8ByteSize then .error .nameTooLong
  else
    match place.child? segment with
    | none => .error .notFound
    | some next =>
      if directory.isDirectory next || (directory.file? next).isSome then .ok next
      else .error .notFound

/-- The place that a path leads to. -/
def follow (directory : Directory) (path : String) : Except ReadError Place :=
  if path = "" then .error .notFound
  else if pathLimit ≤ path.utf8ByteSize then .error .nameTooLong
  else
    let start := if path.toList.head? = some '/' then Place.above else .inside []
    (path.splitOn "/").foldlM directory.step start

/-- What stands at a path. -/
def lookup (directory : Directory) (path : String) : Except ReadError ByteArray :=
  match directory.follow path with
  | .error error => .error error
  | .ok place =>
    match directory.file? place with
    | some bytes => .ok bytes
    | none => .error .isDirectory

/-- Whether something stands at a path. -/
def isPresent (directory : Directory) (path : String) : Bool :=
  match directory.lookup path with
  | .ok _ | .error .isDirectory => true
  | .error _ => false

/-- The text of the file at a path. -/
def read (directory : Directory) (path : String) : Except ReadError String :=
  match directory.lookup path with
  | .error error => .error error
  | .ok bytes =>
    match String.fromUTF8? bytes with
    | some text => .ok text
    | none => .error .notUtf8

/-- A directory as the surroundings of a command line.  The state is the output so far. -/
def host (directory : Directory) : Host (StateM String) where
  isPresent path := pure (directory.isPresent path)
  read path := pure (directory.read path)
  print text := modify (· ++ text)
  timed action := do
    let result ← action ()
    return (result, "_")

/-- The outcome of a command line, and its output. -/
def run (directory : Directory) (args : List String) : Except Failure Unit × String :=
  StateT.run (Cli.run directory.host args) ""

end Directory

end LinearScan.Cli
