/-!
# What the command line needs of its surroundings

## Main Definitions

* `Cli.Host` — files to read, a place to print to, and a stopwatch
* `Cli.ReadError` — why a file cannot be read

## Design Notes

The command line is written over any monad that offers these, so that it runs on the
file system as well as on a directory held in memory.
-/

namespace LinearScan.Cli

/-- Why a file cannot be read. -/
inductive ReadError where
  | notFound
  | isDirectory
  | notDirectory
  | nameTooLong
  | notUtf8
  /-- Any other reason, in the system's words. -/
  | other (details : String)
deriving DecidableEq

/-- What a read error says. -/
def ReadError.message : ReadError → String
  | notFound => "No such file or directory (os error 2)"
  | isDirectory => "Is a directory (os error 21)"
  | notDirectory => "Not a directory (os error 20)"
  | nameTooLong => "File name too long (os error 36)"
  | notUtf8 => "stream did not contain valid UTF-8"
  | other details => details

/-- What the command line needs of its surroundings. -/
structure Host (m : Type → Type) where
  /-- Whether something stands at a path. -/
  isPresent : String → m Bool
  /-- The text of the file at a path. -/
  read : String → m (Except ReadError String)
  /-- Writes to the output. -/
  print : String → m Unit
  /-- Does something, and says how many microseconds that took. -/
  timed : {α : Type} → (Unit → m α) → m (α × String)

end LinearScan.Cli
