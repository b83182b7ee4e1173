import LinearScan.Cli.Run

/-!
# The program

The command line, run on the file system.
-/

namespace LinearScan.Cli

/-- The number of a system error, which some calls give with its sign turned. -/
def systemCode (code : UInt32) : UInt32 :=
  if code < 0x80000000 then code else -code

/-- What an error of the system says of a file. -/
def readErrorOf : IO.Error → ReadError
  | .noFileOrDirectory .. => .notFound
  | .inappropriateType _ code _ =>
    if systemCode code = 20 then .notDirectory else .isDirectory
  | .invalidArgument name code details =>
    if systemCode code = 36 then .nameTooLong
    else .other (toString (IO.Error.invalidArgument name code details))
  | error => .other (toString error)

/-- The file system as the surroundings of a command line. -/
def fileSystem : Host IO where
  isPresent path := do
    match ← (IO.FS.readBinFile path).toBaseIO with
    | .ok _ => return true
    | .error error => return readErrorOf error ∉ [.notFound, .notDirectory, .nameTooLong]
  read path := do
    match ← (IO.FS.readBinFile path).toBaseIO with
    | .error error => return .error (readErrorOf error)
    | .ok bytes =>
      match String.fromUTF8? bytes with
      | some text => return .ok text
      | none => return .error .notUtf8
  print text := IO.print text
  timed action := do
    let start ← IO.monoNanosNow
    let result ← action ()
    let stop ← IO.monoNanosNow
    return (result, toString ((stop - start) / 1000))

end LinearScan.Cli

/-- Runs a command line on the file system. -/
def main (args : List String) : IO UInt32 := do
  match ← LinearScan.Cli.run LinearScan.Cli.fileSystem args with
  | .ok _ => return 0
  | .error failure =>
    IO.eprintln failure.message
    return failure.status.toUInt32
