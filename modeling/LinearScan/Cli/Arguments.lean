/-!
# Command line arguments

## Main Definitions

* `Cli.Invocation` — what the command line asks for
* `Cli.Invocation.ofArguments` — reads the arguments

## Design Notes

Of repeated options, and of several file names, the last one counts.
-/

namespace LinearScan.Cli

/-- The form in which an allocation is reported. -/
inductive ReportForm where
  | listing
  | json
deriving DecidableEq

/-- What the command line asks for. -/
structure Invocation where
  /-- Whether the log and the times are shown. -/
  verbose : Bool
  /-- Whether the live intervals are shown. -/
  dumpIntervals : Bool
  form : ReportForm
  /-- The name of a built-in target, or the path of a target file. -/
  target : String
  /-- The path of an option file. -/
  config : Option String
  /-- The path of the program. -/
  file : String
deriving DecidableEq

/-- Why the arguments ask for nothing. -/
inductive UsageError where
  | help
  | missingValue (flag : String)
  | unknownFlag (flag : String)
  | unknownForm (name : String)
  | missingFile
deriving DecidableEq

/-- How the program is called. -/
def usage : String :=
  "usage: lsra <file.ir> [-t x86_64|i386|target.toml] [-c regalloc.toml] "
    ++ "[--emit listing|json] [--dump-intervals] [-v]"

/-- What a usage error says. -/
def UsageError.message : UsageError → String
  | help => usage
  | missingValue flag => s!"{flag} expects a value\n{usage}"
  | unknownFlag flag => s!"Unknown flag {flag}\n{usage}"
  | unknownForm name => s!"Unknown emit type : {name}"
  | missingFile => s!"Expected file input\n{usage}"

/-- The arguments read so far. -/
structure Draft where
  verbose : Bool := false
  dumpIntervals : Bool := false
  form : ReportForm := .listing
  target : String := "x86_64"
  config : Option String := none
  file : Option String := none

/-- The report form of a name. -/
def ReportForm.ofName (name : String) : Except UsageError ReportForm :=
  if name = "listing" then .ok .listing
  else if name = "json" then .ok .json
  else .error (.unknownForm name)

/-- Whether an option takes a value. -/
def takesValue (flag : String) : Bool :=
  flag ∈ ["-t", "--target", "-c", "--config", "-e", "--emit"]

/-- Reads an option that takes a value. -/
def Draft.setValue (draft : Draft) (flag value : String) : Except UsageError Draft :=
  if flag ∈ ["-t", "--target"] then .ok { draft with target := value }
  else if flag ∈ ["-c", "--config"] then .ok { draft with config := some value }
  else (ReportForm.ofName value).map fun form => { draft with form }

/-- Reads an argument that stands alone. -/
def Draft.setSingle (draft : Draft) (arg : String) : Except UsageError Draft :=
  if arg ∈ ["-v", "--verbose"] then .ok { draft with verbose := true }
  else if arg = "--dump-intervals" then .ok { draft with dumpIntervals := true }
  else if arg ∈ ["-h", "--help"] then .error .help
  else if arg.toList.head? = some '-' then .error (.unknownFlag arg)
  else .ok { draft with file := some arg }

/-- Reads arguments from left to right. -/
def Draft.read (draft : Draft) : List String → Except UsageError Draft
  | [] => .ok draft
  | arg :: rest =>
    if takesValue arg then
      match rest with
      | [] => .error (.missingValue arg)
      | value :: rest => do
        let draft ← draft.setValue arg value
        draft.read rest
    else do
      let draft ← draft.setSingle arg
      draft.read rest

/-- Reads the arguments of a command line. -/
def Invocation.ofArguments (args : List String) : Except UsageError Invocation := do
  let draft ← ({} : Draft).read args
  match draft.file with
  | none => .error .missingFile
  | some file =>
    return { verbose := draft.verbose
             dumpIntervals := draft.dumpIntervals
             form := draft.form
             target := draft.target
             config := draft.config
             file }

end LinearScan.Cli
