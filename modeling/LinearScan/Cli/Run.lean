import LinearScan.Bank.Cache
import LinearScan.Cli.Arguments
import LinearScan.Cli.Host
import LinearScan.Ir.Program
import LinearScan.Options.File
import LinearScan.Report
import LinearScan.Target.File

/-!
# The command line

Reads a target, options and a program, allocates registers and reports the result.

## Main Definitions

* `Cli.Failure` — why there is no report
* `Cli.runInvocation` — what an invocation does
* `Cli.run` — what a command line does

## Design Notes

The target is read first, then the options, and the catalog is built before the program
is opened, so of several bad inputs the first in this order is reported.  With verbose
output the log is printed among the reports, as it comes about.
-/

namespace LinearScan.Cli

/-- Why there is no report. -/
inductive Failure where
  | usage (error : UsageError)
  | target (error : TargetError)
  | targetUnreadable (path : String) (error : ReadError)
  | targetInvalid (path : String) (error : TargetTextError)
  | configUnreadable (path : String) (error : ReadError)
  | configInvalid (path : String) (error : Toml.Error)
  | catalog (target : String) (error : CatalogError)
  | programUnreadable (path : String) (error : ReadError)
  | program (error : ParseError)
  /-- The allocator broke off. -/
  | fault (cause : Fault)
deriving DecidableEq

/-- What a failure says. -/
def Failure.message : Failure → String
  | usage error => error.message
  | target error => error.message
  | targetUnreadable path error => s!"couldn't read target file {path}: {error.message}"
  | targetInvalid path error => s!"invalid target file {path}: {error.message}"
  | configUnreadable path error => s!"couldn't read config {path}: {error.message}"
  | configInvalid path error => s!"invalid config {path}: {error.message}"
  | catalog name error => s!"target {name}: {error.message}"
  | programUnreadable path error => s!"couldn't read {path}: {error.message}"
  | program error => error.message
  | fault cause => cause.message

/-- The exit status that a failure leads to. -/
def Failure.status : Failure → Nat
  | fault _ => 101
  | _ => 1

/-- The option file that is read if none is named. -/
def defaultConfig : String := "regalloc.toml"

/-- A text whose lines, from the second on, are set in by four blanks. -/
def hangingIndent (text : String) : String :=
  String.ofList (text.toList.flatMap fun c => if c = '\n' then "\n    ".toList else [c])

/-- A record of the log as output: one line, or more if its message has more. -/
def logLine (event : Event) : String :=
  let level := event.level.name
  let padding := String.ofList (List.replicate (5 - level.length) ' ')
  s!"[{level}{padding} {event.origin}] {hangingIndent event.message}\n"

section

variable {m : Type → Type} [Monad m]

/-- Passes on a result, or fails for the given reason. -/
def orFail (reason : ε → Failure) : Except ε α → ExceptT Failure m α
  | .ok value => pure value
  | .error error => throw (reason error)

/-- Passes on a result, or breaks off with what was logged up to a fault. -/
def orBreakOff (log : List Event → ExceptT Failure m Unit) :
    Except Halt α → ExceptT Failure m α
  | .ok value => pure value
  | .error halt => do
    log halt.events.toList
    throw (.fault halt.fault)

/-- The target of a name or path.  A built-in target hides a file of its name. -/
def loadTarget (host : Host m) (name : String) : ExceptT Failure m Target := do
  match TargetDecl.builtin? name with
  | some decl => orFail .target decl.toTarget
  | none =>
    if ← host.isPresent name then
      let source ← orFail (.targetUnreadable name) (← host.read name)
      orFail (.targetInvalid name) (Target.ofText source)
    else
      throw (.target (.unknownTarget name))

/-- The options in a file. -/
def readOptions (host : Host m) (path : String) : ExceptT Failure m Options := do
  let source ← orFail (.configUnreadable path) (← host.read path)
  orFail (.configInvalid path) (Options.ofText source)

/-- The options in the named file, else those in the default file if there is one, else
the defaults. -/
def loadOptions (host : Host m) (config : Option String) : ExceptT Failure m Options := do
  match config with
  | some path => readOptions host path
  | none =>
    if ← host.isPresent defaultConfig then readOptions host defaultConfig
    else return {}

/-- The instructions in a file. -/
def readProgram (host : Host m) (path : String) : m (Except Failure (List Instr)) :=
  ExceptT.run do
    let source ← orFail (.programUnreadable path) (← host.read path)
    orFail .program (Program.ofText source)

/-- What an invocation does. -/
def runInvocation (host : Host m) (invocation : Invocation) : ExceptT Failure m Unit := do
  let log (events : List Event) : ExceptT Failure m Unit :=
    if invocation.verbose then host.print (String.join (events.map logLine)) else pure ()
  let target ← loadTarget host invocation.target
  let options ← loadOptions host invocation.config
  let fetched ← orFail (.catalog target.name) (CatalogCache.empty.fetch target)
  log fetched.events
  let (parsed, parseTime) ← host.timed fun _ => readProgram host invocation.file
  let instrs ← orFail id parsed
  let operations := instrs.map Instr.operation
  if invocation.dumpIntervals then
    let liveness ← orBreakOff log (Liveness.compute operations)
    log liveness.events.toList
    host.print (Report.intervals liveness.intervals)
  let allocator := Allocator.ofCatalog fetched.catalog options
  let (outcome, allocationTime) ← host.timed fun _ => pure (allocator.run operations)
  let run ← orBreakOff log outcome
  log run.events.toList
  if run.allocation.assignment.size = 0 then
    log [.noTemps invocation.file]
  match invocation.form with
  | .listing => host.print (Report.listing fetched.catalog run.allocation)
  | .json => host.print (Report.json fetched.catalog run.allocation)
  if invocation.verbose then
    host.print s!"Parse time: {parseTime} us\nRegalloc: {allocationTime} us\n"

/-- What a command line does. -/
def run (host : Host m) (args : List String) : m (Except Failure Unit) :=
  ExceptT.run do
    let invocation ← orFail .usage (Invocation.ofArguments args)
    runInvocation host invocation

end

end LinearScan.Cli
