import LinearScan.Interval

/-!
# Events

Building a catalog, computing liveness and allocating registers leave a log of what
they did and of what they found odd.  Its records are values like any other result.

## Main Definitions

* `Event` — one record, with what happened as data
* `Event.level`, `Event.origin`, `Event.message` — how a record reads
* `Halt` — a fault, with the log up to it
-/

namespace LinearScan

/-- How much a record matters. -/
inductive Level where
  | warn
  | debug
deriving DecidableEq

/-- The name of a level. -/
def Level.name : Level → String
  | warn => "WARN"
  | debug => "DEBUG"

/-- Items between brackets, separated by commas. -/
def bracketed (items : List String) : String :=
  "[" ++ ", ".intercalate items ++ "]"

/-- One record of the log. -/
inductive Event where
  /-- The banks of a target were put together. -/
  | catalogBuilt (target : String) (sizes : List Nat) (banks : Nat)
  /-- A temp is mentioned behind the end of its interval. -/
  | referencedAfterFree (temp : TempId) (position : Nat)
  /-- A temp is freed again. -/
  | freedTwice (temp : TempId) (position : Nat)
  /-- Some temps are never freed. -/
  | unfreed (temps : List TempId)
  /-- An interval holds a register from here on. -/
  | placed (interval : Interval) (register : String)
  /-- An interval has a slot of the spill area. -/
  | spilled (interval : Interval) (offset : Nat)
  /-- An interval loses its register to an incoming one. -/
  | evicted (victim : Interval) (register : String) (incoming : Interval)
  /-- A run is complete. -/
  | finished (temps spills evictions live frameSize : Nat)
  /-- A program file mentions no temp at all. -/
  | noTemps (file : String)
deriving DecidableEq

namespace Event

/-- How much a record matters: what is odd is a warning, all else for debugging. -/
def level : Event → Level
  | referencedAfterFree .. | freedTwice .. | unfreed .. | noTemps .. => .warn
  | catalogBuilt .. | placed .. | spilled .. | evicted .. | finished .. => .debug

/-- The part of the program that a record names as its origin. -/
def origin : Event → String
  | catalogBuilt .. => "lsra::bank::catalog"
  | referencedAfterFree .. | freedTwice .. | unfreed .. => "lsra::regalloc::liveness"
  | placed .. | finished .. => "lsra::regalloc::allocation"
  | spilled .. | evicted .. => "lsra::regalloc::spill"
  | noTemps .. => "lsra"

/-- What a record says. -/
def message : Event → String
  | catalogBuilt target sizes banks =>
    s!"Built bank catalog for {target}: sizes {bracketed (sizes.map Nat.repr)}, {banks} banks"
  | referencedAfterFree temp position =>
    s!"{temp.text} referenced at {position} after being freed"
  | freedTwice temp position =>
    s!"{temp.text} freed twice, second free at {position} ignored"
  | unfreed temps =>
    s!"{temps.length} unfreed registers encountered, this indicates a defect in IR generation: "
      ++ bracketed (temps.map TempId.describe)
  | placed interval register => s!"{interval.text} -> {register}"
  | spilled interval offset => s!"{interval.text} -> stack+{offset}"
  | evicted victim register incoming =>
    s!"{victim.text} evicted from {register} by {incoming.text}"
  | finished temps spills evictions live frameSize =>
    s!"Allocated {temps} temps, {spills} spilled ({evictions} evicted), "
      ++ s!"{live} live at exit, frame size {frameSize}"
  | noTemps file => s!"{file} defines no temps"

/-- A record behind the name of its level. -/
def text (event : Event) : String :=
  s!"{event.level.name} {event.message}"

end Event

/-- A computation that met a fault, with the log up to it. -/
structure Halt where
  fault : Fault
  events : Array Event

end LinearScan
