import LinearScan.Event

/-!
# Liveness

One pass over a program opens an interval when it meets a temp for the first time and
closes it where the temp is freed.

## Main Definitions

* `LivenessPass` — intervals, and where the interval of each temp is among them
* `Liveness.compute` — the intervals of a program, and what was odd about it
* `LivenessScan`, `Liveness.ofOperations` — the same pass, lifetime by lifetime

## Design Notes

Intervals are kept in the order of first mention.  A second free does not reopen an
interval: what comes behind the first one is reported and otherwise ignored.

A pass finds the interval of a temp by its place, so it can go wrong in two ways: the
place is not there, or a temp has none.  Either is a fault.  `LivenessScan` keeps each
interval together with what is known about its temp, and has no places to look up.
-/

namespace LinearScan

/-- An interval under construction. -/
structure Lifetime where
  interval : Interval
  /-- Whether the temp has been freed. -/
  closed : Bool
deriving DecidableEq

/-- The live intervals of a program. -/
structure Liveness where
  /-- Sorted by start; equal starts keep the order of first mention. -/
  intervals : List Interval
  /-- The temps without a free marker. -/
  unfreed : List TempId
  events : Array Event

namespace Liveness

/-- An interval that was never closed reaches to the last position. -/
def complete (last : Nat) (lifetime : Lifetime) : Interval :=
  if lifetime.closed then lifetime.interval
  else { lifetime.interval with stop := last }

/-- The live intervals of a program, from the lifetimes of its temps in order of first
mention, its last position and the records left so far. -/
def ofLifetimes (last : Nat) (lifetimes : List Lifetime) (events : Array Event) : Liveness :=
  let unfreed := (lifetimes.filter (!·.closed)).map (·.interval.temp)
  { intervals := (lifetimes.map (complete last)).mergeSort fun a b => a.start ≤ b.start
    unfreed
    events := if unfreed.isEmpty then events else events.push (.unfreed unfreed) }

end Liveness

/-! ## Intervals by their places -/

/-- What a pass knows about a temp. -/
structure Seen where
  /-- The place of its interval. -/
  index : Nat
  /-- Whether it has been freed. -/
  closed : Bool

/-- A pass over a program, with the records left on the way. -/
structure LivenessPass where
  /-- In order of first mention. -/
  intervals : Array Interval
  /-- What is known about each temp, the latest first. -/
  seen : List (TempId × Seen)
  events : Array Event

namespace LivenessPass

/-- Nothing met yet. -/
def empty : LivenessPass :=
  ⟨#[], [], #[]⟩

/-- What is known about a temp. -/
def seen? (pass : LivenessPass) (temp : TempId) : Option Seen :=
  pass.seen.lookup temp

/-- Adds a record. -/
def log (pass : LivenessPass) (event : Event) : LivenessPass :=
  { pass with events := pass.events.push event }

/-- Gives up where a check fails. -/
def guard (pass : LivenessPass) : Except Fault α → Except Halt α
  | .ok value => .ok value
  | .error fault => .error ⟨fault, pass.events⟩

/-- The interval at a place, which has to be there. -/
def interval (pass : LivenessPass) (index : Nat) : Except Fault Interval :=
  match pass.intervals[index]? with
  | some interval => .ok interval
  | none => .error (.unknownInterval index)

/-- Whether a temp, which has to be known, has been freed. -/
def isClosed (pass : LivenessPass) (temp : TempId) : Except Fault Bool :=
  match pass.seen? temp with
  | some seen => .ok seen.closed
  | none => .error (.unknownTemp temp.index)

/-- Meets one mention of a temp. -/
def touch (pass : LivenessPass) (position : Nat) (temp : Temp) : Except Halt LivenessPass :=
  match pass.seen? temp.id with
  | none => do
    let interval ← pass.guard (Interval.make temp.id position position temp.size temp.type)
    return { pass with
      intervals := pass.intervals.push interval
      seen := (temp.id, ⟨pass.intervals.size, false⟩) :: pass.seen }
  | some ⟨index, true⟩ => do
    let interval ← pass.guard (pass.interval index)
    if interval.stop < position then
      return pass.log (.referencedAfterFree temp.id position)
    else return pass
  | some ⟨_, false⟩ => .ok pass

/-- Meets a free marker, behind the mention that it is. -/
def free (pass : LivenessPass) (position : Nat) (temp : Temp) : Except Halt LivenessPass :=
  match pass.seen? temp.id with
  | some ⟨index, false⟩ => do
    let interval ← pass.guard (pass.interval index)
    return { pass with
      intervals := pass.intervals.setIfInBounds index { interval with stop := position }
      seen := (temp.id, ⟨index, true⟩) :: pass.seen }
  | _ => .ok (pass.log (.freedTwice temp.id position))

/-- Meets one operation. -/
def step (pass : LivenessPass) (position : Nat) (operation : Operation) :
    Except Halt LivenessPass := do
  let pass ← operation.mentioned.foldlM (fun pass temp => pass.touch position temp) pass
  match operation.freed with
  | some temp => pass.free position temp
  | none => return pass

/-- Meets operations in order, the first of which has the given position. -/
def run (pass : LivenessPass) (position : Nat) : List Operation → Except Halt LivenessPass
  | [] => .ok pass
  | operation :: rest => do
    let pass ← pass.step position operation
    pass.run (position + 1) rest

/-- The lifetimes that a pass has met. -/
def lifetimes (pass : LivenessPass) : Except Fault (List Lifetime) :=
  pass.intervals.toList.mapM fun interval => do
    return ⟨interval, ← pass.isClosed interval.temp⟩

end LivenessPass

/-- The live intervals of a program given by its operations. -/
def Liveness.compute (operations : List Operation) : Except Halt Liveness := do
  let pass ← LivenessPass.empty.run 0 operations
  let lifetimes ← pass.guard pass.lifetimes
  return ofLifetimes (operations.length - 1) lifetimes pass.events

/-! ## Lifetime by lifetime -/

/-- The lifetimes met so far, with the records left on the way. -/
structure LivenessScan where
  /-- In order of first mention. -/
  lifetimes : List Lifetime
  events : Array Event

namespace LivenessScan

/-- Nothing met yet. -/
def empty : LivenessScan :=
  ⟨[], #[]⟩

/-- The lifetime of a temp. -/
def find? (scan : LivenessScan) (temp : TempId) : Option Lifetime :=
  scan.lifetimes.find? fun lifetime => lifetime.interval.temp == temp

/-- Adds a record. -/
def log (scan : LivenessScan) (event : Event) : LivenessScan :=
  { scan with events := scan.events.push event }

/-- Meets one mention of a temp. -/
def touch (scan : LivenessScan) (position : Nat) (temp : Temp) : LivenessScan :=
  match scan.find? temp.id with
  | none =>
    { scan with lifetimes := scan.lifetimes ++ [⟨.point temp position, false⟩] }
  | some lifetime =>
    if lifetime.closed && lifetime.interval.stop < position then
      scan.log (.referencedAfterFree temp.id position)
    else scan

/-- Ends the open lifetime of a temp. -/
def close (lifetimes : List Lifetime) (temp : TempId) (position : Nat) : List Lifetime :=
  lifetimes.map fun lifetime =>
    if lifetime.interval.temp = temp then
      ⟨{ lifetime.interval with stop := position }, true⟩
    else lifetime

/-- Meets a free marker, behind the mention that it is. -/
def free (scan : LivenessScan) (position : Nat) (temp : Temp) : LivenessScan :=
  match scan.find? temp.id with
  | some ⟨_, false⟩ => { scan with lifetimes := close scan.lifetimes temp.id position }
  | _ => scan.log (.freedTwice temp.id position)

/-- Meets one operation. -/
def step (scan : LivenessScan) (position : Nat) (operation : Operation) : LivenessScan :=
  let scan := operation.mentioned.foldl (fun scan temp => scan.touch position temp) scan
  match operation.freed with
  | some temp => scan.free position temp
  | none => scan

/-- Meets operations in order, the first of which has the given position. -/
def run (scan : LivenessScan) (position : Nat) : List Operation → LivenessScan
  | [] => scan
  | operation :: rest => (scan.step position operation).run (position + 1) rest

end LivenessScan

/-- The live intervals of a program, lifetime by lifetime. -/
def Liveness.ofOperations (operations : List Operation) : Liveness :=
  let scan := LivenessScan.empty.run 0 operations
  ofLifetimes (operations.length - 1) scan.lifetimes scan.events

end LinearScan
