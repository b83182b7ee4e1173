import LinearScan.Liveness
import LinearScan.Scan.Step

/-!
# Allocators

An allocator serves any number of runs over one catalog with one set of options.

## Main Definitions

* `Allocator` — a catalog, options, and what the last run left behind
* `Allocator.runIntervals` — allocates intervals that are sorted by start
* `Allocator.runFrom`, `Allocator.run` — allocate a program

## Design Notes

The state of the last run is kept and reset when the next one starts, so the suppliers
are laid out once per allocator.
-/

namespace LinearScan

/-- A linear scan allocator over one catalog. -/
structure Allocator where
  catalog : Catalog
  options : Options
  /-- What the last run left behind. -/
  state : ScanState

/-- A completed run. -/
structure CompletedRun where
  allocation : Allocation
  events : Array Event
  /-- The allocator, ready for the next run. -/
  allocator : Allocator

/-- Whether intervals are in ascending order of their starts. -/
def sortedByStart : List Interval → Bool
  | [] | [_] => true
  | a :: b :: rest => a.start ≤ b.start && sortedByStart (b :: rest)

namespace ScanState

/-- The callee-saved registers that temps live in, all of which have to be in the file. -/
def calleeSaved (state : ScanState) (file : RegisterFile) : Except Fault (List RegisterId) :=
  state.assignment.registers.filterM fun id => do return (← file.get id).calleeSaved

/-- The result of a scan that has placed all its intervals. -/
def allocation (state : ScanState) (calleeSaved : List RegisterId) : Allocation where
  assignment := state.assignment
  stackBase := state.stackBase
  frameSize := state.cursor
  spills := state.spills
  evictions := state.evictions
  calleeSaved
  diagnostics := []

/-- The record of a scan that has placed all its intervals. -/
def finishedEvent (state : ScanState) : Event :=
  .finished state.assignment.size state.spills state.evictions state.active.size state.cursor

end ScanState

namespace Allocator

/-- An allocator that has not run yet. -/
def ofCatalog (catalog : Catalog) (options : Options) : Allocator :=
  ⟨catalog, options, .start catalog options.stackBase⟩

/-- Allocates intervals, which must be sorted by start, in a frame of which the given
number of bytes are reserved. -/
def runIntervals (allocator : Allocator) (intervals : List Interval) (stackBase : Nat) :
    Except Halt CompletedRun :=
  if !sortedByStart intervals then .error ⟨.unsortedIntervals, #[]⟩
  else do
    let state ← (allocator.state.reset stackBase).placeAll allocator.catalog allocator.options 0
      intervals
    let calleeSaved ← state.guard (state.calleeSaved allocator.catalog.registers)
    return { allocation := state.allocation calleeSaved
             events := state.events.push state.finishedEvent
             allocator := { allocator with state } }

/-- The outcome for a program, from its liveness and the outcome for its intervals. -/
def report (liveness : Liveness) : Except Halt CompletedRun → Except Halt CompletedRun
  | .error halt => .error { halt with events := liveness.events ++ halt.events }
  | .ok run =>
    let diagnostics :=
      if liveness.unfreed.isEmpty then [] else [.unfreedTemps liveness.unfreed]
    .ok { run with
      allocation := { run.allocation with diagnostics }
      events := liveness.events ++ run.events }

/-- Allocates every temp of a program, in a frame of which the given number of bytes are
reserved. -/
def runFrom (allocator : Allocator) (operations : List Operation) (stackBase : Nat) :
    Except Halt CompletedRun := do
  let liveness ← Liveness.compute operations
  report liveness (allocator.runIntervals liveness.intervals stackBase)

/-- Allocates every temp of a program in a frame as the options describe it. -/
def run (allocator : Allocator) (operations : List Operation) : Except Halt CompletedRun :=
  allocator.runFrom operations allocator.options.stackBase

end Allocator

end LinearScan
