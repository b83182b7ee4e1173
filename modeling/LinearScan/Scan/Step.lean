import LinearScan.Options
import LinearScan.Scan.State

/-!
# Placing one interval

The steps that a scan takes for each interval: hand back what has expired, look for a
register, and where there is none decide who goes to the stack.

## Main Definitions

* `ScanState.expire` — hands back the registers of intervals that have ended
* `ScanState.find` — first fit over the banks that admit an interval
* `ScanState.spill` — evicts the interval that expires last, or spills the incoming one
* `ScanState.place` — all of it for one interval

## Design Notes

An interval that ends where another starts is still live there, so its register is not
free.  An evicted interval leaves its register, together with the bank it was taken
from, to the interval that evicts it; the bank's flag stays as it is.
-/

namespace LinearScan

/-- The largest offset that a frame can have, that of 32 bits. -/
def maxFrame : Nat := 4294967295

/-- What a search for a register finds. -/
structure Found where
  register : RegisterId
  bank : BankRef
  /-- The bank's supplier, from which the register is now missing. -/
  supplier : Supplier

namespace ScanState

/-- Hands a register back to the bank that it was taken from. -/
def giveBack (state : ScanState) (held : Held) : Except Halt ScanState :=
  match state.supplier? held.bank with
  | none => state.halt (.unknownBank held.bank.sizeIndex held.bank.bankIndex)
  | some supplier =>
    match supplier.giveBack held.register with
    | .error fault => state.halt fault
    | .ok supplier => .ok (state.setSupplier held.bank supplier)

/-- Retires the intervals that ended before a position and hands their registers back. -/
def expire (state : ScanState) (position : Nat) : Except Halt ScanState :=
  let (expired, active) := state.active.expireBefore position
  expired.foldlM giveBack { state with active }

/-- The first register, by ascending bank size and then in order of preference, that is
free, can hold an interval and shares no storage with a held register.  The search starts
at the closest size class at or below the interval's size. -/
def find (state : ScanState) (catalog : Catalog) (interval : Interval) :
    Except Fault (Option Found) :=
  let first := (catalog.closestIndex? interval.size).getD 0
  let admissible (register : RegisterId) : Except Fault Bool := do
    return !(← state.conflicts catalog.registers register)
  (state.suppliers.zipIdx.drop first).findSomeM? fun (suppliers, sizeIndex) =>
    suppliers.zipIdx.findSomeM? fun (supplier, bankIndex) => do
      if supplier.bank.admits interval.type interval.size then
        let taken ← supplier.nextM admissible
        return taken.map fun (register, supplier) =>
          { register, bank := ⟨sizeIndex, bankIndex⟩, supplier }
      else return none

/-- Binds an interval to a register and makes it active. -/
def activate (state : ScanState) (file : RegisterFile) (seq : Nat) (interval : Interval)
    (register : RegisterId) (bank : BankRef) : Except Halt ScanState :=
  match file.name register with
  | .error fault => state.halt fault
  | .ok name =>
    let state := state.log (.placed interval name)
    .ok { state with
      assignment := state.assignment.insert interval.temp (.register register)
      active := state.active.insert { interval, seq, register, bank } }

/-- Gives an interval the next slot of the spill area. -/
def assignStack (state : ScanState) (interval : Interval) : Except Halt ScanState :=
  let offset := state.cursor
  if maxFrame < offset + interval.size then
    state.halt (.frameOverflow offset interval.size)
  else
    let state := state.log (.spilled interval offset)
    .ok { state with
      cursor := offset + interval.size
      assignment := state.assignment.insert interval.temp (.stack offset)
      spills := state.spills + 1 }

/-- Whether a held register is to be taken from its interval for an incoming one: the
holder outlives the incoming interval, and the bank of its register admits it. -/
def yields (supplier : Supplier) (held : Held) (interval : Interval) : Bool :=
  interval.stop < held.interval.stop && supplier.bank.admits interval.type interval.size

/-- Takes the register of a held interval, which goes to the stack. -/
def evict (state : ScanState) (file : RegisterFile) (seq : Nat) (victim : Held)
    (interval : Interval) : Except Halt ScanState :=
  match file.name victim.register with
  | .error fault => state.halt fault
  | .ok name => do
    let state := { state with active := state.active.dropLast }
    let state := state.log (.evicted victim.interval name interval)
    let state ← state.assignStack victim.interval
    let state := { state with evictions := state.evictions + 1 }
    state.activate file seq interval victim.register victim.bank

/-- Finds a place for an interval for which no register is free: the register of the
interval that expires last, if that one yields it, or else the stack. -/
def spill (state : ScanState) (file : RegisterFile) (eviction : Bool) (seq : Nat)
    (interval : Interval) : Except Halt ScanState :=
  if eviction then
    match state.active.last? with
    | none => state.assignStack interval
    | some victim =>
      match state.supplier? victim.bank with
      | none => state.halt (.unknownBank victim.bank.sizeIndex victim.bank.bankIndex)
      | some supplier =>
        if yields supplier victim interval then state.evict file seq victim interval
        else state.assignStack interval
  else state.assignStack interval

/-- Places the interval with the given place in the scan. -/
def place (catalog : Catalog) (options : Options) (state : ScanState) (seq : Nat)
    (interval : Interval) : Except Halt ScanState :=
  if options.allStack then state.assignStack interval
  else do
    let state ← state.expire interval.start
    match ← state.guard (state.find catalog interval) with
    | some found =>
      (state.setSupplier found.bank found.supplier).activate catalog.registers seq interval
        found.register found.bank
    | none => state.spill catalog.registers options.eviction seq interval

/-- Places intervals in order, the first of which has the given place in the scan. -/
def placeAll (catalog : Catalog) (options : Options) (state : ScanState) (seq : Nat) :
    List Interval → Except Halt ScanState
  | [] => .ok state
  | interval :: rest => do
    let state ← state.place catalog options seq interval
    state.placeAll catalog options (seq + 1) rest

end ScanState

end LinearScan
