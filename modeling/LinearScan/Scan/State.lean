import LinearScan.Allocation
import LinearScan.Bank.Catalog
import LinearScan.Bank.Supplier
import LinearScan.Scan.Active

/-!
# The state of a scan

Everything that changes while intervals are placed: the free registers of each bank, the
active set, the stack cursor and the result so far.

## Main Definitions

* `ScanState` — the state
* `ScanState.start`, `ScanState.reset` — the state before the first interval
* `ScanState.conflicts` — whether a register shares storage with one that is held
-/

namespace LinearScan

/-- The state of a scan. -/
structure ScanState where
  /-- One supplier per bank, laid out like the catalog. -/
  suppliers : List (List Supplier)
  active : ActiveSet
  stackBase : Nat
  /-- Where the next spill slot starts. -/
  cursor : Nat
  assignment : Assignment
  spills : Nat
  evictions : Nat
  events : Array Event

namespace ScanState

/-- The state before the first run over a catalog. -/
def start (catalog : Catalog) (stackBase : Nat) : ScanState where
  suppliers := catalog.classes.map fun sizeClass => sizeClass.banks.map Supplier.ofBank
  active := .empty
  stackBase
  cursor := stackBase
  assignment := .empty
  spills := 0
  evictions := 0
  events := #[]

/-- The state before a further run: every register is free again and nothing is placed. -/
def reset (state : ScanState) (stackBase : Nat) : ScanState where
  suppliers := state.suppliers.map fun suppliers => suppliers.map Supplier.reset
  active := .empty
  stackBase
  cursor := stackBase
  assignment := .empty
  spills := 0
  evictions := 0
  events := #[]

/-- Adds a record to the log. -/
def log (state : ScanState) (event : Event) : ScanState :=
  { state with events := state.events.push event }

/-- Gives up with a fault. -/
def halt (state : ScanState) (fault : Fault) : Except Halt α :=
  .error ⟨fault, state.events⟩

/-- Gives up where a check fails. -/
def guard (state : ScanState) : Except Fault α → Except Halt α
  | .ok value => .ok value
  | .error fault => state.halt fault

/-- The supplier of a bank. -/
def supplier? (state : ScanState) (bank : BankRef) : Option Supplier := do
  let suppliers ← state.suppliers[bank.sizeIndex]?
  suppliers[bank.bankIndex]?

/-- Replaces the supplier of a bank. -/
def setSupplier (state : ScanState) (bank : BankRef) (supplier : Supplier) : ScanState :=
  { state with
    suppliers := state.suppliers.modify bank.sizeIndex (·.set bank.bankIndex supplier) }

/-- Whether a register shares storage with one that is held.  What is held has to be in the
file. -/
def conflicts (state : ScanState) (file : RegisterFile) (candidate : RegisterId) :
    Except Fault Bool :=
  state.active.entries.anyM fun held => file.intersectsChecked held.register candidate

end ScanState

end LinearScan
