import LinearScan.Bank.Basic
import LinearScan.Fault

/-!
# Suppliers

A supplier knows which registers of its bank are free during one allocation run.

## Main Definitions

* `Supplier` — a bank with one flag per register
* `Supplier.nextM`, `Supplier.next?` — take the first register that is free and suits the
  caller
* `Supplier.giveBack` — returns a register

## Design Notes

Flags stand in the order of the bank's registers, and that there is one for each of them
is part of a supplier.  A place in the bank is therefore always a place among the flags.
Since a bank holds no register twice, the place a register is taken from is the place it
is found at when it comes back.
-/

namespace LinearScan

/-- Which registers of a bank are free. -/
structure Supplier where
  bank : Bank
  /-- One flag per register of the bank, in its order. -/
  free : List Bool
  length_free : free.length = bank.registers.length

namespace Supplier

/-- All registers of a bank are free. -/
def ofBank (bank : Bank) : Supplier :=
  ⟨bank, bank.registers.map fun _ => true, List.length_map _⟩

/-- Makes every register free again. -/
def reset (supplier : Supplier) : Supplier where
  bank := supplier.bank
  free := supplier.free.map fun _ => true
  length_free := (List.length_map _).trans supplier.length_free

/-- The flag at a place of the bank. -/
def flag (supplier : Supplier) (slot : Fin supplier.bank.registers.length) : Bool :=
  supplier.free.get (slot.cast supplier.length_free.symm)

/-- Changes the flag at a place of the bank. -/
def setFlag (supplier : Supplier) (slot : Fin supplier.bank.registers.length) (free : Bool) :
    Supplier where
  bank := supplier.bank
  free := supplier.free.set slot free
  length_free := List.length_set.trans supplier.length_free

/-- The place of a register in the bank. -/
def slot? (supplier : Supplier) (register : RegisterId) :
    Option (Fin supplier.bank.registers.length) :=
  supplier.bank.registers.findFinIdx? (· == register)

/-- Whether a register of the bank is free; other registers are not. -/
def isFree (supplier : Supplier) (register : RegisterId) : Bool :=
  match supplier.slot? register with
  | some slot => supplier.flag slot
  | none => false

/-- Takes the first register, in order of preference, that is free and admissible.  What is
not free is not tested. -/
def nextM {m : Type → Type} [Monad m] (supplier : Supplier) (admissible : RegisterId → m Bool) :
    m (Option (RegisterId × Supplier)) := do
  let slot? ← (List.finRange supplier.bank.registers.length).findM? fun slot =>
    if supplier.flag slot then admissible (supplier.bank.registers.get slot) else pure false
  return slot?.map fun slot => (supplier.bank.registers.get slot, supplier.setFlag slot false)

/-- Takes the first register that is free and passes a test. -/
def next? (supplier : Supplier) (admissible : RegisterId → Bool) :
    Option (RegisterId × Supplier) :=
  Id.run (supplier.nextM fun register => pure (admissible register))

/-- Returns a register that was taken.  Registers of other banks are ignored. -/
def giveBack (supplier : Supplier) (register : RegisterId) : Except Fault Supplier :=
  match supplier.slot? register with
  | none => .ok supplier
  | some slot =>
    if supplier.isFree register then .error (.returnedTwice register)
    else .ok (supplier.setFlag slot true)

end Supplier

end LinearScan
