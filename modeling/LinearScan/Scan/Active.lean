import LinearScan.Interval

/-!
# The active set

The intervals that hold a register at the current position, ordered by where they end.

## Main Definitions

* `BankRef` — the place of a bank in a catalog
* `Held` — an interval with the register it holds
* `ActiveSet` — all held registers, the next one to expire first

## Design Notes

Intervals that end together are ordered by their place in the scan, so no two entries
tie and the one to expire last is always determined.
-/

namespace LinearScan

/-- The place of a bank in a catalog. -/
structure BankRef where
  sizeIndex : Nat
  bankIndex : Nat
deriving DecidableEq

/-- An interval that holds a register. -/
structure Held where
  interval : Interval
  /-- The place of the interval in the scan. -/
  seq : Nat
  register : RegisterId
  /-- The bank that the register was taken from. -/
  bank : BankRef
deriving DecidableEq

/-- Whether an entry expires before another one. -/
def Held.before (a b : Held) : Bool :=
  a.interval.stop < b.interval.stop || (a.interval.stop == b.interval.stop && a.seq < b.seq)

/-- Whether two entries have the same place in the order of expiry. -/
def Held.sameKey (a b : Held) : Bool :=
  a.interval.stop == b.interval.stop && a.seq == b.seq

/-- The intervals that hold a register. -/
structure ActiveSet where
  /-- In order of expiry. -/
  entries : List Held
deriving DecidableEq

namespace ActiveSet

/-- No register is held. -/
def empty : ActiveSet :=
  ⟨[]⟩

/-- Puts an entry among entries in order of expiry, in place of one of the same key. -/
def insertEntry (held : Held) : List Held → List Held
  | [] => [held]
  | other :: rest =>
    if held.before other then held :: other :: rest
    else if held.sameKey other then held :: rest
    else other :: insertEntry held rest

/-- Adds an interval with the register it holds. -/
def insert (active : ActiveSet) (held : Held) : ActiveSet :=
  ⟨insertEntry held active.entries⟩

/-- Splits off what ends strictly before a position. -/
def expireBefore (active : ActiveSet) (position : Nat) : List Held × ActiveSet :=
  let ended (held : Held) : Bool := held.interval.stop < position
  (active.entries.takeWhile ended, ⟨active.entries.dropWhile ended⟩)

/-- The entry that expires last. -/
def last? (active : ActiveSet) : Option Held :=
  active.entries.getLast?

/-- All entries but the one that expires last. -/
def dropLast (active : ActiveSet) : ActiveSet :=
  ⟨active.entries.dropLast⟩

/-- The number of held registers. -/
def size (active : ActiveSet) : Nat :=
  active.entries.length

end ActiveSet

end LinearScan
