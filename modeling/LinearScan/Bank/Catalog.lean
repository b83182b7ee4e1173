import LinearScan.Bank.Basic
import LinearScan.Target.Basic

/-!
# Bank catalogs

A catalog groups the entries of a target into banks, by the value size they serve and
then by predicate.

## Main Definitions

* `SizeClass` — the banks of one value size
* `Catalog`, `Catalog.build` — all banks of a target, smallest size first
* `Catalog.search` — the class of a size, or its place among the others
* `Catalog.closestIndex?` — the size class at or below a size

## Design Notes

Registers that must not be handed out are left out of their banks, but a bank without
registers stays on record.  Predicates of one name share a bank, which keeps the test of
the entry that made it.
-/

namespace LinearScan

/-- The banks of one value size. -/
structure SizeClass where
  size : Nat
  /-- In order of preference. -/
  banks : List Bank

namespace SizeClass

/-- Records in the bank of its predicate that a register is served there.  A predicate met
for the first time gets a bank behind the others; without a register it stays empty. -/
def addToBanks (size : Nat) (predicate : TypePredicate) (register? : Option RegisterId) :
    List Bank → List Bank
  | [] => [register?.elim (Bank.empty size predicate) (Bank.empty size predicate).push]
  | bank :: rest =>
    if bank.predicate.name = predicate.name then register?.elim bank bank.push :: rest
    else bank :: addToBanks size predicate register? rest

/-- Records a register among size classes in ascending order. -/
def add (size : Nat) (predicate : TypePredicate) (register? : Option RegisterId) :
    List SizeClass → List SizeClass
  | [] => [⟨size, addToBanks size predicate register? []⟩]
  | sizeClass :: rest =>
    if size < sizeClass.size then
      ⟨size, addToBanks size predicate register? []⟩ :: sizeClass :: rest
    else if size = sizeClass.size then
      ⟨size, addToBanks size predicate register? sizeClass.banks⟩ :: rest
    else
      sizeClass :: add size predicate register? rest

/-- Records an entry under each of its sizes. -/
def addEntry (registers : RegisterFile) (classes : List SizeClass) (entry : Entry) :
    List SizeClass :=
  let register? := if registers.isUsable entry.register then some entry.register else none
  entry.sizes.foldl (fun classes size => add size entry.accepts register? classes) classes

end SizeClass

/-- Every bank of a target. -/
structure Catalog where
  /-- The name of the target. -/
  name : String
  /-- The identity of the target. -/
  identity : String
  registers : RegisterFile
  /-- Ascending by size. -/
  classes : List SizeClass

/-- Why a target has no catalog. -/
inductive CatalogError where
  | noAllocatableRegister (target : String)
deriving DecidableEq

/-- What a catalog error says. -/
def CatalogError.message : CatalogError → String
  | noAllocatableRegister target => s!"target {target} has no allocatable register"

namespace Catalog

/-- Groups the entries of a target into banks. -/
def build (target : Target) : Except CatalogError Catalog :=
  let classes := target.entries.foldl (SizeClass.addEntry target.registers) []
  if classes.all fun sizeClass => sizeClass.banks.all (·.registers.isEmpty) then
    .error (.noAllocatableRegister target.name)
  else
    .ok { name := target.name
          identity := target.identity
          registers := target.registers
          classes }

/-- The distinct bank sizes, ascending. -/
def sizes (catalog : Catalog) : List Nat :=
  catalog.classes.map (·.size)

/-- Every bank, smallest size first. -/
def banks (catalog : Catalog) : List Bank :=
  catalog.classes.flatMap (·.banks)

/-- The place of a size among the classes: the first class that is not smaller. -/
def place (catalog : Catalog) (size : Nat) : Nat :=
  catalog.classes.findIdx (size ≤ ·.size)

/-- What a binary search for a size finds: the index of its class, or, as an error, the place
where such a class would have to be inserted. -/
def search (catalog : Catalog) (size : Nat) : Except Nat (Fin catalog.classes.length) :=
  if inside : catalog.place size < catalog.classes.length then
    if (catalog.classes.get ⟨catalog.place size, inside⟩).size = size then
      .ok ⟨catalog.place size, inside⟩
    else .error (catalog.place size)
  else .error (catalog.place size)

/-- The banks of exactly a size, in order of preference. -/
def banksFor (catalog : Catalog) (size : Nat) : List Bank :=
  match catalog.search size with
  | .ok index => (catalog.classes.get index).banks
  | .error _ => []

/-- The index of the size class of a size, or of the next smaller one; none if the size is
smaller than every class. -/
def closestIndex? (catalog : Catalog) (size : Nat) : Option Nat :=
  match catalog.search size with
  | .ok index => some index
  | .error 0 => none
  | .error (place + 1) => some place

/-- The record that a catalog was built. -/
def builtEvent (catalog : Catalog) : Event :=
  .catalogBuilt catalog.name catalog.sizes catalog.banks.length

end Catalog

end LinearScan
