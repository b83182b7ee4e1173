import LinearScan.Proofs.Bank.Supplier
import LinearScan.Proofs.Scan.Active

/-!
# Free flags against a bare list of holders

The scan keeps a free flag per bank and register.  One register sits in several banks, and
its flag is cleared only in the bank it was taken from; elsewhere it looks free while it is
held.  `Supplies` is the invariant that makes the flags say nothing new: **a flag is cleared
exactly if a holder has that very register from that very bank**.

It is preserved by the three things that happen to flags: a holder hands its register back
(`Supplies.handBack`), a new one takes a register (`Supplies.take`), or takes over the
register and the bank of another (`Supplies.exchange`).  Its use is `find_eq_pick?`: the
search through flags and size classes finds what the search through all candidates finds.

That a cleared flag hides nothing is immediate, since its holder blocks the register
anyway.  That nothing is handed back twice needs more, namely that no two holders have one
register; this is why distinctness is part of the invariant.
-/

namespace LinearScan

/-- The supplier at a place. -/
def supplierAt? (suppliers : List (List Supplier)) (place : BankRef) : Option Supplier := do
  let row ← suppliers[place.sizeIndex]?
  row[place.bankIndex]?

/-- The supplier at a place is replaced. -/
def setSupplierAt (suppliers : List (List Supplier)) (place : BankRef) (supplier : Supplier) :
    List (List Supplier) :=
  suppliers.modify place.sizeIndex (·.set place.bankIndex supplier)

theorem ScanState.supplier?_eq (state : ScanState) (place : BankRef) :
    state.supplier? place = supplierAt? state.suppliers place := rfl

theorem ScanState.setSupplier_eq (state : ScanState) (place : BankRef) (supplier : Supplier) :
    state.setSupplier place supplier =
      { state with suppliers := setSupplierAt state.suppliers place supplier } := rfl

section Layout

variable {suppliers : List (List Supplier)} {place other : BankRef} {supplier old : Supplier}

/-- Replacing a supplier is seen at its own place alone. -/
theorem supplierAt?_setSupplierAt (found : supplierAt? suppliers place = some old) :
    supplierAt? (setSupplierAt suppliers place supplier) other =
      if other = place then some supplier else supplierAt? suppliers other := by
  obtain ⟨row, atSize, atBank⟩ := Option.bind_eq_some_iff.mp found
  obtain ⟨sizeIndex, bankIndex⟩ := place
  obtain ⟨otherSize, otherBank⟩ := other
  simp only [supplierAt?, setSupplierAt, Option.bind_eq_bind, List.getElem?_modify,
    BankRef.mk.injEq] at atSize atBank ⊢
  by_cases sameSize : sizeIndex = otherSize
  · subst sameSize
    have inside : bankIndex < row.length := (List.getElem?_eq_some_iff.mp atBank).1
    by_cases sameBank : bankIndex = otherBank
    · subst sameBank
      simp [atSize, inside]
    · simp [atSize, sameBank, Ne.symm sameBank]
  · simp [sameSize, Ne.symm sameSize]

/-- Replacing a supplier by one of the same bank keeps the banks where they are. -/
theorem map_bank_setSupplierAt (found : supplierAt? suppliers place = some old)
    (same : supplier.bank = old.bank) :
    (setSupplierAt suppliers place supplier).map (·.map Supplier.bank) =
      suppliers.map (·.map Supplier.bank) := by
  obtain ⟨row, atSize, atBank⟩ := Option.bind_eq_some_iff.mp found
  apply List.ext_getElem?
  intro index
  rw [setSupplierAt, List.getElem?_map, List.getElem?_map, List.getElem?_modify]
  by_cases here : place.sizeIndex = index
  · subst here
    rw [atSize]
    simp only [Option.map_eq_map, Option.map_some, ↓reduceIte]
    congr 1
    apply List.ext_getElem?
    intro bankIndex
    rw [List.getElem?_map, List.getElem?_map, List.getElem?_set]
    by_cases there : place.bankIndex = bankIndex
    · subst there
      rw [atBank]
      simp [(List.getElem?_eq_some_iff.mp atBank).1, same]
    · simp [there]
  · simp [here]

end Layout

/-! ## The invariant -/

/-- The flags of all banks agree with a list of holders. -/
structure Supplies (catalog : Catalog) (suppliers : List (List Supplier)) (holders : List Held) :
    Prop where
  /-- One supplier per bank, laid out like the catalog. -/
  layout : suppliers.map (·.map Supplier.bank) = catalog.classes.map (·.banks)
  /-- No bank has a register twice. -/
  nodup : ∀ place supplier, supplierAt? suppliers place = some supplier →
    supplier.bank.registers.Nodup
  /-- No register is held twice. -/
  distinct : (holders.map (·.register)).Nodup
  /-- What is held was taken from a bank of the catalog. -/
  fromBank : ∀ holder ∈ holders,
    ∃ bank, catalog.bank? holder.bank = some bank ∧ holder.register ∈ bank.registers
  /-- A flag is cleared exactly if the register is held from that very bank. -/
  taken : ∀ place supplier, supplierAt? suppliers place = some supplier →
    ∀ register ∈ supplier.bank.registers,
      (supplier.isFree register = false ↔
        ∃ holder ∈ holders, holder.bank = place ∧ holder.register = register)

namespace Supplies

variable {catalog : Catalog} {suppliers : List (List Supplier)} {holders holders' : List Held}
  {holder : Held} {place : BankRef}

/-- The suppliers have the banks of the catalog. -/
theorem map_bank (supplies : Supplies catalog suppliers holders) (place : BankRef) :
    (supplierAt? suppliers place).map Supplier.bank = catalog.bank? place := by
  have rows := congrArg (fun rows => (rows[place.sizeIndex]?).bind (·[place.bankIndex]?))
    supplies.layout
  simp only [List.getElem?_map] at rows
  rw [supplierAt?, Catalog.bank?]
  cases atSize : suppliers[place.sizeIndex]? with
  | none =>
    rw [atSize] at rows
    cases atClass : catalog.classes[place.sizeIndex]? with
    | none => rfl
    | some sizeClass =>
      rw [atClass] at rows
      simpa using rows
  | some row =>
    rw [atSize] at rows
    cases atClass : catalog.classes[place.sizeIndex]? with
    | none =>
      rw [atClass] at rows
      simpa using rows
    | some sizeClass =>
      rw [atClass] at rows
      simpa using rows

/-- A bank of the catalog has its supplier. -/
theorem exists_supplier (supplies : Supplies catalog suppliers holders) {bank : Bank}
    (found : catalog.bank? place = some bank) :
    ∃ supplier, supplierAt? suppliers place = some supplier ∧ supplier.bank = bank := by
  rw [← supplies.map_bank place] at found
  exact Option.map_eq_some_iff.mp found

/-- The flags do not know the order of the holders. -/
theorem perm (supplies : Supplies catalog suppliers holders) (same : holders.Perm holders') :
    Supplies catalog suppliers holders' where
  layout := supplies.layout
  nodup := supplies.nodup
  distinct := (same.map _).nodup_iff.mp supplies.distinct
  fromBank := fun holder member => supplies.fromBank holder (same.mem_iff.mpr member)
  taken := by
    intro place supplier found register member
    rw [supplies.taken place supplier found register member]
    constructor
    · rintro ⟨holder, isHolder, fits⟩
      exact ⟨holder, same.mem_iff.mp isHolder, fits⟩
    · rintro ⟨holder, isHolder, fits⟩
      exact ⟨holder, same.mem_iff.mpr isHolder, fits⟩

/-- A holder hands over its register and its bank, and no flag changes. -/
theorem exchange {victim : Held} (supplies : Supplies catalog suppliers (victim :: holders))
    (register : holder.register = victim.register) (bank : holder.bank = victim.bank) :
    Supplies catalog suppliers (holder :: holders) where
  layout := supplies.layout
  nodup := supplies.nodup
  distinct := by
    have distinct := supplies.distinct
    rw [List.map_cons] at distinct ⊢
    rw [register]
    exact distinct
  fromBank := by
    obtain ⟨first, others⟩ := List.forall_mem_cons.mp supplies.fromBank
    refine List.forall_mem_cons.mpr ⟨?_, others⟩
    rw [register, bank]
    exact first
  taken := by
    intro place supplier found register member
    rw [supplies.taken place supplier found register member]
    simp only [List.mem_cons, exists_eq_or_imp]
    rw [bank, ‹holder.register = victim.register›]

/-- **Changing one flag** takes the flags from one list of holders to another, if the two
lists differ in who holds that register from that bank and in nothing else. -/
theorem mark (supplies : Supplies catalog suppliers holders) {supplier : Supplier}
    {register : RegisterId} (found : supplierAt? suppliers place = some supplier)
    (member : register ∈ supplier.bank.registers) (free : Bool)
    (distinct : (holders'.map (·.register)).Nodup)
    (fromBank : ∀ holder ∈ holders',
      ∃ bank, catalog.bank? holder.bank = some bank ∧ holder.register ∈ bank.registers)
    (here : free = false ↔ ∃ holder ∈ holders', holder.bank = place ∧ holder.register = register)
    (elsewhere : ∀ otherPlace other, ¬(otherPlace = place ∧ other = register) →
      ((∃ holder ∈ holders, holder.bank = otherPlace ∧ holder.register = other) ↔
        ∃ holder ∈ holders', holder.bank = otherPlace ∧ holder.register = other)) :
    Supplies catalog (setSupplierAt suppliers place (supplier.mark register free)) holders' where
  layout := by
    rw [map_bank_setSupplierAt found (Supplier.bank_mark ..)]
    exact supplies.layout
  nodup := by
    intro otherPlace other foundOther
    rw [supplierAt?_setSupplierAt found] at foundOther
    split at foundOther
    · obtain rfl := Option.some.inj foundOther
      rw [Supplier.bank_mark]
      exact supplies.nodup _ _ found
    · exact supplies.nodup otherPlace other foundOther
  distinct := distinct
  fromBank := fromBank
  taken := by
    intro otherPlace other foundOther one isMember
    rw [supplierAt?_setSupplierAt found] at foundOther
    split at foundOther
    · next samePlace =>
      subst samePlace
      obtain rfl := Option.some.inj foundOther
      rw [Supplier.bank_mark] at isMember
      rw [Supplier.isFree_mark (supplies.nodup _ _ found) member]
      by_cases same : one = register
      · rw [if_pos same, same]
        exact here
      · rw [if_neg same, supplies.taken _ _ found one isMember]
        exact elsewhere otherPlace one fun both => same both.2
    · next differs =>
      rw [supplies.taken otherPlace other foundOther one isMember]
      exact elsewhere otherPlace one fun both => differs both.1

/-- A register that nobody holds is taken, and its flag is cleared. -/
theorem take (supplies : Supplies catalog suppliers holders) {supplier : Supplier}
    (found : supplierAt? suppliers holder.bank = some supplier)
    (member : holder.register ∈ supplier.bank.registers)
    (fresh : ∀ other ∈ holders, other.register ≠ holder.register) :
    Supplies catalog
      (setSupplierAt suppliers holder.bank (supplier.mark holder.register false))
      (holder :: holders) := by
  refine supplies.mark found member false ?_ ?_ ?_ ?_
  · rw [List.map_cons, List.nodup_cons]
    refine ⟨?_, supplies.distinct⟩
    intro twice
    obtain ⟨other, isHolder, same⟩ := List.mem_map.mp twice
    exact fresh other isHolder same
  · refine List.forall_mem_cons.mpr ⟨⟨supplier.bank, ?_, member⟩, supplies.fromBank⟩
    rw [← supplies.map_bank, found]
    rfl
  · simp
  · intro place register differs
    simp only [List.mem_cons, exists_eq_or_imp]
    constructor
    · exact Or.inr
    · rintro (⟨rfl, rfl⟩ | held)
      · exact absurd ⟨rfl, rfl⟩ differs
      · exact held

/-- A holder hands its register back, and the flag is set again.  No other flag changes,
because no other holder has that register. -/
theorem handBack (supplies : Supplies catalog suppliers (holder :: holders)) :
    ∃ supplier, supplierAt? suppliers holder.bank = some supplier ∧
      supplier.giveBack holder.register = .ok (supplier.mark holder.register true) ∧
      Supplies catalog
        (setSupplierAt suppliers holder.bank (supplier.mark holder.register true)) holders := by
  obtain ⟨⟨bank, foundBank, member⟩, others⟩ := List.forall_mem_cons.mp supplies.fromBank
  obtain ⟨supplier, found, rfl⟩ := supplies.exists_supplier foundBank
  obtain ⟨single, distinct⟩ := List.nodup_cons.mp (List.map_cons ▸ supplies.distinct)
  have cleared : supplier.isFree holder.register = false :=
    (supplies.taken _ _ found _ member).mpr ⟨holder, List.mem_cons_self, rfl, rfl⟩
  refine ⟨supplier, found, Supplier.giveBack_eq member cleared, ?_⟩
  refine supplies.mark found member true distinct others ?_ ?_
  · simp only [Bool.true_eq_false, false_iff, not_exists, not_and]
    intro other isHolder _ same
    exact single (List.mem_map.mpr ⟨other, isHolder, same⟩)
  · intro place register differs
    simp only [List.mem_cons, exists_eq_or_imp]
    constructor
    · rintro (⟨rfl, rfl⟩ | held)
      · exact absurd ⟨rfl, rfl⟩ differs
      · exact held
    · exact Or.inr

end Supplies

/-! ## Before the first interval -/

/-- At the start, the supplier of a bank is a fresh one. -/
theorem supplierAt?_start (catalog : Catalog) (stackBase : Nat) (place : BankRef) :
    supplierAt? (ScanState.start catalog stackBase).suppliers place =
      (catalog.bank? place).map Supplier.ofBank := by
  rw [supplierAt?, Catalog.bank?, ScanState.start, List.getElem?_map]
  cases catalog.classes[place.sizeIndex]? with
  | none => rfl
  | some sizeClass => simp

/-- At the start, the banks are those of the catalog. -/
theorem map_bank_start (catalog : Catalog) (stackBase : Nat) :
    (ScanState.start catalog stackBase).suppliers.map (·.map Supplier.bank) =
      catalog.classes.map (·.banks) := by
  rw [ScanState.start, List.map_map]
  apply List.map_congr_left
  intro sizeClass _
  rw [Function.comp_apply, List.map_map]
  exact List.map_id _

/-- Before the first interval, every register is free and none is held. -/
theorem Supplies.start {catalog : Catalog} (wellFormed : catalog.WellFormed) (stackBase : Nat) :
    Supplies catalog (ScanState.start catalog stackBase).suppliers [] where
  layout := map_bank_start catalog stackBase
  nodup := by
    intro place supplier found
    rw [supplierAt?_start] at found
    obtain ⟨bank, atPlace, rfl⟩ := Option.map_eq_some_iff.mp found
    obtain ⟨_, -, fits⟩ := wellFormed.fits_of_bank? atPlace
    exact fits.nodup
  distinct := List.nodup_nil
  fromBank := by simp
  taken := by
    intro place supplier found register member
    rw [supplierAt?_start] at found
    obtain ⟨bank, atPlace, rfl⟩ := Option.map_eq_some_iff.mp found
    obtain ⟨_, -, fits⟩ := wellFormed.fits_of_bank? atPlace
    simp [Supplier.isFree_ofBank fits.nodup member]

end LinearScan
