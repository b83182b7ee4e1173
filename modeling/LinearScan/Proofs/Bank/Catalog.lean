import LinearScan.Bank.Catalog
import LinearScan.Scan.Active
import LinearScan.Proofs.Target.Reachable

/-!
# Catalogs that are built

A catalog is filled entry by entry and size by size.  What the scan relies on afterwards is
little: size classes ascend, every bank serves the size of its class, no bank holds a
register twice, and all registers of banks are in the file.  `Catalog.WellFormed` collects
that, together with the symmetry of shared storage; `Catalog.Built.wellFormed` says that
every catalog has it that comes from a target that can be reached.

The scan starts at the closest class, which a search for the size finds.  Its two ends are
told apart once, in `Catalog.search_cases`; that nothing the scan skips would have been large
enough is `Catalog.size_lt_of_lt_closestIndex`.
-/

namespace LinearScan

/-! ## Banks -/

/-- A bank in good order: of the given size, without repetition, and with no register but
those that are known. -/
structure Bank.Fits (bank : Bank) (size : Nat) (known : RegisterId → Prop) : Prop where
  size_eq : bank.size = size
  nodup : bank.registers.Nodup
  known : ∀ register ∈ bank.registers, known register

namespace Bank

variable {bank : Bank} {size : Nat} {known : RegisterId → Prop}

/-- A bank without registers is in good order. -/
theorem fits_empty (size : Nat) (predicate : TypePredicate) (known : RegisterId → Prop) :
    (Bank.empty size predicate).Fits size known where
  size_eq := rfl
  nodup := List.nodup_nil
  known := by simp [Bank.empty]

/-- Adding a register does not change the size of a bank. -/
@[simp] theorem size_push (bank : Bank) (register : RegisterId) :
    (bank.push register).size = bank.size := by
  unfold push
  split <;> rfl

/-- A known register may be added. -/
theorem Fits.push (fits : bank.Fits size known) {register : RegisterId}
    (isKnown : known register) : (bank.push register).Fits size known where
  size_eq := (size_push bank register).trans fits.size_eq
  nodup := nodup_registers_push fits.nodup register
  known := by
    intro other member
    rcases mem_registers_push.mp member with old | rfl
    · exact fits.known other old
    · exact isKnown

end Bank

/-! ## Size classes -/

namespace SizeClass

variable {size : Nat} {predicate : TypePredicate} {register? : Option RegisterId}
  {known : RegisterId → Prop}

/-- A register goes to a bank only if there is one to go. -/
theorem fits_elim {bank : Bank} (fits : bank.Fits size known)
    (isKnown : ∀ register ∈ register?, known register) :
    (register?.elim bank bank.push).Fits size known := by
  cases register? with
  | none => exact fits
  | some register => exact fits.push (isKnown register rfl)

/-- Recording a register in its bank leaves all banks in good order. -/
theorem fits_addToBanks {banks : List Bank} (fits : ∀ bank ∈ banks, bank.Fits size known)
    (isKnown : ∀ register ∈ register?, known register) :
    ∀ bank ∈ addToBanks size predicate register? banks, bank.Fits size known := by
  induction banks with
  | nil =>
    intro bank member
    obtain rfl := List.mem_singleton.mp member
    exact fits_elim (Bank.fits_empty size predicate known) isKnown
  | cons first rest ih =>
    obtain ⟨firstFits, restFits⟩ := List.forall_mem_cons.mp fits
    unfold addToBanks
    split
    · exact List.forall_mem_cons.mpr ⟨fits_elim firstFits isKnown, restFits⟩
    · exact List.forall_mem_cons.mpr ⟨firstFits, ih restFits⟩

/-- Size classes in good order: ascending, with each bank in good order under the size of
its class. -/
structure Tidy (known : RegisterId → Prop) (classes : List SizeClass) : Prop where
  ascending : classes.Pairwise (·.size < ·.size)
  fits : ∀ sizeClass ∈ classes, ∀ bank ∈ sizeClass.banks, bank.Fits sizeClass.size known

/-- The classes after an addition are the old ones and the one of the added size. -/
theorem mem_add {classes : List SizeClass} {sizeClass : SizeClass}
    (member : sizeClass ∈ add size predicate register? classes) :
    sizeClass ∈ classes ∨ sizeClass.size = size := by
  induction classes with
  | nil => exact Or.inr (by rw [List.mem_singleton.mp member])
  | cons first rest ih =>
    unfold add at member
    split at member
    · rcases List.mem_cons.mp member with rfl | old
      · exact Or.inr rfl
      · exact Or.inl old
    · split at member
      · rcases List.mem_cons.mp member with rfl | old
        · exact Or.inr rfl
        · exact Or.inl (List.mem_cons_of_mem _ old)
      · rcases List.mem_cons.mp member with rfl | later
        · exact Or.inl List.mem_cons_self
        · exact (ih later).imp_left (List.mem_cons_of_mem _)

/-- Recording a register keeps size classes in good order. -/
theorem Tidy.add {classes : List SizeClass} (tidy : Tidy known classes)
    (isKnown : ∀ register ∈ register?, known register) :
    Tidy known (add size predicate register? classes) := by
  have fresh : ∀ bank ∈ addToBanks size predicate register? [], bank.Fits size known :=
    fits_addToBanks (by simp) isKnown
  induction classes with
  | nil => exact ⟨List.pairwise_singleton _ _, by simpa [SizeClass.add] using fresh⟩
  | cons first rest ih =>
    obtain ⟨below, ascending⟩ := List.pairwise_cons.mp tidy.ascending
    obtain ⟨firstFits, restFits⟩ := List.forall_mem_cons.mp tidy.fits
    unfold SizeClass.add
    split
    · next less =>
      refine ⟨List.pairwise_cons.mpr ⟨?_, tidy.ascending⟩,
        List.forall_mem_cons.mpr ⟨fresh, tidy.fits⟩⟩
      intro other member
      rcases List.mem_cons.mp member with rfl | later
      · exact less
      · exact Nat.lt_trans less (below other later)
    · split
      · next same =>
        subst same
        exact ⟨List.pairwise_cons.mpr ⟨below, ascending⟩,
          List.forall_mem_cons.mpr ⟨fits_addToBanks firstFits isKnown, restFits⟩⟩
      · next notLess differs =>
        obtain ⟨ascending', fits'⟩ := ih ⟨ascending, restFits⟩
        refine ⟨List.pairwise_cons.mpr ⟨?_, ascending'⟩,
          List.forall_mem_cons.mpr ⟨firstFits, fits'⟩⟩
        -- What the addition leaves further down is an old class or has the added size.
        intro other member
        rcases mem_add member with later | same
        · exact below other later
        · omega

/-- Recording an entry keeps size classes in good order, if its register is known. -/
theorem Tidy.addEntry {classes : List SizeClass} (tidy : Tidy known classes)
    (registers : RegisterFile) {entry : Entry} (isKnown : known entry.register) :
    Tidy known (addEntry registers classes entry) := by
  have onlyIt : ∀ register ∈ (if registers.isUsable entry.register then some entry.register
      else none), known register := by
    intro register member
    split at member
    · obtain rfl := Option.some.inj member
      exact isKnown
    · cases member
  unfold SizeClass.addEntry
  generalize entry.sizes = sizes
  induction sizes generalizing classes with
  | nil => exact tidy
  | cons size rest ih => exact ih (tidy.add onlyIt)

/-- Entries whose registers are known lead to size classes in good order. -/
theorem tidy_foldl (registers : RegisterFile) (entries : List Entry) :
    ∀ {classes : List SizeClass}, Tidy known classes →
      (∀ entry ∈ entries, known entry.register) →
      Tidy known (entries.foldl (SizeClass.addEntry registers) classes) := by
  induction entries with
  | nil => intro classes tidy _; exact tidy
  | cons entry rest ih =>
    intro classes tidy isKnown
    obtain ⟨first, others⟩ := List.forall_mem_cons.mp isKnown
    exact ih (tidy.addEntry registers first) others

end SizeClass

/-! ## Catalogs -/

namespace Catalog

variable {catalog : Catalog}

/-- What the scan relies on about its catalog. -/
structure WellFormed (catalog : Catalog) : Prop where
  tidy : SizeClass.Tidy (fun register => register.index < catalog.registers.size) catalog.classes
  /-- Sharing storage is symmetric. -/
  intersects_comm : ∀ a b, catalog.registers.intersects a b = catalog.registers.intersects b a

/-- A catalog that is built from a target that can be reached. -/
def Built (catalog : Catalog) : Prop :=
  ∃ target : Target, target.Reachable ∧ Catalog.build target = .ok catalog

/-- What the entries of a target fill a catalog with. -/
def filled (target : Target) : Catalog where
  name := target.name
  identity := target.identity
  registers := target.registers
  classes := target.entries.foldl (SizeClass.addEntry target.registers) []

/-- What a built catalog consists of. -/
theorem eq_of_build {target : Target} (done : Catalog.build target = .ok catalog) :
    catalog = filled target := by
  simp only [build] at done
  split at done
  · cases done
  · exact (Except.ok.inj done).symm

/-- A target with a register to hand out has a catalog. -/
theorem build_of_served {target : Target}
    (served : (filled target).classes.all (·.banks.all (·.registers.isEmpty)) = false) :
    Catalog.build target = .ok (filled target) :=
  if_neg (Bool.eq_false_iff.mp served)

/-- **Every built catalog is well formed.** -/
theorem Built.wellFormed (built : catalog.Built) : catalog.WellFormed := by
  obtain ⟨target, reachable, done⟩ := built
  obtain rfl := eq_of_build done
  exact ⟨SizeClass.tidy_foldl target.registers target.entries
      ⟨List.Pairwise.nil, by simp⟩ reachable.register_lt,
    reachable.registers.intersects_comm⟩

/-- The bank at a place in the catalog. -/
def bank? (catalog : Catalog) (place : BankRef) : Option Bank := do
  let sizeClass ← catalog.classes[place.sizeIndex]?
  sizeClass.banks[place.bankIndex]?

/-- A bank is one of a catalog's banks exactly if it has a place there. -/
theorem mem_banks_iff {bank : Bank} :
    bank ∈ catalog.banks ↔ ∃ place, catalog.bank? place = some bank := by
  rw [banks, List.mem_flatMap]
  constructor
  · rintro ⟨sizeClass, inCatalog, inClass⟩
    obtain ⟨sizeIndex, atSize⟩ := List.mem_iff_getElem?.mp inCatalog
    obtain ⟨bankIndex, atBank⟩ := List.mem_iff_getElem?.mp inClass
    refine ⟨⟨sizeIndex, bankIndex⟩, ?_⟩
    rw [bank?, atSize]
    exact atBank
  · rintro ⟨place, found⟩
    obtain ⟨sizeClass, atSize, atBank⟩ := Option.bind_eq_some_iff.mp found
    exact ⟨sizeClass, List.mem_of_getElem? atSize, List.mem_of_getElem? atBank⟩

/-- What is found at a place is in the class of that place, and in good order. -/
theorem WellFormed.fits_of_bank? (wellFormed : catalog.WellFormed) {place : BankRef} {bank : Bank}
    (found : catalog.bank? place = some bank) :
    ∃ sizeClass, catalog.classes[place.sizeIndex]? = some sizeClass ∧
      bank.Fits sizeClass.size (fun register => register.index < catalog.registers.size) := by
  obtain ⟨sizeClass, atSize, atBank⟩ := Option.bind_eq_some_iff.mp found
  exact ⟨sizeClass, atSize, wellFormed.tidy.fits sizeClass (List.mem_of_getElem? atSize) bank
    (List.mem_of_getElem? atBank)⟩

/-- A register in a bank has a name. -/
theorem WellFormed.exists_name (wellFormed : catalog.WellFormed) {place : BankRef} {bank : Bank}
    (found : catalog.bank? place = some bank) {register : RegisterId}
    (member : register ∈ bank.registers) :
    ∃ name, catalog.registers.name register = .ok name := by
  obtain ⟨_, -, fits⟩ := wellFormed.fits_of_bank? found
  have inFile : register.index < catalog.registers.registers.size := fits.known register member
  refine ⟨catalog.registers.registers[register.index].name, ?_⟩
  simp [RegisterFile.name, RegisterFile.get, RegisterFile.get?,
    Array.getElem?_eq_getElem inFile, Except.map]

/-! ### Searching for a size -/

/-- What stands before the place of a size is smaller. -/
theorem size_lt_of_lt_place {size index : Nat} {sizeClass : SizeClass}
    (found : catalog.classes[index]? = some sizeClass) (before : index < catalog.place size) :
    sizeClass.size < size := by
  obtain ⟨inside, rfl⟩ := List.getElem?_eq_some_iff.mp found
  exact Nat.not_le.mp (of_decide_eq_false (List.not_of_lt_findIdx before))

/-- What stands at the place of a size is not smaller. -/
theorem le_size_of_place {size : Nat} {sizeClass : SizeClass}
    (found : catalog.classes[catalog.place size]? = some sizeClass) : size ≤ sizeClass.size := by
  obtain ⟨inside, rfl⟩ := List.getElem?_eq_some_iff.mp found
  exact of_decide_eq_true (List.findIdx_getElem (w := inside))

/-- What stands behind the place of a size is larger, as sizes ascend. -/
theorem lt_size_of_place_lt (ascending : catalog.classes.Pairwise (·.size < ·.size))
    {size index : Nat} {sizeClass : SizeClass}
    (found : catalog.classes[index]? = some sizeClass) (behind : catalog.place size < index) :
    size < sizeClass.size := by
  obtain ⟨inside, rfl⟩ := List.getElem?_eq_some_iff.mp found
  have there := List.getElem?_eq_getElem (Nat.lt_trans behind inside)
  exact Nat.lt_of_le_of_lt (le_size_of_place there)
    (List.pairwise_iff_getElem.mp ascending _ _ _ inside behind)

/-- **The two ends of a search.**  The size stands at its place, or what stands there is
larger. -/
theorem search_cases (catalog : Catalog) (size : Nat) :
    (∃ inside : catalog.place size < catalog.classes.length,
      (catalog.classes.get ⟨_, inside⟩).size = size ∧
        catalog.search size = .ok ⟨_, inside⟩) ∨
      ((∀ sizeClass ∈ catalog.classes[catalog.place size]?, size < sizeClass.size) ∧
        catalog.search size = .error (catalog.place size)) := by
  by_cases inside : catalog.place size < catalog.classes.length
  · by_cases same : (catalog.classes.get ⟨_, inside⟩).size = size
    · exact Or.inl ⟨inside, same, by rw [search, dif_pos inside, if_pos same]⟩
    · refine Or.inr ⟨fun sizeClass found => ?_, by rw [search, dif_pos inside, if_neg same]⟩
      obtain ⟨_, rfl⟩ := List.getElem?_eq_some_iff.mp found
      exact Nat.lt_of_le_of_ne (le_size_of_place found) (Ne.symm same)
  · refine Or.inr ⟨fun sizeClass found => ?_, by rw [search, dif_neg inside]⟩
    exact absurd (List.getElem?_eq_some_iff.mp found).1 inside

/-- **Nothing below the closest class is large enough**: classes before it are strictly
smaller than the size that is asked for. -/
theorem size_lt_of_lt_closestIndex {size index : Nat} {sizeClass : SizeClass}
    (found : catalog.classes[index]? = some sizeClass)
    (below : index < (catalog.closestIndex? size).getD 0) : sizeClass.size < size := by
  refine size_lt_of_lt_place found ?_
  unfold closestIndex? at below
  rcases catalog.search_cases size with ⟨_, -, exactly⟩ | ⟨-, between⟩
  · rw [exactly] at below
    exact below
  · rw [between] at below
    cases place : catalog.place size with
    | zero => rw [place] at below; exact below
    | succ previous => rw [place] at below; exact Nat.lt_succ_of_lt below

end Catalog

end LinearScan
