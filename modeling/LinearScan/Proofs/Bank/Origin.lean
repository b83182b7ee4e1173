import LinearScan.Proofs.Bank.Catalog
import Mathlib.Data.List.Nodup

/-!
# Where the registers of a bank come from

Entries are scattered into banks by size and by the name of their predicate, and registers
that must not be handed out are dropped on the way.  `Bank.Drawn` says what can be read back
off a bank: each of its registers is usable and has an entry that lists the size of the bank
under a predicate of its name, and its test is that of some entry.

Nothing is lost either: `SizeClass.serves_foldl` says which registers the banks of a size and a
name hold, and they are those of all usable entries that list the size under the name.

The two parts meet only through the name.  A register's own entry may carry another test than
the bank it went to, so whoever wants a register's own test to accept a value has to know that
entries of one name agree (`Target.Agreeing`).
-/

namespace LinearScan

/-- What is in a bank was put there by an entry. -/
structure Bank.Drawn (target : Target) (size : Nat) (bank : Bank) : Prop where
  predicate : ∃ entry ∈ target.entries, entry.accepts = bank.predicate
  registers : ∀ register ∈ bank.registers, target.registers.isUsable register = true ∧
    ∃ entry ∈ target.entries, entry.register = register ∧ size ∈ entry.sizes ∧
      entry.accepts.name = bank.predicate.name

@[simp] theorem Bank.predicate_push (bank : Bank) (register : RegisterId) :
    (bank.push register).predicate = bank.predicate := by
  unfold Bank.push
  split <;> rfl

namespace SizeClass

variable {target : Target} {entry : Entry} {size : Nat}

/-- The register of an entry, if it may be handed out. -/
def offered? (registers : RegisterFile) (entry : Entry) : Option RegisterId :=
  if registers.isUsable entry.register then some entry.register else none

/-- An entry may put its register into a bank of its predicate's name. -/
theorem drawn_elim {bank : Bank} (drawn : bank.Drawn target size) (member : entry ∈ target.entries)
    (served : size ∈ entry.sizes) (same : bank.predicate.name = entry.accepts.name) :
    ((offered? target.registers entry).elim bank bank.push).Drawn target size := by
  unfold offered?
  split
  · next usable =>
    refine ⟨?_, ?_⟩
    · simpa using drawn.predicate
    · intro register inBank
      simp only [Option.elim_some, Bank.mem_registers_push] at inBank
      rcases inBank with old | rfl
      · simpa using drawn.registers register old
      · exact ⟨usable, entry, member, rfl, served, by simpa using same.symm⟩
  · exact drawn

/-- An entry may open a bank for its predicate. -/
theorem drawn_empty (member : entry ∈ target.entries) :
    (Bank.empty size entry.accepts).Drawn target size :=
  ⟨⟨entry, member, rfl⟩, by simp [Bank.empty]⟩

/-- Recording an entry among the banks of a size. -/
theorem drawn_addToBanks {banks : List Bank} (drawn : ∀ bank ∈ banks, bank.Drawn target size)
    (member : entry ∈ target.entries) (served : size ∈ entry.sizes) :
    ∀ bank ∈ addToBanks size entry.accepts (offered? target.registers entry) banks,
      bank.Drawn target size := by
  induction banks with
  | nil =>
    intro bank isBank
    obtain rfl := List.mem_singleton.mp isBank
    exact drawn_elim (drawn_empty member) member served rfl
  | cons first rest ih =>
    obtain ⟨firstDrawn, restDrawn⟩ := List.forall_mem_cons.mp drawn
    unfold addToBanks
    split
    · next same =>
      exact List.forall_mem_cons.mpr ⟨drawn_elim firstDrawn member served same, restDrawn⟩
    · exact List.forall_mem_cons.mpr ⟨firstDrawn, ih restDrawn⟩

/-- Recording an entry under one of its sizes. -/
theorem drawn_add {classes : List SizeClass}
    (drawn : ∀ sizeClass ∈ classes, ∀ bank ∈ sizeClass.banks, bank.Drawn target sizeClass.size)
    (member : entry ∈ target.entries) (served : size ∈ entry.sizes) :
    ∀ sizeClass ∈ add size entry.accepts (offered? target.registers entry) classes,
      ∀ bank ∈ sizeClass.banks, bank.Drawn target sizeClass.size := by
  have fresh : ∀ bank ∈ addToBanks size entry.accepts (offered? target.registers entry) [],
      bank.Drawn target size := drawn_addToBanks (by simp) member served
  induction classes with
  | nil => simpa [add] using fresh
  | cons first rest ih =>
    obtain ⟨firstDrawn, restDrawn⟩ := List.forall_mem_cons.mp drawn
    unfold add
    split
    · exact List.forall_mem_cons.mpr ⟨fresh, drawn⟩
    · split
      · next same =>
        subst same
        exact List.forall_mem_cons.mpr ⟨drawn_addToBanks firstDrawn member served, restDrawn⟩
      · exact List.forall_mem_cons.mpr ⟨firstDrawn, ih restDrawn⟩

/-- Recording an entry under all its sizes. -/
theorem drawn_addEntry {classes : List SizeClass}
    (drawn : ∀ sizeClass ∈ classes, ∀ bank ∈ sizeClass.banks, bank.Drawn target sizeClass.size)
    (member : entry ∈ target.entries) :
    ∀ sizeClass ∈ addEntry target.registers classes entry, ∀ bank ∈ sizeClass.banks,
      bank.Drawn target sizeClass.size := by
  suffices general : ∀ (sizes : List Nat) (classes : List SizeClass), sizes ⊆ entry.sizes →
      (∀ sizeClass ∈ classes, ∀ bank ∈ sizeClass.banks, bank.Drawn target sizeClass.size) →
      ∀ sizeClass ∈ sizes.foldl (fun classes size =>
        add size entry.accepts (offered? target.registers entry) classes) classes,
        ∀ bank ∈ sizeClass.banks, bank.Drawn target sizeClass.size from
    general entry.sizes classes (List.Subset.refl _) drawn
  intro sizes
  induction sizes with
  | nil =>
    intro classes _ drawn
    exact drawn
  | cons size rest ih =>
    intro classes served drawn
    obtain ⟨first, others⟩ := List.cons_subset.mp served
    exact ih _ others (drawn_add drawn member first)

/-! ## No entry is lost -/

/-- Among some banks, one of the given name holds a register. -/
def Holds (banks : List Bank) (name : String) (register : RegisterId) : Prop :=
  ∃ bank ∈ banks, bank.predicate.name = name ∧ register ∈ bank.registers

/-- Among some size classes, a bank of the given size and name holds a register. -/
def Serves (classes : List SizeClass) (size : Nat) (name : String) (register : RegisterId) :
    Prop :=
  ∃ sizeClass ∈ classes, sizeClass.size = size ∧ Holds sizeClass.banks name register

variable {classes : List SizeClass} {banks : List Bank} {predicate : TypePredicate}
  {register? : Option RegisterId} {name : String} {register : RegisterId} {served : Nat}

theorem holds_cons {bank : Bank} :
    Holds (bank :: banks) name register ↔
      bank.predicate.name = name ∧ register ∈ bank.registers ∨ Holds banks name register := by
  simp [Holds]

theorem serves_cons {sizeClass : SizeClass} :
    Serves (sizeClass :: classes) served name register ↔
      sizeClass.size = served ∧ Holds sizeClass.banks name register ∨
        Serves classes served name register := by
  simp [Serves]

/-- A bank takes the register that it is given, if any. -/
theorem holds_elim {bank : Bank} (same : bank.predicate.name = predicate.name) :
    Holds (register?.elim bank bank.push :: banks) name register ↔
      name = predicate.name ∧ register? = some register ∨
        Holds (bank :: banks) name register := by
  cases register? with
  | none => simp
  | some added =>
    rw [holds_cons, holds_cons, Option.elim_some, Bank.predicate_push, Bank.mem_registers_push,
      same, Option.some.injEq]
    grind

/-- Recording a register among banks adds it to those of its predicate's name. -/
theorem holds_addToBanks (size : Nat) (banks : List Bank) :
    Holds (addToBanks size predicate register? banks) name register ↔
      name = predicate.name ∧ register? = some register ∨ Holds banks name register := by
  induction banks with
  | nil =>
    rw [addToBanks, holds_elim rfl]
    simp [Holds, Bank.empty]
  | cons bank rest ih =>
    unfold addToBanks
    split
    · next same => exact holds_elim same
    · rw [holds_cons, ih, holds_cons]
      exact or_left_comm

/-- Recording a register under a size adds it there. -/
theorem serves_add (size : Nat) (classes : List SizeClass) :
    Serves (add size predicate register? classes) served name register ↔
      (served = size ∧ name = predicate.name ∧ register? = some register) ∨
        Serves classes served name register := by
  have fresh : Holds (addToBanks size predicate register? []) name register ↔
      name = predicate.name ∧ register? = some register := by
    rw [holds_addToBanks]
    simp [Holds]
  induction classes with
  | nil =>
    rw [add, serves_cons, fresh]
    simp [Serves, eq_comm]
  | cons first rest ih =>
    unfold add
    split
    · rw [serves_cons, fresh, eq_comm]
    · split
      · next same =>
        rw [serves_cons, holds_addToBanks, serves_cons, ← same]
        grind
      · rw [serves_cons, serves_cons, or_left_comm]
        exact or_congr_right ih

/-- Recording an entry adds its register under each of its sizes, if it may be handed out. -/
theorem serves_addEntry {registers : RegisterFile} {classes : List SizeClass} {entry : Entry} :
    Serves (addEntry registers classes entry) served name register ↔
      (served ∈ entry.sizes ∧ name = entry.accepts.name ∧
        offered? registers entry = some register) ∨ Serves classes served name register := by
  suffices general : ∀ (sizes : List Nat) (classes : List SizeClass),
      Serves (sizes.foldl (fun classes size =>
        add size entry.accepts (offered? registers entry) classes) classes) served name register ↔
      (served ∈ sizes ∧ name = entry.accepts.name ∧
        offered? registers entry = some register) ∨ Serves classes served name register from
    general entry.sizes classes
  intro sizes
  induction sizes with
  | nil => simp
  | cons size rest ih =>
    intro classes
    rw [List.foldl_cons, ih, serves_add, List.mem_cons]
    grind

/-- **The registers of banks**, by size and name, are those of the entries that may be handed
out. -/
theorem serves_foldl {registers : RegisterFile} (entries : List Entry) :
    ∀ classes : List SizeClass,
      Serves (entries.foldl (addEntry registers) classes) served name register ↔
      (∃ entry ∈ entries, served ∈ entry.sizes ∧ name = entry.accepts.name ∧
        offered? registers entry = some register) ∨ Serves classes served name register := by
  induction entries with
  | nil => simp
  | cons entry rest ih =>
    intro classes
    rw [List.foldl_cons, ih, serves_addEntry, or_left_comm]
    simp only [List.mem_cons, or_and_right, exists_or, exists_eq_left, or_assoc]

/-- Recording entries of a target one after the other. -/
theorem drawn_foldl (entries : List Entry) :
    ∀ {classes : List SizeClass}, entries ⊆ target.entries →
      (∀ sizeClass ∈ classes, ∀ bank ∈ sizeClass.banks, bank.Drawn target sizeClass.size) →
      ∀ sizeClass ∈ entries.foldl (addEntry target.registers) classes,
        ∀ bank ∈ sizeClass.banks, bank.Drawn target sizeClass.size := by
  induction entries with
  | nil =>
    intro classes _ drawn
    exact drawn
  | cons entry rest ih =>
    intro classes subset drawn
    obtain ⟨first, others⟩ := List.cons_subset.mp subset
    exact ih others (drawn_addEntry drawn first)

end SizeClass

/-- **Every bank of a built catalog is drawn from the entries** of its target, under its own
size. -/
theorem Catalog.drawn_of_build {target : Target} {catalog : Catalog} (reachable : target.Reachable)
    (done : Catalog.build target = .ok catalog) {place : BankRef} {bank : Bank}
    (found : catalog.bank? place = some bank) : bank.Drawn target bank.size := by
  have wellFormed : catalog.WellFormed := Built.wellFormed ⟨target, reachable, done⟩
  obtain ⟨sizeClass, atSize, fits⟩ := wellFormed.fits_of_bank? found
  obtain ⟨sizeClass', atSize', atBank⟩ := Option.bind_eq_some_iff.mp found
  obtain rfl := Option.some.inj (atSize.symm.trans atSize')
  obtain rfl := eq_of_build done
  rw [fits.size_eq]
  exact SizeClass.drawn_foldl target.entries (List.Subset.refl _) (by simp) sizeClass
    (List.mem_of_getElem? atSize) bank (List.mem_of_getElem? atBank)

/-- The banks of a catalog serve what its target's entries offer. -/
theorem Catalog.serves_iff {target : Target} {catalog : Catalog}
    (done : Catalog.build target = .ok catalog) {size : Nat} {name : String}
    {register : RegisterId} :
    SizeClass.Serves catalog.classes size name register ↔
      target.registers.isUsable register = true ∧ ∃ entry ∈ target.entries,
        entry.register = register ∧ size ∈ entry.sizes ∧ name = entry.accepts.name := by
  obtain rfl := eq_of_build done
  show SizeClass.Serves (target.entries.foldl (SizeClass.addEntry target.registers) []) _ _ _ ↔ _
  have nothing : ¬ SizeClass.Serves [] size name register := by simp [SizeClass.Serves]
  rw [SizeClass.serves_foldl, or_iff_left nothing]
  simp only [SizeClass.offered?, Option.ite_none_right_eq_some, Option.some.injEq]
  constructor
  · rintro ⟨entry, isEntry, served, named, usable, rfl⟩
    exact ⟨usable, entry, isEntry, rfl, served, named⟩
  · rintro ⟨usable, entry, isEntry, rfl, served, named⟩
    exact ⟨entry, isEntry, served, named, usable, rfl⟩

/-- A target with an entry that may be handed out has a catalog. -/
theorem Catalog.exists_build {target : Target} {entry : Entry} (isEntry : entry ∈ target.entries)
    (usable : target.registers.isUsable entry.register = true) {size : Nat}
    (served : size ∈ entry.sizes) : ∃ catalog, Catalog.build target = .ok catalog := by
  have serves : SizeClass.Serves (target.entries.foldl (SizeClass.addEntry target.registers) [])
      size entry.accepts.name entry.register := by
    refine (SizeClass.serves_foldl _ _).mpr (Or.inl ⟨entry, isEntry, served, rfl, ?_⟩)
    rw [SizeClass.offered?, if_pos usable]
  obtain ⟨sizeClass, isClass, -, bank, isBank, -, member⟩ := serves
  refine ⟨_, if_neg fun empty => ?_⟩
  rw [List.all_eq_true] at empty
  have nothing := List.all_eq_true.mp (empty sizeClass isClass) bank isBank
  rw [List.isEmpty_iff.mp nothing] at member
  cases member

/-- Entries whose predicates share a name accept the same types. -/
def Target.Agreeing (target : Target) : Prop :=
  ∀ a ∈ target.entries, ∀ b ∈ target.entries, a.accepts.name = b.accepts.name →
    ∀ type, a.accepts.accepts type = b.accepts.accepts type

/-- Built-in predicates are told apart by their names. -/
theorem TypePredicate.eq_of_name_eq {a b : TypePredicate} (isBuiltin : a ∈ builtin)
    (isBuiltin' : b ∈ builtin) (same : a.name = b.name) : a = b := by
  have distinct : (builtin.map TypePredicate.name).Nodup := by decide
  exact List.inj_on_of_nodup_map distinct isBuiltin isBuiltin' same

/-- Entries with built-in predicates agree. -/
theorem Target.agreeing_of_builtin {target : Target}
    (builtin : ∀ entry ∈ target.entries, entry.accepts ∈ TypePredicate.builtin) :
    target.Agreeing := by
  intro a isEntry b isEntry' same type
  rw [TypePredicate.eq_of_name_eq (builtin a isEntry) (builtin b isEntry') same]

/-- **A bank that admits a value has room for it in each of its registers**: the register is
usable, and an entry of its own lists a size that is large enough and accepts the type. -/
theorem Bank.Drawn.exists_entry {target : Target} {bank : Bank}
    (drawn : bank.Drawn target bank.size) (agreeing : target.Agreeing) {type : ValueType}
    {size : Nat} (admits : bank.admits type size = true) {register : RegisterId}
    (member : register ∈ bank.registers) :
    target.registers.isUsable register = true ∧
      ∃ entry ∈ target.entries, entry.register = register ∧
        (∃ served ∈ entry.sizes, size ≤ served) ∧ entry.accepts.accepts type = true := by
  simp only [Bank.admits, Bank.accepts, Bool.and_eq_true, decide_eq_true_eq] at admits
  obtain ⟨usable, entry, isEntry, names, served, sameName⟩ := drawn.registers register member
  obtain ⟨first, isFirst, same⟩ := drawn.predicate
  rw [← same] at admits sameName
  refine ⟨usable, entry, isEntry, names, ⟨_, served, admits.1⟩, ?_⟩
  rw [agreeing entry isEntry first isFirst sameName type]
  exact admits.2

end LinearScan
