import LinearScan.Proofs.Bank.Origin
import Mathlib.Data.List.Induction
import Mathlib.Order.Bounds.Defs

/-!
# How entries are grouped

A catalog is filled by two nested loops: each entry goes to one bank for each size that it lists,
and a bank is made when the first entry comes that needs it.  Said without the loops, the entries
are grouped twice.  Those that list a size are its listing, and those of a listing whose predicates
share a name are one bank (`Bank.Grouped`).  All order is order of first appearance.

The two loops are taken apart from the outside.  What an entry does to one size it does in one
stroke, however often it lists the size, because a second stroke changes nothing
(`SizeClass.banksOf_addEntry`).  So the banks of a size come from a single pass over its listing
(`SizeClass.banksOf_foldl`), and that pass is followed entry by entry (`Bank.Grouped.step`).
-/

namespace LinearScan

/-! ## Groups of entries -/

namespace Entry

/-- The entries that list a size. -/
def listing (entries : List Entry) (size : Nat) : List Entry :=
  entries.filter (size ∈ ·.sizes)

/-- The entries whose predicate has a name. -/
def named (entries : List Entry) (name : String) : List Entry :=
  entries.filter (·.accepts.name = name)

/-- The registers of entries, without those that must not be handed out. -/
def offers (registers : RegisterFile) (entries : List Entry) : List RegisterId :=
  (entries.filter (registers.isUsable ·.register)).map (·.register)

variable {registers : RegisterFile} {entries : List Entry} {entry : Entry} {name : String}

theorem listing_ne_nil_iff {size : Nat} :
    listing entries size ≠ [] ↔ ∃ entry ∈ entries, size ∈ entry.sizes := by
  simp [listing, List.filter_eq_nil_iff]

theorem named_concat_of_eq (same : entry.accepts.name = name) :
    named (entries ++ [entry]) name = named entries name ++ [entry] := by
  simp [named, same]

theorem named_concat_of_ne (differs : entry.accepts.name ≠ name) :
    named (entries ++ [entry]) name = named entries name := by
  simp [named, differs]

theorem named_eq_nil (absent : name ∉ entries.map (·.accepts.name)) : named entries name = [] := by
  simpa [named, List.filter_eq_nil_iff] using absent

theorem offers_concat :
    offers registers (entries ++ [entry])
      = offers registers entries ++ (SizeClass.offered? registers entry).toList := by
  rw [offers, offers, List.filter_append, List.map_append, SizeClass.offered?]
  by_cases usable : registers.isUsable entry.register <;> simp [usable]

end Entry

/-- **What a bank collects** from the entries of its size: the registers of those that have its
name, and the test of the first of them. -/
structure Bank.Collects (registers : RegisterFile) (size : Nat) (listing : List Entry)
    (bank : Bank) : Prop where
  size_eq : bank.size = size
  predicate_eq :
    (Entry.named listing bank.predicate.name).head?.map (·.accepts) = some bank.predicate
  registers_eq : bank.registers =
    (Entry.offers registers (Entry.named listing bank.predicate.name)).eraseDups

/-- **The banks of a size** are one for each name among its entries. -/
structure Bank.Grouped (registers : RegisterFile) (size : Nat) (listing : List Entry)
    (banks : List Bank) : Prop where
  names : banks.map (·.predicate.name) = (listing.map (·.accepts.name)).eraseDups
  collects : ∀ bank ∈ banks, bank.Collects registers size listing

/-! ## Recording an entry among the banks of a size -/

namespace Bank

variable {registers : RegisterFile} {size : Nat} {listing : List Entry} {entry : Entry}
  {bank : Bank} {register? : Option RegisterId}

@[simp] theorem predicate_elim : (register?.elim bank bank.push).predicate = bank.predicate := by
  cases register? with
  | none => rfl
  | some register => exact predicate_push bank register

/-- A bank takes a register behind the others, if there is one to take and if it is new. -/
theorem registers_elim {offered : List RegisterId} (same : bank.registers = offered.eraseDups) :
    (register?.elim bank bank.push).registers = (offered ++ register?.toList).eraseDups := by
  cases register? with
  | none => simpa using same
  | some register =>
    show (bank.push register).registers = (offered ++ [register]).eraseDups
    by_cases member : register ∈ offered
    · have known : bank.contains register = true := by simpa [contains, same] using member
      rw [push, if_pos known, same, eraseDups_concat_of_mem member]
    · have unknown : ¬ bank.contains register = true := by simpa [contains, same] using member
      rw [push, if_neg unknown, eraseDups_concat_of_notMem member, same]

/-- A bank of another name has nothing to do with an entry. -/
theorem Collects.keep (collects : bank.Collects registers size listing)
    (differs : entry.accepts.name ≠ bank.predicate.name) :
    bank.Collects registers size (listing ++ [entry]) where
  size_eq := collects.size_eq
  predicate_eq := by
    rw [Entry.named_concat_of_ne differs]
    exact collects.predicate_eq
  registers_eq := by
    rw [Entry.named_concat_of_ne differs]
    exact collects.registers_eq

/-- The bank of its name takes the register of an entry, if it has the right test. -/
theorem collects_elim (size_eq : bank.size = size)
    (same : entry.accepts.name = bank.predicate.name)
    (first : ((Entry.named listing bank.predicate.name).head?.or (some entry)).map (·.accepts)
      = some bank.predicate)
    (registers_eq : bank.registers =
      (Entry.offers registers (Entry.named listing bank.predicate.name)).eraseDups) :
    ((SizeClass.offered? registers entry).elim bank bank.push).Collects registers size
      (listing ++ [entry]) where
  size_eq := by
    cases SizeClass.offered? registers entry with
    | none => exact size_eq
    | some register => exact (size_push bank register).trans size_eq
  predicate_eq := by
    rw [predicate_elim, Entry.named_concat_of_eq same, List.head?_append]
    exact first
  registers_eq := by
    rw [predicate_elim, Entry.named_concat_of_eq same, Entry.offers_concat]
    exact registers_elim registers_eq

end Bank

namespace SizeClass

variable {size : Nat} {predicate : TypePredicate} {register? : Option RegisterId}
  {banks : List Bank}

/-- A name that no bank has gets a bank behind the others. -/
theorem addToBanks_of_notMem (absent : predicate.name ∉ banks.map (·.predicate.name)) :
    addToBanks size predicate register? banks =
      banks ++ [register?.elim (Bank.empty size predicate) (Bank.empty size predicate).push] := by
  induction banks with
  | nil => rfl
  | cons bank rest ih =>
    rw [List.map_cons, List.mem_cons, not_or] at absent
    rw [addToBanks, if_neg (Ne.symm absent.1), ih absent.2, List.cons_append]

/-- If a bank has the name, that bank is changed alone, as no two banks share a name. -/
theorem addToBanks_of_mem (distinct : (banks.map (·.predicate.name)).Nodup)
    (present : predicate.name ∈ banks.map (·.predicate.name)) :
    addToBanks size predicate register? banks = banks.map fun bank =>
      if bank.predicate.name = predicate.name then register?.elim bank bank.push else bank := by
  induction banks with
  | nil => cases present
  | cons bank rest ih =>
    obtain ⟨alone, distinct⟩ := List.nodup_cons.mp distinct
    rw [addToBanks, List.map_cons]
    by_cases same : bank.predicate.name = predicate.name
    · have others : ∀ other ∈ rest, other.predicate.name ≠ predicate.name := by
        intro other member equal
        exact alone (List.mem_map.mpr ⟨other, member, equal.trans same.symm⟩)
      rw [if_pos same, if_pos same, List.map_congr_left fun other member =>
        if_neg (others other member), List.map_id']
    · rw [List.map_cons, List.mem_cons] at present
      rw [if_neg same, if_neg same, ih distinct (present.resolve_left (Ne.symm same))]

/-- Recording an entry among banks twice is recording it once. -/
theorem addToBanks_idem :
    addToBanks size predicate register? (addToBanks size predicate register? banks)
      = addToBanks size predicate register? banks := by
  have again : ∀ bank : Bank,
      register?.elim (register?.elim bank bank.push) (register?.elim bank bank.push).push
        = register?.elim bank bank.push := by
    intro bank
    cases register? with
    | none => rfl
    | some register =>
      have known : (bank.push register).contains register = true := by
        simp [Bank.contains]
      exact if_pos known
  induction banks with
  | nil => rw [addToBanks, addToBanks, if_pos (by rw [Bank.predicate_elim]; rfl), again]
  | cons bank rest ih =>
    by_cases same : bank.predicate.name = predicate.name
    · rw [addToBanks, if_pos same, addToBanks, if_pos (by rw [Bank.predicate_elim, same]), again]
    · rw [addToBanks, if_neg same, addToBanks, if_neg same, ih]

end SizeClass

namespace Bank.Grouped

variable {registers : RegisterFile} {size : Nat} {listing : List Entry} {banks : List Bank}
  {entry : Entry}

/-- The banks have the names of the entries. -/
theorem mem_names_iff (grouped : Grouped registers size listing banks) {name : String} :
    name ∈ banks.map (·.predicate.name) ↔ name ∈ listing.map (·.accepts.name) := by
  rw [grouped.names, List.mem_eraseDups]

/-- An entry of a known name goes to the bank of that name. -/
theorem step_of_mem (grouped : Grouped registers size listing banks)
    (present : entry.accepts.name ∈ listing.map (·.accepts.name)) :
    Grouped registers size (listing ++ [entry])
      (SizeClass.addToBanks size entry.accepts (SizeClass.offered? registers entry) banks) := by
  have distinct : (banks.map (·.predicate.name)).Nodup := by
    rw [grouped.names]
    exact nodup_eraseDups _
  rw [SizeClass.addToBanks_of_mem distinct (grouped.mem_names_iff.mpr present)]
  refine ⟨?_, fun bank member => ?_⟩
  · rw [List.map_append, List.map_singleton, eraseDups_concat_of_mem present, ← grouped.names,
      List.map_map]
    refine List.map_congr_left fun bank _ => ?_
    rw [Function.comp_apply]
    split
    · rw [predicate_elim]
    · rfl
  · obtain ⟨old, isOld, rfl⟩ := List.mem_map.mp member
    have collects := grouped.collects old isOld
    split
    · next same =>
      refine collects_elim collects.size_eq same.symm ?_ collects.registers_eq
      obtain ⟨first, isFirst, test⟩ := Option.map_eq_some_iff.mp collects.predicate_eq
      rw [isFirst, Option.some_or, Option.map_some, test]
    · next differs => exact collects.keep (Ne.symm differs)

/-- An entry of a new name opens a bank. -/
theorem step_of_notMem (grouped : Grouped registers size listing banks)
    (absent : entry.accepts.name ∉ listing.map (·.accepts.name)) :
    Grouped registers size (listing ++ [entry])
      (SizeClass.addToBanks size entry.accepts (SizeClass.offered? registers entry) banks) := by
  rw [SizeClass.addToBanks_of_notMem (mt grouped.mem_names_iff.mp absent)]
  refine ⟨?_, fun bank member => ?_⟩
  · rw [List.map_append, List.map_append, List.map_singleton, List.map_singleton,
      eraseDups_concat_of_notMem absent, ← grouped.names, predicate_elim]
    rfl
  · rcases List.mem_append.mp member with old | new
    · refine (grouped.collects bank old).keep fun same => absent ?_
      rw [← grouped.mem_names_iff, same]
      exact List.mem_map_of_mem old
    · obtain rfl := List.mem_singleton.mp new
      have nothing : Entry.named listing entry.accepts.name = [] := Entry.named_eq_nil absent
      refine collects_elim rfl rfl ?_ ?_
      · show ((Entry.named listing entry.accepts.name).head?.or (some entry)).map (·.accepts)
          = some entry.accepts
        rw [nothing]
        rfl
      · show [] = (Entry.offers registers (Entry.named listing entry.accepts.name)).eraseDups
        rw [nothing]
        rfl

/-- **One more entry**: recorded among the banks of a size, it leaves them grouped. -/
theorem step (grouped : Grouped registers size listing banks) (entry : Entry) :
    Grouped registers size (listing ++ [entry])
      (SizeClass.addToBanks size entry.accepts (SizeClass.offered? registers entry) banks) := by
  by_cases present : entry.accepts.name ∈ listing.map (·.accepts.name)
  · exact grouped.step_of_mem present
  · exact grouped.step_of_notMem present

/-- There are banks if there are entries. -/
theorem ne_nil_iff (grouped : Grouped registers size listing banks) :
    banks ≠ [] ↔ listing ≠ [] := by
  rw [Ne, ← List.map_eq_nil_iff (f := fun bank : Bank => bank.predicate.name), grouped.names]
  cases listing with
  | nil => simp
  | cons entry rest => simp [List.eraseDups_cons]

end Bank.Grouped

/-- **A pass over a listing** groups it. -/
theorem Bank.grouped_foldl (registers : RegisterFile) (size : Nat) (listing : List Entry) :
    Bank.Grouped registers size listing (listing.foldl (fun banks entry =>
      SizeClass.addToBanks size entry.accepts (SizeClass.offered? registers entry) banks) []) := by
  induction listing using List.reverseRecOn with
  | nil => exact ⟨rfl, by simp⟩
  | append_singleton listing entry ih =>
    rw [List.foldl_append]
    exact ih.step entry

/-! ## Recording entries among size classes -/

namespace SizeClass

variable {registers : RegisterFile} {size served : Nat} {predicate : TypePredicate}
  {register? : Option RegisterId} {classes : List SizeClass}

/-- The banks of exactly a size among size classes. -/
def banksOf (classes : List SizeClass) (size : Nat) : List Bank :=
  match classes.find? fun sizeClass => sizeClass.size == size with
  | some sizeClass => sizeClass.banks
  | none => []

theorem banksOf_cons (sizeClass : SizeClass) (rest : List SizeClass) (size : Nat) :
    banksOf (sizeClass :: rest) size
      = if sizeClass.size = size then sizeClass.banks else banksOf rest size := by
  unfold banksOf
  by_cases same : sizeClass.size = size <;> simp [same]

theorem banksOf_eq_nil (absent : ∀ sizeClass ∈ classes, sizeClass.size ≠ size) :
    banksOf classes size = [] := by
  unfold banksOf
  rw [List.find?_eq_none.mpr (by simpa using absent)]

/-- There is one class of a size, as sizes ascend. -/
theorem banksOf_of_mem (ascending : classes.Pairwise (·.size < ·.size)) {sizeClass : SizeClass}
    (member : sizeClass ∈ classes) (same : sizeClass.size = size) :
    banksOf classes size = sizeClass.banks := by
  induction classes with
  | nil => cases member
  | cons first rest ih =>
    obtain ⟨below, ascending⟩ := List.pairwise_cons.mp ascending
    rw [banksOf_cons]
    rcases List.mem_cons.mp member with rfl | later
    · exact if_pos same
    · rw [if_neg (by have := below sizeClass later; omega), ih ascending later]

/-- Recording under a size changes the banks of that size, and no others. -/
theorem banksOf_add (ascending : classes.Pairwise (·.size < ·.size)) :
    banksOf (add size predicate register? classes) served =
      if size = served then addToBanks size predicate register? (banksOf classes size)
      else banksOf classes served := by
  induction classes with
  | nil => rw [add, banksOf_cons]; rfl
  | cons first rest ih =>
    obtain ⟨below, ascending⟩ := List.pairwise_cons.mp ascending
    unfold add
    split
    · next less =>
      have fresh : banksOf (first :: rest) size = [] := by
        refine banksOf_eq_nil fun other member => ?_
        rcases List.mem_cons.mp member with rfl | later
        · omega
        · have := below other later
          omega
      rw [banksOf_cons, fresh]
    · split
      · next same =>
        rw [banksOf_cons, banksOf_cons, banksOf_cons, if_pos same.symm]
        by_cases isServed : size = served
        · rw [if_pos isServed, if_pos isServed]
        · rw [if_neg isServed, if_neg isServed, if_neg (same ▸ isServed)]
      · next differs =>
        rw [banksOf_cons, ih ascending, banksOf_cons, banksOf_cons, if_neg (Ne.symm differs)]
        by_cases isFirst : first.size = served
        · rw [if_pos isFirst, if_pos isFirst, if_neg (by omega)]
        · rw [if_neg isFirst, if_neg isFirst]

/-- **An entry acts once on each size** that it lists, however often it lists it. -/
theorem banksOf_addEntry (tidy : Tidy (fun _ => True) classes) (entry : Entry) :
    banksOf (addEntry registers classes entry) served =
      if served ∈ entry.sizes then
        addToBanks served entry.accepts (offered? registers entry) (banksOf classes served)
      else banksOf classes served := by
  suffices general : ∀ (sizes : List Nat) {classes : List SizeClass},
      Tidy (fun _ => True) classes →
      banksOf (sizes.foldl (fun classes size =>
        add size entry.accepts (offered? registers entry) classes) classes) served =
      if served ∈ sizes then
        addToBanks served entry.accepts (offered? registers entry) (banksOf classes served)
      else banksOf classes served from
    general entry.sizes tidy
  intro sizes
  induction sizes with
  | nil => exact fun _ => (if_neg (List.not_mem_nil)).symm
  | cons size rest ih =>
    intro classes tidy
    rw [List.foldl_cons, ih (tidy.add fun _ _ => trivial), banksOf_add tidy.ascending]
    by_cases here : size = served
    · subst here
      rw [if_pos rfl, if_pos List.mem_cons_self, addToBanks_idem, ite_self]
    · simp only [if_neg here, List.mem_cons, Ne.symm here, false_or]

/-- **The banks of a size come from its listing alone.** -/
theorem banksOf_foldl (entries : List Entry) :
    ∀ {classes : List SizeClass}, Tidy (fun _ => True) classes →
      banksOf (entries.foldl (addEntry registers) classes) served =
        (Entry.listing entries served).foldl (fun banks entry =>
          addToBanks served entry.accepts (offered? registers entry) banks)
          (banksOf classes served) := by
  induction entries with
  | nil => exact fun _ => rfl
  | cons entry rest ih =>
    intro classes tidy
    rw [List.foldl_cons, ih (tidy.addEntry registers trivial), banksOf_addEntry tidy,
      Entry.listing, Entry.listing, List.filter_cons]
    by_cases lists : served ∈ entry.sizes <;> simp [lists]

theorem mem_map_size_add :
    served ∈ (add size predicate register? classes).map (·.size) ↔
      served = size ∨ served ∈ classes.map (·.size) := by
  induction classes with
  | nil => simp [add]
  | cons first rest ih =>
    unfold add
    split
    · simp
    · split
      · next same => simp [same]
      · rw [List.map_cons, List.mem_cons, ih, List.map_cons, List.mem_cons, or_left_comm]

theorem mem_map_size_addEntry {entry : Entry} :
    served ∈ (addEntry registers classes entry).map (·.size) ↔
      served ∈ entry.sizes ∨ served ∈ classes.map (·.size) := by
  unfold addEntry
  generalize entry.sizes = sizes
  induction sizes generalizing classes with
  | nil => simp
  | cons size rest ih => rw [List.foldl_cons, ih, mem_map_size_add, List.mem_cons, or_left_comm,
      or_assoc]

theorem mem_map_size_foldl (entries : List Entry) :
    ∀ {classes : List SizeClass},
      served ∈ (entries.foldl (addEntry registers) classes).map (·.size) ↔
        (∃ entry ∈ entries, served ∈ entry.sizes) ∨ served ∈ classes.map (·.size) := by
  induction entries with
  | nil => simp
  | cons entry rest ih =>
    intro classes
    rw [List.foldl_cons, ih, mem_map_size_addEntry, List.exists_mem_cons_iff, or_left_comm,
      or_assoc]

end SizeClass

/-! ## Catalogs -/

namespace Catalog

variable {target : Target} {catalog : Catalog}

/-- **A catalog that holds what the entries of a target say**, and nothing else. -/
structure Exact (target : Target) (catalog : Catalog) : Prop where
  ascending : catalog.sizes.Pairwise (· < ·)
  /-- Entries whose registers must not be handed out count as well. -/
  mem_sizes : ∀ size, size ∈ catalog.sizes ↔ ∃ entry ∈ target.entries, size ∈ entry.sizes
  served : ∀ size, catalog.banksFor size ≠ [] ↔ size ∈ catalog.sizes
  grouped : ∀ size, Bank.Grouped target.registers size (Entry.listing target.entries size)
    (catalog.banksFor size)
  closest : ∀ size index, catalog.closestIndex? size = some index ↔
    IsGreatest {index | ∃ served ∈ catalog.sizes[index]?, served ≤ size} index
  tooSmall : ∀ size, catalog.closestIndex? size = none ↔ ∀ served ∈ catalog.sizes, size < served

/-- The banks of a size are those of the one class that has it. -/
theorem banksFor_eq_banksOf (ascending : catalog.classes.Pairwise (·.size < ·.size))
    (size : Nat) : catalog.banksFor size = SizeClass.banksOf catalog.classes size := by
  unfold banksFor
  rcases catalog.search_cases size with ⟨inside, same, exactly⟩ | ⟨larger, between⟩
  · rw [exactly]
    exact (SizeClass.banksOf_of_mem ascending (List.get_mem _ _) same).symm
  · rw [between]
    refine (SizeClass.banksOf_eq_nil fun sizeClass member => ?_).symm
    obtain ⟨index, found⟩ := List.mem_iff_getElem?.mp member
    rcases Nat.lt_trichotomy index (catalog.place size) with before | rfl | behind
    · exact Nat.ne_of_lt (size_lt_of_lt_place found before)
    · exact Nat.ne_of_gt (larger sizeClass found)
    · exact Nat.ne_of_gt (lt_size_of_place_lt ascending found behind)

theorem exists_mem_sizes_iff {size index : Nat} :
    (∃ served ∈ catalog.sizes[index]?, served ≤ size) ↔
      ∃ sizeClass, catalog.classes[index]? = some sizeClass ∧ sizeClass.size ≤ size := by
  simp [sizes]

/-- A search that finds the size stops at the last class that is small enough. -/
theorem small_iff_le_place (ascending : catalog.classes.Pairwise (·.size < ·.size)) {size : Nat}
    (inside : catalog.place size < catalog.classes.length)
    (same : (catalog.classes.get ⟨_, inside⟩).size = size) (index : Nat) :
    (∃ served ∈ catalog.sizes[index]?, served ≤ size) ↔ index ≤ catalog.place size := by
  rw [exists_mem_sizes_iff]
  constructor
  · rintro ⟨sizeClass, found, small⟩
    by_contra behind
    exact Nat.not_lt.mpr small (lt_size_of_place_lt ascending found (Nat.not_le.mp behind))
  · intro notBehind
    rcases Nat.lt_or_eq_of_le notBehind with before | rfl
    · have found := List.getElem?_eq_getElem (Nat.lt_trans before inside)
      exact ⟨_, found, Nat.le_of_lt (size_lt_of_lt_place found before)⟩
    · exact ⟨_, List.getElem?_eq_getElem inside, Nat.le_of_eq same⟩

/-- A search that does not find the size stops behind the classes that are small enough. -/
theorem small_iff_lt_place (ascending : catalog.classes.Pairwise (·.size < ·.size)) {size : Nat}
    (larger : ∀ sizeClass ∈ catalog.classes[catalog.place size]?, size < sizeClass.size)
    (index : Nat) :
    (∃ served ∈ catalog.sizes[index]?, served ≤ size) ↔ index < catalog.place size := by
  rw [exists_mem_sizes_iff]
  constructor
  · rintro ⟨sizeClass, found, small⟩
    by_contra notBefore
    refine Nat.not_lt.mpr small ?_
    rcases Nat.lt_or_eq_of_le (Nat.not_lt.mp notBefore) with behind | rfl
    · exact lt_size_of_place_lt ascending found behind
    · exact larger sizeClass found
  · intro before
    have found := List.getElem?_eq_getElem (Nat.lt_of_lt_of_le before List.findIdx_le_length)
    exact ⟨_, found, Nat.le_of_lt (size_lt_of_lt_place found before)⟩

/-- **The closest class** is the last of those that are small enough; there is none if no class
is. -/
theorem closestIndex?_cases (ascending : catalog.classes.Pairwise (·.size < ·.size))
    (size : Nat) :
    (catalog.closestIndex? size = none ∧
      ∀ index : Nat, ¬ ∃ served ∈ catalog.sizes[index]?, served ≤ size) ∨
      ∃ last, catalog.closestIndex? size = some last ∧
        ∀ index : Nat, (∃ served ∈ catalog.sizes[index]?, served ≤ size) ↔ index ≤ last := by
  unfold closestIndex?
  rcases catalog.search_cases size with ⟨inside, same, exactly⟩ | ⟨larger, between⟩
  · rw [exactly]
    exact Or.inr ⟨_, rfl, small_iff_le_place ascending inside same⟩
  · have small := small_iff_lt_place ascending larger
    rw [between]
    cases place : catalog.place size with
    | zero =>
      refine Or.inl ⟨rfl, fun index => ?_⟩
      rw [small, place]
      exact Nat.not_lt_zero index
    | succ previous =>
      refine Or.inr ⟨previous, rfl, fun index => ?_⟩
      rw [small, place, Nat.lt_succ_iff]

theorem closestIndex?_eq_some_iff (ascending : catalog.classes.Pairwise (·.size < ·.size))
    {size index : Nat} :
    catalog.closestIndex? size = some index ↔
      IsGreatest {index | ∃ served ∈ catalog.sizes[index]?, served ≤ size} index := by
  rcases closestIndex?_cases ascending size with ⟨isNone, nothing⟩ | ⟨last, isLast, small⟩
  · rw [isNone]
    exact iff_of_false nofun fun greatest => nothing index greatest.1
  · rw [isLast, Option.some_inj]
    constructor
    · rintro rfl
      exact ⟨(small last).mpr (Nat.le_refl last), fun index isSmall => (small index).mp isSmall⟩
    · rintro ⟨isSmall, largest⟩
      exact Nat.le_antisymm (largest ((small last).mpr (Nat.le_refl last)))
        ((small index).mp isSmall)

theorem closestIndex?_eq_none_iff (ascending : catalog.classes.Pairwise (·.size < ·.size))
    {size : Nat} :
    catalog.closestIndex? size = none ↔ ∀ served ∈ catalog.sizes, size < served := by
  rcases closestIndex?_cases ascending size with ⟨isNone, nothing⟩ | ⟨last, isLast, small⟩
  · refine iff_of_true isNone fun served member => ?_
    obtain ⟨index, found⟩ := List.mem_iff_getElem?.mp member
    by_contra isSmall
    exact nothing index ⟨served, found, Nat.not_lt.mp isSmall⟩
  · rw [isLast]
    refine iff_of_false nofun fun large => ?_
    obtain ⟨served, found, isSmall⟩ := (small last).mpr (Nat.le_refl last)
    exact Nat.not_lt.mpr isSmall (large served (List.mem_of_getElem? found))

/-- **A catalog that is built is exact.** -/
theorem exact_of_build (done : Catalog.build target = .ok catalog) : Exact target catalog := by
  have nothing : SizeClass.Tidy (fun _ => True) [] := ⟨List.Pairwise.nil, by simp⟩
  have classes : catalog.classes = target.entries.foldl (SizeClass.addEntry target.registers) [] :=
    congrArg Catalog.classes (eq_of_build done)
  have ascending : catalog.classes.Pairwise (·.size < ·.size) := by
    rw [classes]
    exact (SizeClass.tidy_foldl target.registers target.entries nothing
      fun _ _ => trivial).ascending
  have mem_sizes : ∀ size, size ∈ catalog.sizes ↔
      ∃ entry ∈ target.entries, size ∈ entry.sizes := by
    intro size
    rw [sizes, classes, SizeClass.mem_map_size_foldl]
    exact or_iff_left List.not_mem_nil
  have grouped : ∀ size, Bank.Grouped target.registers size (Entry.listing target.entries size)
      (catalog.banksFor size) := by
    intro size
    rw [banksFor_eq_banksOf ascending, classes, SizeClass.banksOf_foldl target.entries nothing]
    exact Bank.grouped_foldl target.registers size _
  exact {
    ascending := List.pairwise_map.mpr ascending
    mem_sizes
    served := fun size =>
      ((grouped size).ne_nil_iff.trans Entry.listing_ne_nil_iff).trans (mem_sizes size).symm
    grouped
    closest := fun size index => closestIndex?_eq_some_iff ascending
    tooSmall := fun size => closestIndex?_eq_none_iff ascending }

/-- **A target has no catalog** exactly if nothing is left to be handed out. -/
theorem build_eq_error_iff (listed : ∀ entry ∈ target.entries, entry.sizes ≠ []) :
    (∃ error, Catalog.build target = .error error) ↔
      ∀ entry ∈ target.entries, target.registers.isUsable entry.register = false := by
  constructor
  · rintro ⟨error, failed⟩ entry isEntry
    by_contra usable
    obtain ⟨size, served⟩ := List.exists_mem_of_ne_nil _ (listed entry isEntry)
    obtain ⟨catalog, done⟩ := exists_build isEntry (Bool.of_not_eq_false usable) served
    cases failed.symm.trans done
  · intro unusable
    refine ⟨_, if_pos ?_⟩
    simp only [List.all_eq_true, List.isEmpty_iff]
    intro sizeClass isClass bank isBank
    refine List.eq_nil_iff_forall_not_mem.mpr fun register member => ?_
    -- what a bank holds, some entry offers
    have serves : SizeClass.Serves _ sizeClass.size bank.predicate.name register :=
      ⟨sizeClass, isClass, rfl, bank, isBank, rfl, member⟩
    rcases (SizeClass.serves_foldl _ _).mp serves with ⟨entry, isEntry, -, -, offered⟩ | none
    · rw [SizeClass.offered?, unusable entry isEntry] at offered
      cases offered
    · obtain ⟨_, isClass, -⟩ := none
      cases isClass

/-- **Catalogs say what their targets say.**  A target that is accepted has no catalog exactly if
none of its entries names a usable register; its catalog, if it has one, is exact. -/
theorem build_fails_or_exact {name : String} {registers : RegisterFile} {entries : List Entry}
    (made : Target.make name registers entries = .ok target) :
    ((∃ error, Catalog.build target = .error error) ↔
      ∀ entry ∈ target.entries, target.registers.isUsable entry.register = false) ∧
      ∀ catalog, Catalog.build target = .ok catalog → Exact target catalog := by
  refine ⟨build_eq_error_iff ?_, fun catalog => exact_of_build⟩
  obtain ⟨rfl, checked⟩ := Target.eq_of_make made
  exact fun entry isEntry => Entry.sizes_ne_nil_of_check (checked entry isEntry)

/-- Three registers, of which the second must not be handed out.  Sizes and entries are repeated,
and of two predicates with one name the later one accepts nothing. -/
def tangled : Target where
  name := "tangled"
  registers := .ofBuilder ((((RegisterBuilder.empty.add "a" 8 .integer false).add "b" 8 .integer
    false).add "c" 8 .integer false).flag ⟨1⟩ false)
  entries :=
    [⟨⟨2⟩, [8, 4, 8], .integer⟩, ⟨⟨1⟩, [2, 8], .sse⟩, ⟨⟨0⟩, [8], ⟨"integer", fun _ => false⟩⟩,
      ⟨⟨2⟩, [4, 8], .integer⟩, ⟨⟨0⟩, [8], .sse⟩]

theorem build_fails_or_exact_tangled :
    Target.make "tangled" tangled.registers tangled.entries = .ok tangled ∧
      ∃ catalog, Catalog.build tangled = .ok catalog ∧ Exact tangled catalog ∧
        catalog.sizes = [2, 4, 8] ∧ catalog.banksFor 2 = [⟨2, .sse, []⟩] ∧
        catalog.banksFor 8 = [⟨8, .integer, [⟨2⟩, ⟨0⟩]⟩, ⟨8, .sse, [⟨0⟩]⟩] := by
  have made : Target.make "tangled" tangled.registers tangled.entries = .ok tangled := rfl
  exact ⟨made, _, rfl, (build_fails_or_exact made).2 _ rfl, rfl, rfl, rfl⟩

end Catalog

end LinearScan
