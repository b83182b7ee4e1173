import LinearScan.Proofs.Scan.Supply
import Mathlib.Data.List.Find

/-!
# The search for a register

The scan looks for a register size class by size class, beginning at the closest one, bank
by bank and flag by flag.  `find_eq_pick?` says that it finds what a search through all
candidates finds: skipped classes hold nothing large enough, a cleared flag hides nothing
that is not blocked anyway, and all that is held is in the file.

Both searches walk a table of rows; `searchRows` is that walk, so that the two are compared
entry by entry and not as nested searches.
-/

namespace LinearScan

/-! ## Walking a table -/

section Rows

variable {α β γ : Type}

/-- Searches with equal outcomes on all items have equal outcomes. -/
theorem findSome?_congr {items : List α} {f g : α → Option β} (same : ∀ a ∈ items, f a = g a) :
    items.findSome? f = items.findSome? g := by
  induction items with
  | nil => rfl
  | cons first rest ih =>
    obtain ⟨firstSame, restSame⟩ := List.forall_mem_cons.mp same
    rw [List.findSome?_cons, List.findSome?_cons, firstSame, ih restSame]

/-- A search through joined lists is a search of searches. -/
theorem findSome?_flatMap (items : List α) (f : α → List β) (g : β → Option γ) :
    (items.flatMap f).findSome? g = items.findSome? fun a => (f a).findSome? g := by
  induction items with
  | nil => rfl
  | cons first rest ih =>
    rw [List.flatMap_cons, List.findSome?_append, ih, List.findSome?_cons]
    cases (f first).findSome? g <;> rfl

/-- A search through part of a list passes over the rest of it. -/
theorem findSome?_filter (items : List α) (p : α → Bool) (f : α → Option β) :
    (items.filter p).findSome? f = items.findSome? fun a => if p a then f a else none := by
  induction items with
  | nil => rfl
  | cons first rest ih =>
    rw [List.findSome?_cons]
    by_cases passes : p first = true
    · rw [List.filter_cons_of_pos passes, List.findSome?_cons, ih, if_pos passes]
    · rw [List.filter_cons_of_neg passes, ih, if_neg passes]

/-- The first outcome of a test over a table of rows, each entry with its place. -/
def searchRows (rows : List (List α)) (test : BankRef → α → Option β) : Option β :=
  rows.zipIdx.findSome? fun (row, sizeIndex) =>
    row.zipIdx.findSome? fun (a, bankIndex) => test ⟨sizeIndex, bankIndex⟩ a

/-- A search through the images of a table is a search through the table. -/
theorem searchRows_map (rows : List (List α)) (f : α → β) (test : BankRef → β → Option γ) :
    searchRows (rows.map (·.map f)) test = searchRows rows fun place a => test place (f a) := by
  unfold searchRows
  rw [List.zipIdx_map, List.findSome?_map]
  apply findSome?_congr
  rintro ⟨row, sizeIndex⟩ -
  simp only [Function.comp_apply, Prod.map_apply, id_eq]
  rw [List.zipIdx_map, List.findSome?_map]
  rfl

/-- An outcome is that of some entry. -/
theorem exists_of_searchRows {rows : List (List α)} {test : BankRef → α → Option β} {b : β}
    (found : searchRows rows test = some b) :
    ∃ place a, (do let row ← rows[place.sizeIndex]?; row[place.bankIndex]?) = some a ∧
      test place a = some b := by
  obtain ⟨⟨row, sizeIndex⟩, atSize, inRow⟩ := List.exists_of_findSome?_eq_some found
  obtain ⟨⟨a, bankIndex⟩, atBank, tested⟩ := List.exists_of_findSome?_eq_some inRow
  refine ⟨⟨sizeIndex, bankIndex⟩, a, Option.bind_eq_some_iff.mpr ⟨row, ?_, ?_⟩, tested⟩
  · exact List.mem_zipIdx_iff_getElem?.mp atSize
  · exact List.mem_zipIdx_iff_getElem?.mp atBank

/-- Rows in which nothing passes need not be walked. -/
theorem findSome?_drop_zipIdx {rows : List α} {test : α × Nat → Option β} (first : Nat)
    (skipped : ∀ row index, rows[index]? = some row → index < first → test (row, index) = none) :
    (rows.zipIdx.drop first).findSome? test = rows.zipIdx.findSome? test := by
  have front : (rows.zipIdx.take first).findSome? test = none := by
    rw [List.findSome?_eq_none_iff]
    rintro ⟨row, index⟩ member
    obtain ⟨place, inside, here⟩ := List.mem_take_iff_getElem.mp member
    rw [List.getElem_zipIdx, Prod.mk.injEq, Nat.zero_add] at here
    obtain ⟨rfl, rfl⟩ := here
    refine skipped _ place (List.getElem?_eq_getElem _) ?_
    exact Nat.lt_of_lt_of_le inside (Nat.min_le_left _ _)
  conv_rhs => rw [← List.take_append_drop first rows.zipIdx, List.findSome?_append, front]
  rfl

end Rows

/-! ## The two searches -/

/-- The first register of a bank that suits, if the bank admits an interval at all. -/
def Bank.search (bank : Bank) (interval : Interval) (suits : RegisterId → Bool) :
    Option RegisterId :=
  if bank.admits interval.type interval.size then bank.registers.find? suits else none

namespace PlainScan

/-- The search through all candidates, bank by bank. -/
theorem pick?_eq_searchRows (catalog : Catalog) (held : List Held) (interval : Interval) :
    pick? catalog held interval =
      searchRows (catalog.classes.map (·.banks)) fun place bank =>
        (bank.search interval (isClear catalog.registers held)).map fun register =>
          (register, place) := by
  rw [pick?, candidates, List.find?_flatMap, findSome?_filter, Catalog.bankPlaces,
    findSome?_flatMap, searchRows, List.zipIdx_map, List.findSome?_map]
  apply findSome?_congr
  rintro ⟨sizeClass, sizeIndex⟩ -
  rw [List.findSome?_map]
  apply findSome?_congr
  rintro ⟨bank, bankIndex⟩ -
  simp only [Function.comp_apply, Bank.search]
  split
  · rw [List.find?_map]
    rfl
  · rfl

end PlainScan

namespace ScanState

variable {catalog : Catalog} {state : ScanState} {interval : Interval}

/-- A register that suits is free in the bank it is searched in: had its flag been cleared,
its holder would block it. -/
theorem isFree_of_isClear {suppliers : List (List Supplier)} {holders : List Held}
    (supplies : Supplies catalog suppliers holders) {place : BankRef} {supplier : Supplier}
    (found : supplierAt? suppliers place = some supplier) {register : RegisterId}
    (member : register ∈ supplier.bank.registers)
    (clear : PlainScan.isClear catalog.registers holders register = true) :
    supplier.isFree register = true := by
  by_contra cleared
  obtain ⟨holder, isHolder, -, same⟩ :=
    (supplies.taken place supplier found register member).mp (Bool.eq_false_iff.mpr cleared)
  have apart := PlainScan.isClear_iff.mp clear holder isHolder
  exact RegisterFile.ne_of_not_intersects apart same

/-- What is held is in the file, so asking whether a register is clear meets no fault. -/
theorem conflicts_eq (wellFormed : catalog.WellFormed)
    (supplies : Supplies catalog state.suppliers state.active.entries) (candidate : RegisterId) :
    state.conflicts catalog.registers candidate
      = .ok !PlainScan.isClear catalog.registers state.active.entries candidate := by
  rw [PlainScan.isClear, List.not_all_eq_any_not]
  simp only [Bool.not_not]
  refine Outcome.anyM_eq_ok ?_
  intro held isHolder
  obtain ⟨bank, atBank, inBank⟩ := supplies.fromBank held isHolder
  obtain ⟨name, named⟩ := wellFormed.exists_name atBank inBank
  obtain ⟨register, found⟩ := RegisterFile.exists_get_of_name named
  exact RegisterFile.intersectsChecked_of_get found candidate

/-- What the search finds at a place, if anything. -/
def foundAt (catalog : Catalog) (holders : List Held) (interval : Interval) (place : BankRef)
    (supplier : Supplier) : Option Found :=
  (supplier.bank.search interval (PlainScan.isClear catalog.registers holders)).map fun register =>
    { register, bank := place, supplier := supplier.mark register false }

/-- **One bank** is searched without fault, and its flags need not be asked: what is clear is
free. -/
theorem searchBank_eq (wellFormed : catalog.WellFormed)
    (supplies : Supplies catalog state.suppliers state.active.entries) {place : BankRef}
    {supplier : Supplier} (found : supplierAt? state.suppliers place = some supplier) :
    (do
      if supplier.bank.admits interval.type interval.size then
        let taken ← supplier.nextM fun register => do
          return !(← state.conflicts catalog.registers register)
        return taken.map fun taken => (⟨taken.1, place, taken.2⟩ : Found)
      else return none)
      = Except.ok (foundAt catalog state.active.entries interval place supplier) := by
  let clear := PlainScan.isClear catalog.registers state.active.entries
  have sameFind : (supplier.bank.registers.find? fun register =>
      supplier.isFree register && clear register) = supplier.bank.registers.find? clear := by
    apply List.find?_congr
    intro register member
    by_cases isClear : clear register = true
    · rw [isClear, isFree_of_isClear supplies found member isClear]
      rfl
    · rw [Bool.eq_false_iff.mpr isClear, Bool.and_false]
  unfold foundAt Bank.search
  split
  · rw [Supplier.nextM_eq (supplies.nodup place supplier found) fun register _ => ?_, sameFind]
    · show Except.ok (Option.map _ (Option.map _ _)) = _
      rw [Option.map_map]
      rfl
    · rw [conflicts_eq wellFormed supplies]
      show Except.ok (!!clear register) = _
      rw [Bool.not_not]
      rfl
  · rfl

/-- The search for a register, supplier by supplier and over all size classes. -/
theorem find_eq_searchRows (wellFormed : catalog.WellFormed)
    (supplies : Supplies catalog state.suppliers state.active.entries) :
    state.find catalog interval =
      .ok (searchRows state.suppliers (foundAt catalog state.active.entries interval)) := by
  have rows : state.find catalog interval = .ok
      ((state.suppliers.zipIdx.drop ((catalog.closestIndex? interval.size).getD 0)).findSome?
        fun row => row.1.zipIdx.findSome? fun entry =>
          foundAt catalog state.active.entries interval ⟨row.2, entry.2⟩ entry.1) := by
    refine Outcome.findSomeM?_eq_ok ?_
    rintro ⟨row, sizeIndex⟩ inRows
    refine Outcome.findSomeM?_eq_ok ?_
    rintro ⟨supplier, bankIndex⟩ inRow
    refine searchBank_eq wellFormed supplies (Option.bind_eq_some_iff.mpr ⟨row, ?_, ?_⟩)
    · exact List.mem_zipIdx_iff_getElem?.mp (List.mem_of_mem_drop inRows)
    · exact List.mem_zipIdx_iff_getElem?.mp inRow
  rw [rows, findSome?_drop_zipIdx]
  · rfl
  · -- No bank of a skipped class is large enough.
    intro row index atSize below
    rw [List.findSome?_eq_none_iff]
    rintro ⟨supplier, bankIndex⟩ atBank
    have found : supplierAt? state.suppliers ⟨index, bankIndex⟩ = some supplier :=
      Option.bind_eq_some_iff.mpr ⟨row, atSize, List.mem_zipIdx_iff_getElem?.mp atBank⟩
    have atPlace : catalog.bank? ⟨index, bankIndex⟩ = some supplier.bank := by
      rw [← supplies.map_bank, found]
      rfl
    obtain ⟨sizeClass, atClass, fits⟩ := wellFormed.fits_of_bank? atPlace
    have small := Catalog.size_lt_of_lt_closestIndex atClass below
    rw [← fits.size_eq] at small
    simp [foundAt, Bank.search, Bank.admits, Nat.not_le.mpr small]

/-- **The search finds the first clear candidate**, the one that a search through all banks
would find, and meets no fault. -/
theorem find_eq_pick? (wellFormed : catalog.WellFormed)
    (supplies : Supplies catalog state.suppliers state.active.entries) (interval : Interval) :
    ∃ found?, state.find catalog interval = .ok found? ∧
      found?.map (fun found => (found.register, found.bank)) =
        PlainScan.pick? catalog state.active.entries interval := by
  refine ⟨_, find_eq_searchRows wellFormed supplies, ?_⟩
  rw [PlainScan.pick?_eq_searchRows, ← supplies.layout, searchRows_map, searchRows,
    List.map_findSome?]
  apply findSome?_congr
  rintro ⟨row, sizeIndex⟩ -
  rw [Function.comp_apply, List.map_findSome?]
  apply findSome?_congr
  rintro ⟨supplier, bankIndex⟩ -
  show (foundAt catalog state.active.entries interval ⟨sizeIndex, bankIndex⟩ supplier).map _ = _
  rw [foundAt, Option.map_map]
  rfl

/-- What the search finds is taken from its supplier. -/
theorem eq_mark_of_find (wellFormed : catalog.WellFormed)
    (supplies : Supplies catalog state.suppliers state.active.entries) {found : Found}
    (search : state.find catalog interval = .ok (some found)) :
    ∃ supplier, supplierAt? state.suppliers found.bank = some supplier ∧
      found.register ∈ supplier.bank.registers ∧
      found.supplier = supplier.mark found.register false := by
  rw [find_eq_searchRows wellFormed supplies] at search
  obtain ⟨place, supplier, atPlace, tested⟩ := exists_of_searchRows (Except.ok.inj search)
  obtain ⟨register, suits, rfl⟩ := Option.map_eq_some_iff.mp tested
  refine ⟨supplier, atPlace, ?_, rfl⟩
  unfold Bank.search at suits
  split at suits
  · exact List.mem_of_find?_eq_some suits
  · cases suits

end ScanState

end LinearScan
