import LinearScan.Proofs.Bank.Origin
import LinearScan.Proofs.Plain.Scan
import Mathlib.Combinatorics.Enumerative.DoubleCounting
import Mathlib.Data.List.Perm.Subperm

/-!
# Who stands in the way

When a scan finds no register for an interval, every register that could hold it is blocked by a
holder.  How many holders does that take?  With overlapping registers one holder may block
several of them at once, so the answer is not the number of registers.  But from any choice of
registers that are *spread*, in the sense that no register of the file shares storage with two
of them, each holder blocks one at most.  `PlainScan.card_le_countP_of_blocked` is the count that
follows, and every bound on spills rests on it.

Holders have to be compared with the list of intervals they come from, in which one interval may
occur several times.  `PlainScan.Housed` therefore speaks of lists up to order and not of sets:
those who went to the stack and those who hold a register are, together, part of what has been
placed.  No assumption on temps is made.
-/

namespace LinearScan

/-- Registers of which no register of a file overlaps two. -/
def RegisterFile.Spread (file : RegisterFile) (registers : Finset RegisterId) : Prop :=
  ∀ register : RegisterId, register.index < file.size → ∀ a ∈ registers, ∀ b ∈ registers,
    file.intersects register a = true → file.intersects register b = true → a = b

instance (file : RegisterFile) (registers : Finset RegisterId) :
    Decidable (file.Spread registers) :=
  decidable_of_iff (∀ index < file.size, ∀ a ∈ registers, ∀ b ∈ registers,
      file.intersects ⟨index⟩ a = true → file.intersects ⟨index⟩ b = true → a = b)
    ⟨fun spread register => spread register.index, fun spread index => spread ⟨index⟩⟩

namespace Catalog

variable {catalog : Catalog} {interval : Interval} {register : RegisterId}

/-- A register is in a bank that is large enough for an interval and takes its type. -/
def Offers (catalog : Catalog) (interval : Interval) (register : RegisterId) : Prop :=
  ∃ bank ∈ catalog.banks, bank.admits interval.type interval.size = true ∧
    register ∈ bank.registers

instance (catalog : Catalog) (interval : Interval) (register : RegisterId) :
    Decidable (catalog.Offers interval register) :=
  inferInstanceAs (Decidable (∃ bank ∈ catalog.banks, _ ∧ _))

/-- An interval may come to hold a register that overlaps one of the given ones. -/
def Contends (catalog : Catalog) (registers : Finset RegisterId) (interval : Interval) : Prop :=
  ∃ bank ∈ catalog.banks, bank.admits interval.type interval.size = true ∧
    ∃ register ∈ bank.registers, ∃ other ∈ registers,
      catalog.registers.intersects register other = true

instance (catalog : Catalog) (registers : Finset RegisterId) (interval : Interval) :
    Decidable (catalog.Contends registers interval) :=
  inferInstanceAs (Decidable (∃ bank ∈ catalog.banks, _ ∧ ∃ register ∈ bank.registers,
    ∃ other ∈ registers, _))

/-- **Room for an interval** behind others: there are spread registers that are offered to it,
more than there are values among the others that contend for them and are alive when it
starts. -/
def HasRoom (catalog : Catalog) (done : List Interval) (interval : Interval) : Prop :=
  ∃ registers : Finset RegisterId, catalog.registers.Spread registers ∧
    (∀ register ∈ registers, catalog.Offers interval register) ∧
    done.countP (fun other => interval.start ≤ other.stop ∧ catalog.Contends registers other)
      < registers.card

section Entries

variable {target : Target} (reachable : target.Reachable) (agreeing : target.Agreeing)
  (done : Catalog.build target = .ok catalog)

include reachable agreeing done

/-- A usable register is offered to what fits one of its entries. -/
theorem offers_of_entry {entry : Entry} (isEntry : entry ∈ target.entries)
    (usable : target.registers.isUsable entry.register = true) {size : Nat}
    (served : size ∈ entry.sizes) (fits : interval.size ≤ size)
    (accepts : entry.accepts.accepts interval.type = true) :
    catalog.Offers interval entry.register := by
  obtain ⟨sizeClass, isClass, rfl, bank, inClass, named, member⟩ :=
    (serves_iff done).mpr ⟨usable, entry, isEntry, rfl, served, rfl⟩
  have isBank : bank ∈ catalog.banks := List.mem_flatMap.mpr ⟨sizeClass, isClass, inClass⟩
  have wellFormed : catalog.WellFormed := Built.wellFormed ⟨target, reachable, done⟩
  obtain ⟨place, found⟩ := mem_banks_iff.mp isBank
  obtain ⟨first, isFirst, same⟩ := (drawn_of_build reachable done found).predicate
  rw [← same] at named
  have accepted : bank.accepts interval.type = true := by
    rw [Bank.accepts, ← same, agreeing first isFirst entry isEntry named]
    exact accepts
  have large : interval.size ≤ bank.size := by
    rw [(wellFormed.tidy.fits sizeClass isClass bank inClass).size_eq]
    exact fits
  refine ⟨bank, isBank, ?_, member⟩
  rw [Bank.admits, accepted, Bool.and_true, decide_eq_true_iff]
  exact large

/-- What contends for registers fits an entry of one that overlaps them. -/
theorem exists_entry_of_contends {registers : Finset RegisterId}
    (contends : catalog.Contends registers interval) :
    ∃ entry ∈ target.entries, entry.accepts.accepts interval.type = true ∧
      ∃ other ∈ registers, target.registers.intersects entry.register other = true := by
  obtain ⟨bank, isBank, admits, register, inBank, other, isOther, shares⟩ := contends
  obtain ⟨place, found⟩ := mem_banks_iff.mp isBank
  obtain ⟨-, entry, isEntry, rfl, -, accepts⟩ :=
    (drawn_of_build reachable done found).exists_entry agreeing admits inBank
  obtain rfl := eq_of_build done
  exact ⟨entry, isEntry, accepts, other, isOther, shares⟩

end Entries

/-- What is offered is a candidate. -/
theorem offers_iff :
    catalog.Offers interval register ↔
      ∃ place, (register, place) ∈ PlainScan.candidates catalog interval := by
  simp only [Offers, mem_banks_iff, PlainScan.mem_candidates]
  constructor
  · rintro ⟨bank, ⟨place, found⟩, suits⟩
    exact ⟨place, bank, found, suits⟩
  · rintro ⟨place, bank, found, suits⟩
    exact ⟨bank, ⟨place, found⟩, suits⟩

end Catalog

namespace PlainScan

variable {catalog : Catalog} {options : Options} {scan scan' : PlainScan} {seq position : Nat}
  {done gone : List Interval} {interval : Interval} {registers : Finset RegisterId}

/-- **Counting blockers.**  If no register is clear for an interval, the holders that contend for
some spread registers that are offered to it are as many as those registers at least. -/
theorem card_le_countP_of_blocked (wellFormed : catalog.WellFormed) {held : List Held}
    (housed : ∀ holder ∈ held,
      (holder.register, holder.bank) ∈ candidates catalog holder.interval)
    (spread : catalog.registers.Spread registers)
    (offered : ∀ register ∈ registers, catalog.Offers interval register)
    (blocked : pick? catalog held interval = none) :
    registers.card ≤ held.countP fun holder => catalog.Contends registers holder.interval := by
  let rivals := held.filter fun holder => catalog.Contends registers holder.interval
  -- what blocks one of the registers overlaps it, so it is held by a rival
  have blockers : ∀ register ∈ registers, ∃ holder ∈ rivals.toFinset,
      catalog.registers.intersects holder.register register = true := by
    intro register member
    obtain ⟨place, candidate⟩ := Catalog.offers_iff.mp (offered register member)
    obtain ⟨bank, found, admits, inBank⟩ := mem_candidates.mp candidate
    obtain ⟨holder, isHolder, shares⟩ := pick?_eq_none blocked found admits inBank
    obtain ⟨bank', found', admits', inBank'⟩ := mem_candidates.mp (housed holder isHolder)
    have contends : catalog.Contends registers holder.interval :=
      ⟨bank', Catalog.mem_banks_iff.mpr ⟨_, found'⟩, admits', _, inBank', register, member, shares⟩
    refine ⟨holder, ?_, shares⟩
    exact List.mem_toFinset.mpr (List.mem_filter.mpr ⟨isHolder, decide_eq_true contends⟩)
  -- and no rival blocks two, since its own register is one of the file
  have single : ∀ holder ∈ rivals.toFinset, ({register ∈ registers |
      catalog.registers.intersects holder.register register = true} : Set RegisterId).Subsingleton := by
    rintro holder member a ⟨inA, sharesA⟩ b ⟨inB, sharesB⟩
    have isHolder := (List.mem_filter.mp (List.mem_toFinset.mp member)).1
    obtain ⟨bank, found, -, inBank⟩ := mem_candidates.mp (housed holder isHolder)
    obtain ⟨_, -, fits⟩ := wellFormed.fits_of_bank? found
    exact spread holder.register (fits.known _ inBank) a inA b inB sharesA sharesB
  calc registers.card
    _ ≤ rivals.toFinset.card := Finset.card_le_card_of_forall_subsingleton _ blockers single
    _ ≤ rivals.length := List.toFinset_card_le _
    _ = held.countP _ := List.countP_eq_length_filter.symm

/-! ## The invariant -/

/-- **Holders and those who went to the stack**, as parts of what has been placed. -/
structure Housed (catalog : Catalog) (done gone : List Interval) (scan : PlainScan) : Prop where
  /-- Holders have registers that are offered to them. -/
  offered : ∀ holder ∈ scan.held,
    (holder.register, holder.bank) ∈ candidates catalog holder.interval
  /-- Nobody is counted twice. -/
  parted : (gone ++ scan.held.map (·.interval)).Subperm done

theorem housed_start (catalog : Catalog) (stackBase : Nat) :
    Housed catalog [] [] (start stackBase) :=
  ⟨by simp [start], List.Subperm.refl _⟩

namespace Housed

/-- Those who went to the stack need not all be remembered. -/
theorem forget (housed : Housed catalog done gone scan) : Housed catalog done [] scan :=
  ⟨housed.offered, (List.sublist_append_right _ _).subperm.trans housed.parted⟩

/-- Who expires is out. -/
theorem expire (housed : Housed catalog done gone scan) (position : Nat) :
    Housed catalog done gone (scan.expire position) where
  offered := by
    intro holder member
    exact housed.offered holder (mem_held_expire.mp member).1
  parted := by
    have fewer : ((scan.expire position).held.map (·.interval)).Sublist
        (scan.held.map (·.interval)) := List.filter_sublist.map _
    exact ((List.Sublist.refl gone).append fewer).subperm.trans housed.parted

/-- A new interval goes to the stack. -/
theorem spill (housed : Housed catalog done gone scan) (interval : Interval) :
    Housed catalog (done ++ [interval]) (interval :: gone) (scan.stacked interval) where
  offered := housed.offered
  parted := ((List.subperm_cons interval).mpr housed.parted).trans
    (List.perm_append_singleton interval done).symm.subperm

/-- A holder goes to the stack. -/
theorem evict (housed : Housed catalog done gone scan) {victim : Held}
    (isHolder : victim ∈ scan.held) :
    Housed catalog done (victim.interval :: gone)
      ((scan.release victim).stacked victim.interval) where
  offered := by
    intro holder member
    exact housed.offered holder (List.mem_of_mem_erase member)
  parted := by
    have front : (scan.held.map (·.interval)).Perm
        (victim.interval :: (scan.held.erase victim).map (·.interval)) :=
      (List.perm_cons_erase isHolder).map _
    have moved : (gone ++ scan.held.map (·.interval)).Perm
        (victim.interval :: (gone ++ (scan.held.erase victim).map (·.interval))) :=
      (front.append_left gone).trans List.perm_middle
    exact moved.symm.subperm.trans housed.parted

/-- A new interval goes to a register that is offered to it. -/
theorem hold (housed : Housed catalog done gone scan) (holder : Held)
    (candidate : (holder.register, holder.bank) ∈ candidates catalog holder.interval) :
    Housed catalog (done ++ [holder.interval]) gone (scan.hold holder) where
  offered := List.forall_mem_cons.mpr ⟨candidate, housed.offered⟩
  parted := by
    have moved : (gone ++ (scan.hold holder).held.map (·.interval)).Perm
        (holder.interval :: (gone ++ scan.held.map (·.interval))) := List.perm_middle
    exact moved.subperm.trans (((List.subperm_cons holder.interval).mpr housed.parted).trans
      (List.perm_append_singleton holder.interval done).symm.subperm)

/-- **One step** that may use registers sends nobody to the stack, or it finds every register
blocked and sends the incoming interval or a holder. -/
theorem step (allowed : options.allStack = false) (housed : Housed catalog done gone scan)
    (step : Step catalog options scan seq interval scan') :
    Housed catalog (done ++ [interval]) gone scan' ∧ scan'.spills = scan.spills ∨
      pick? catalog (scan.expire interval.start).held interval = none ∧
        ∃ one ∈ interval :: (scan.expire interval.start).held.map (·.interval),
          Housed catalog (done ++ [interval]) (one :: gone) scan' ∧
            scan'.spills = scan.spills + 1 := by
  have expired := housed.expire interval.start
  cases step with
  | allStack only room =>
    rw [allowed] at only
    cases only
  | @placed _ register bank picked =>
    obtain ⟨candidate, -⟩ := pick?_eq_some picked
    exact Or.inl ⟨expired.hold ⟨interval, seq, register, bank⟩ (mem_candidates.mpr candidate), rfl⟩
  | spilled _ blocked kept room =>
    exact Or.inr ⟨blocked, interval, List.mem_cons_self, expired.spill interval, rfl⟩
  | @evicted _ blocked victim yields room =>
    obtain ⟨-, latest, -, bank, found, admits⟩ := victim?_eq_some yields
    have isHolder := latest?_mem latest
    obtain ⟨bank', found', -, inBank⟩ := mem_candidates.mp (expired.offered victim isHolder)
    obtain rfl := Option.some.inj (found.symm.trans found')
    exact Or.inr ⟨blocked, victim.interval,
      List.mem_cons_of_mem _ (List.mem_map_of_mem isHolder),
      (expired.evict isHolder).hold ⟨interval, seq, victim.register, victim.bank⟩
        (mem_candidates.mpr ⟨bank, found, admits, inBank⟩), rfl⟩

end Housed

/-- **Every run** keeps its holders among what it has placed. -/
theorem housed_of_placeAll (allowed : options.allStack = false) {stackBase : Nat}
    (completed : (start stackBase).placeAll catalog options 0 done = .ok scan) :
    Housed catalog done [] scan := by
  refine placeAll_induction (motive := fun done scan => Housed catalog done [] scan) done ?_
    (housed_start catalog stackBase) completed
  intro done interval scan scan' _ housed step
  rcases housed.step allowed step with ⟨housed, -⟩ | ⟨-, one, -, housed, -⟩
  · exact housed
  · exact housed.forget

end PlainScan

end LinearScan
