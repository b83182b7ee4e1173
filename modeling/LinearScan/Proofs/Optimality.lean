import LinearScan.Proofs.Allocator
import LinearScan.Proofs.Pressure
import Mathlib.Data.List.Nodup

/-!
# Evicting the interval that ends last is optimal

On a target with one bank whose registers share no storage, and with eviction on, no choice
of spills does with fewer than the scan.

`PlainScan.Frugal` is the invariant: the spills so far are a set of list positions, the
holders are the intervals outside it that have not ended, and with these spills the registers
are enough.  A step that places an interval keeps the set.  A step that finds all registers
held adds one position to it, always that of the interval that ends last among the holders and
the incoming one, and by `Completable.exchange` that is never a loss against a rival.

Ends that are equal do not matter here: of two intervals that end together, either may go.
That the registers are all held whenever none is clear rests on the single bank and on its
registers being apart; with overlapping registers one holder can block two of them, and the
statement is wrong.
-/

namespace LinearScan

/-- A catalog that consists of one bank, in which no two registers share storage. -/
structure Catalog.Uniform (catalog : Catalog) (bank : Bank) : Prop where
  single : catalog.banks = [bank]
  apart : ∀ register ∈ bank.registers, ∀ other ∈ bank.registers, register ≠ other →
    catalog.registers.intersects register other = false

/-- Every place is that of the one bank. -/
theorem Catalog.Uniform.eq_of_bank? {catalog : Catalog} {bank other : Bank} {place : BankRef}
    (uniform : catalog.Uniform bank) (found : catalog.bank? place = some other) :
    other = bank := by
  have member := Catalog.mem_banks_iff.mpr ⟨place, found⟩
  rw [uniform.single] at member
  exact List.mem_singleton.mp member

namespace PlainScan

variable {catalog : Catalog} {options : Options} {scan scan' : PlainScan} {bank : Bank}
  {intervals done : List Interval} {interval : Interval} {position : Nat}
  {spilled : Finset Nat}

/-! ## The invariant -/

/-- **The spills so far are a set**, and who is not in it and has not ended is a holder. -/
structure Frugal (catalog : Catalog) (bank : Bank) (done : List Interval) (position : Nat)
    (spilled : Finset Nat) (scan : PlainScan) : Prop where
  counted : spilled.card = scan.spills
  known : ∀ index ∈ spilled, index < done.length
  holders : ∀ holder ∈ scan.held, holder.seq ∉ spilled ∧ done[holder.seq]? = some holder.interval ∧
    holder.register ∈ bank.registers ∧ catalog.bank? holder.bank = some bank
  registers : (scan.held.map (·.register)).Nodup
  seqs : (scan.held.map (·.seq)).Nodup
  live : ∀ (index : Nat) interval, done[index]? = some interval → index ∉ spilled →
    position ≤ interval.stop → ∃ holder ∈ scan.held, holder.seq = index
  fits : ∀ p, pressure done spilled p ≤ bank.registers.length

/-- Holders of different registers are no more than there are registers. -/
theorem length_le_of_nodup {held : List Held} (registers : (held.map (·.register)).Nodup)
    (inBank : ∀ holder ∈ held, holder.register ∈ bank.registers) :
    held.length ≤ bank.registers.length := by
  have subset : held.map (·.register) ⊆ bank.registers := by
    intro register member
    obtain ⟨holder, isHolder, rfl⟩ := List.mem_map.mp member
    exact inBank holder isHolder
  have fewer := (registers.subperm subset).length_le
  rw [List.length_map] at fewer
  exact fewer

/-- A holder that is left differs from the one that goes in whatever no two holders share. -/
theorem ne_of_mem_erase {α : Type} (key : Held → α) {held : List Held} {victim other : Held}
    (distinct : (held.map key).Nodup) (isHolder : victim ∈ held)
    (left : other ∈ held.erase victim) : key other ≠ key victim := by
  have front := ((List.perm_cons_erase isHolder).map key).nodup_iff.mp distinct
  rw [List.map_cons, List.nodup_cons] at front
  intro same
  exact front.1 (same ▸ List.mem_map_of_mem left)

namespace Frugal

/-- Holders are at list positions that have been met. -/
theorem seq_lt (frugal : Frugal catalog bank done position spilled scan) {holder : Held}
    (isHolder : holder ∈ scan.held) : holder.seq < done.length :=
  (List.getElem?_eq_some_iff.mp (frugal.holders holder isHolder).2.1).1

/-- The next list position is not that of a holder. -/
theorem length_notMem_seqs (frugal : Frugal catalog bank done position spilled scan) :
    done.length ∉ scan.held.map (·.seq) := by
  intro member
  obtain ⟨holder, isHolder, same⟩ := List.mem_map.mp member
  exact Nat.ne_of_lt (frugal.seq_lt isHolder) same

/-- If no register is clear, all of them are held. -/
theorem length_eq (frugal : Frugal catalog bank done position spilled scan)
    (wellFormed : catalog.WellFormed) (uniform : catalog.Uniform bank)
    (admits : bank.admits interval.type interval.size = true)
    (blocked : pick? catalog scan.held interval = none) :
    scan.held.length = bank.registers.length := by
  obtain ⟨place, found⟩ := Catalog.mem_banks_iff.mp
    (uniform.single ▸ List.mem_singleton_self bank)
  have allHeld : bank.registers ⊆ scan.held.map (·.register) := by
    intro register member
    obtain ⟨holder, isHolder, shares⟩ := pick?_eq_none blocked found admits member
    have same : holder.register = register := by
      by_contra differs
      rw [uniform.apart _ (frugal.holders holder isHolder).2.2.1 _ member differs] at shares
      cases shares
    exact List.mem_map.mpr ⟨holder, isHolder, same⟩
  obtain ⟨_, -, fits⟩ := wellFormed.fits_of_bank? found
  have more := (fits.nodup.subperm allHeld).length_le
  rw [List.length_map] at more
  exact Nat.le_antisymm
    (length_le_of_nodup frugal.registers fun holder isHolder =>
      (frugal.holders holder isHolder).2.2.1) more

/-! ## What each update keeps -/

/-- Expiry moves a scan on to a later position. -/
theorem expire (frugal : Frugal catalog bank done position spilled scan) {next : Nat}
    (later : position ≤ next) :
    Frugal catalog bank done next spilled (scan.expire next) where
  counted := frugal.counted
  known := frugal.known
  holders := by
    intro holder member
    exact frugal.holders holder (List.mem_filter.mp member).1
  registers := frugal.registers.sublist (List.filter_sublist.map _)
  seqs := frugal.seqs.sublist (List.filter_sublist.map _)
  live := by
    intro index interval found isNot alive
    obtain ⟨holder, isHolder, rfl⟩ :=
      frugal.live index interval found isNot (Nat.le_trans later alive)
    refine ⟨holder, List.mem_filter.mpr ⟨isHolder, ?_⟩, rfl⟩
    rw [(frugal.holders holder isHolder).2.1] at found
    obtain rfl := Option.some.inj found
    exact decide_eq_true alive
  fits := frugal.fits

/-- The next list position is not among the spills. -/
theorem length_notMem (frugal : Frugal catalog bank done position spilled scan) :
    done.length ∉ spilled :=
  fun member => Nat.lt_irrefl _ (frugal.known _ member)

/-- A new interval goes to the stack. -/
theorem spill (frugal : Frugal catalog bank done position spilled scan) (interval : Interval) :
    Frugal catalog bank (done ++ [interval]) position (insert done.length spilled)
      (scan.stacked interval) where
  counted := by
    rw [Finset.card_insert_of_notMem frugal.length_notMem, frugal.counted]
    rfl
  known := by
    intro index member
    rw [List.length_append, List.length_singleton]
    rcases Finset.mem_insert.mp member with rfl | old
    · exact Nat.lt_succ_self _
    · exact Nat.lt_succ_of_lt (frugal.known index old)
  holders := by
    intro holder isHolder
    obtain ⟨isNot, found, holds⟩ := frugal.holders holder isHolder
    have inside := frugal.seq_lt isHolder
    refine ⟨?_, ?_, holds⟩
    · rw [Finset.mem_insert, not_or]
      exact ⟨Nat.ne_of_lt inside, isNot⟩
    · rw [List.getElem?_append_left inside]
      exact found
  registers := frugal.registers
  seqs := frugal.seqs
  live := by
    intro index other found isNot alive
    rw [Finset.mem_insert, not_or] at isNot
    have inside : index < done.length := by
      have inside := (List.getElem?_eq_some_iff.mp found).1
      rw [List.length_append, List.length_singleton] at inside
      exact Nat.lt_of_le_of_ne (Nat.le_of_lt_succ inside) isNot.1
    rw [List.getElem?_append_left inside] at found
    exact frugal.live index other found isNot.2 alive
  fits := by
    intro p
    refine Nat.le_trans (Finset.card_le_card fun index member => ?_) (frugal.fits p)
    obtain ⟨isNot, live⟩ := mem_alive.mp member
    rw [Finset.mem_insert, not_or] at isNot
    rcases covers_concat.mp live with old | ⟨new, -⟩
    · exact mem_alive.mpr ⟨isNot.2, old⟩
    · exact absurd new isNot.1

/-- A holder goes to the stack. -/
theorem evict (frugal : Frugal catalog bank done position spilled scan) {victim : Held}
    (isHolder : victim ∈ scan.held) :
    Frugal catalog bank done position (insert victim.seq spilled)
      ((scan.release victim).stacked victim.interval) where
  counted := by
    rw [Finset.card_insert_of_notMem (frugal.holders victim isHolder).1, frugal.counted]
    rfl
  known := by
    intro index member
    rcases Finset.mem_insert.mp member with rfl | old
    · exact frugal.seq_lt isHolder
    · exact frugal.known index old
  holders := by
    intro holder member
    obtain ⟨isNot, holds⟩ := frugal.holders holder (List.mem_of_mem_erase member)
    refine ⟨?_, holds⟩
    rw [Finset.mem_insert, not_or]
    exact ⟨ne_of_mem_erase (·.seq) frugal.seqs isHolder member, isNot⟩
  registers := frugal.registers.sublist (List.erase_sublist.map _)
  seqs := frugal.seqs.sublist (List.erase_sublist.map _)
  live := by
    intro index other found isNot alive
    rw [Finset.mem_insert, not_or] at isNot
    obtain ⟨holder, isOther, rfl⟩ := frugal.live index other found isNot.2 alive
    refine ⟨holder, (List.mem_erase_of_ne ?_).mpr isOther, rfl⟩
    rintro rfl
    exact isNot.1 rfl
  fits := fun p => Nat.le_trans (pressure_anti (Finset.subset_insert _ _)) (frugal.fits p)

/-- A new interval goes to a register of the bank that no other holder has. -/
theorem hold (holder : Held)
    (frugal : Frugal catalog bank done holder.interval.start spilled scan)
    (next : holder.seq = done.length) (inBank : holder.register ∈ bank.registers)
    (found : catalog.bank? holder.bank = some bank)
    (fresh : ∀ other ∈ scan.held, other.register ≠ holder.register) :
    Frugal catalog bank (done ++ [holder.interval]) holder.interval.start spilled
      (scan.hold holder) := by
  have length : (done ++ [holder.interval]).length = done.length + 1 := by
    rw [List.length_append, List.length_singleton]
  have holders : ∀ other ∈ (scan.hold holder).held, other.seq ∉ spilled ∧
      (done ++ [holder.interval])[other.seq]? = some other.interval ∧
      other.register ∈ bank.registers ∧ catalog.bank? other.bank = some bank := by
    refine List.forall_mem_cons.mpr ⟨?_, ?_⟩
    · rw [next]
      exact ⟨frugal.length_notMem, List.getElem?_concat_length, inBank, found⟩
    · intro other isHolder
      obtain ⟨isNot, atOther, holds⟩ := frugal.holders other isHolder
      rw [List.getElem?_append_left (frugal.seq_lt isHolder)]
      exact ⟨isNot, atOther, holds⟩
  have registers : ((scan.hold holder).held.map (·.register)).Nodup := by
    refine List.nodup_cons.mpr ⟨?_, frugal.registers⟩
    intro member
    obtain ⟨other, isHolder, same⟩ := List.mem_map.mp member
    exact fresh other isHolder same
  have live : ∀ (index : Nat) interval, (done ++ [holder.interval])[index]? = some interval →
      index ∉ spilled → holder.interval.start ≤ interval.stop →
      ∃ other ∈ (scan.hold holder).held, other.seq = index := by
    intro index interval atIndex isNot alive
    rcases Nat.lt_or_eq_of_le (Nat.le_of_lt_succ (length ▸
      (List.getElem?_eq_some_iff.mp atIndex).1)) with inside | rfl
    · rw [List.getElem?_append_left inside] at atIndex
      obtain ⟨other, isHolder, same⟩ := frugal.live index interval atIndex isNot alive
      exact ⟨other, List.mem_cons_of_mem _ isHolder, same⟩
    · exact ⟨holder, List.mem_cons_self, next⟩
  refine ⟨frugal.counted, ?_, holders, registers, ?_, live, ?_⟩
  · intro index member
    rw [length]
    exact Nat.lt_succ_of_lt (frugal.known index member)
  · refine List.nodup_cons.mpr ⟨?_, frugal.seqs⟩
    show holder.seq ∉ _
    rw [next]
    exact frugal.length_notMem_seqs
  · intro p
    by_cases before : p < holder.interval.start
    · -- The new interval has not begun.
      refine Nat.le_trans (Finset.card_le_card fun index member => ?_) (frugal.fits p)
      obtain ⟨isNot, alive⟩ := mem_alive.mp member
      rcases covers_concat.mp alive with old | ⟨-, begun, -⟩
      · exact mem_alive.mpr ⟨isNot, old⟩
      · exact absurd begun (Nat.not_le_of_lt before)
    · -- Whoever is live here is a holder now.
      have held : alive (done ++ [holder.interval]) spilled p ⊆
          ((scan.hold holder).held.map (·.seq)).toFinset := by
        intro index member
        obtain ⟨isNot, alive⟩ := mem_alive.mp member
        obtain ⟨interval, atIndex, -, notEnded⟩ := covers_iff.mp alive
        obtain ⟨other, isHolder, same⟩ := live index interval atIndex isNot
          (Nat.le_trans (Nat.le_of_not_lt before) notEnded)
        exact List.mem_toFinset.mpr (List.mem_map.mpr ⟨other, isHolder, same⟩)
      calc pressure (done ++ [holder.interval]) spilled p
        _ ≤ ((scan.hold holder).held.map (·.seq)).toFinset.card := Finset.card_le_card held
        _ ≤ ((scan.hold holder).held.map (·.seq)).length := List.toFinset_card_le _
        _ = (scan.hold holder).held.length := List.length_map _
        _ ≤ bank.registers.length :=
          length_le_of_nodup registers fun other isHolder => (holders other isHolder).2.2.1

/-! ## The choice of the scan -/

/-- With sorted starts, what is live before the next interval starts is in the list already. -/
theorem covers_of_lt (sorted : intervals.Pairwise (·.start ≤ ·.start))
    (beginning : done ++ [interval] <+: intervals) {index p : Nat} (before : p < interval.start)
    (live : covers intervals index p = true) : covers done index p = true := by
  obtain ⟨other, found, begun, notEnded⟩ := covers_iff.mp live
  obtain ⟨rest, rfl⟩ := beginning
  rw [List.append_assoc] at found sorted
  by_cases inside : index < done.length
  · rw [List.getElem?_append_left inside] at found
    exact covers_iff.mpr ⟨other, found, begun, notEnded⟩
  · -- The interval is the next one or comes behind it, so it starts too late.
    rw [List.getElem?_append_right (Nat.le_of_not_lt inside)] at found
    have least : interval.start ≤ other.start := by
      obtain ⟨-, behind, -⟩ := List.pairwise_append.mp sorted
      rcases List.mem_cons.mp (List.mem_of_getElem? found) with rfl | later
      · exact Nat.le_refl _
      · exact List.rel_of_pairwise_cons behind later
    omega

/-- **The interval that ends last may go**, if all registers are held. -/
theorem completable_insert {size : Nat}
    (frugal : Frugal catalog bank done interval.start spilled scan)
    (completable : Completable intervals bank.registers.length size spilled)
    (sorted : intervals.Pairwise (·.start ≤ ·.start))
    (beginning : done ++ [interval] <+: intervals) (ordered : interval.start ≤ interval.stop)
    (current : ∀ holder ∈ scan.held, interval.start ≤ holder.interval.stop)
    (full : scan.held.length = bank.registers.length) {last : Nat} {longest : Interval}
    (atLast : intervals[last]? = some longest) (begun : longest.start ≤ interval.start)
    (outlives : interval.stop ≤ longest.stop)
    (outlivesHolders : ∀ holder ∈ scan.held, holder.interval.stop ≤ longest.stop) :
    Completable intervals bank.registers.length size (insert last spilled) := by
  -- The holders and the incoming interval all run through its start, one more than registers.
  let crowd := insert done.length (scan.held.map (·.seq)).toFinset
  have members : ∀ index ∈ crowd, index ∉ spilled ∧ ∃ one, intervals[index]? = some one ∧
      one.start ≤ interval.start ∧ interval.start ≤ one.stop ∧ one.stop ≤ longest.stop := by
    intro index member
    rcases Finset.mem_insert.mp member with rfl | isSeq
    · refine ⟨frugal.length_notMem, interval, ?_, Nat.le_refl _, ordered, outlives⟩
      exact getElem?_of_beginning beginning List.getElem?_concat_length
    · obtain ⟨holder, isHolder, rfl⟩ := List.mem_map.mp (List.mem_toFinset.mp isSeq)
      obtain ⟨isNot, found, -⟩ := frugal.holders holder isHolder
      refine ⟨isNot, holder.interval, ?_, ?_, current holder isHolder,
        outlivesHolders holder isHolder⟩
      · exact getElem?_of_beginning ((List.prefix_append _ _).trans beginning) found
      · obtain ⟨-, -, starts⟩ := List.pairwise_append.mp (sorted.sublist beginning.sublist)
        exact starts _ (List.mem_of_getElem? found) interval List.mem_cons_self
  have crowded : bank.registers.length < crowd.card := by
    have new : done.length ∉ (scan.held.map (·.seq)).toFinset :=
      fun member => frugal.length_notMem_seqs (List.mem_toFinset.mp member)
    rw [Finset.card_insert_of_notMem new, List.toFinset_card_of_nodup frugal.seqs, List.length_map,
      full]
    exact Nat.lt_succ_self _
  refine completable.exchange (fun index member => (members index member).1) crowded ?_ ?_
    (fun p before index live => covers_of_lt sorted beginning before live) frugal.fits
  · intro index member
    obtain ⟨-, one, found, started, notEnded, -⟩ := members index member
    exact covers_iff.mpr ⟨one, found, started, notEnded⟩
  · intro index member p behind live
    obtain ⟨-, one, found, -, -, earlier⟩ := members index member
    obtain ⟨same, found', -, notEnded⟩ := covers_iff.mp live
    rw [found] at found'
    obtain rfl := Option.some.inj found'
    exact covers_iff.mpr ⟨longest, atLast, Nat.le_trans begun behind,
      Nat.le_trans notEnded earlier⟩

/-- **One step** keeps the invariant, and its spill, if there is one, is never a loss. -/
theorem step (wellFormed : catalog.WellFormed) (uniform : catalog.Uniform bank)
    (evicts : options.eviction = true) (allowed : options.allStack = false)
    (frugal : Frugal catalog bank done position spilled scan) (later : position ≤ interval.start)
    (sorted : intervals.Pairwise (·.start ≤ ·.start))
    (beginning : done ++ [interval] <+: intervals) (ordered : interval.start ≤ interval.stop)
    (admits : bank.admits interval.type interval.size = true)
    (step : Step catalog options scan done.length interval scan') :
    ∃ spilled', Frugal catalog bank (done ++ [interval]) interval.start spilled' scan' ∧
      ∀ size, Completable intervals bank.registers.length size spilled →
        Completable intervals bank.registers.length size spilled' := by
  have expired := frugal.expire later
  have current : ∀ holder ∈ (scan.expire interval.start).held,
      interval.start ≤ holder.interval.stop := by
    intro holder isHolder
    exact of_decide_eq_true (List.mem_filter.mp isHolder).2
  cases step with
  | allStack only room =>
    rw [allowed] at only
    cases only
  | @placed _ register place picked =>
    obtain ⟨⟨other, found, -, inBank⟩, clear⟩ := pick?_eq_some picked
    obtain rfl := uniform.eq_of_bank? found
    refine ⟨spilled, expired.hold ⟨interval, done.length, register, place⟩ rfl inBank found ?_,
      fun _ completable => completable⟩
    intro holder isHolder
    exact RegisterFile.ne_of_not_intersects (clear holder isHolder)
  | spilled _ blocked kept room =>
    -- No holder outlives the incoming interval, so that is the one that ends last.
    have outlived := stop_le_of_victim?_eq_none evicts kept fun holder isHolder =>
      ⟨bank, (expired.holders holder isHolder).2.2.2, admits⟩
    refine ⟨insert done.length spilled, expired.spill interval, ?_⟩
    intro size completable
    exact expired.completable_insert completable sorted beginning ordered current
      (expired.length_eq wellFormed uniform admits blocked)
      (getElem?_of_beginning beginning List.getElem?_concat_length) (Nat.le_refl _)
      (Nat.le_refl _) outlived
  | @evicted _ blocked victim yields room =>
    -- The victim ends last among the holders, and behind the incoming interval.
    obtain ⟨-, latest, outlives, -⟩ := victim?_eq_some yields
    have isHolder := latest?_mem latest
    obtain ⟨-, atVictim, inBank, found⟩ := expired.holders victim isHolder
    refine ⟨insert victim.seq spilled, ?_, ?_⟩
    · refine hold ⟨interval, done.length, victim.register, victim.bank⟩ (expired.evict isHolder) rfl
        inBank found ?_
      intro other member
      have differs : other.register ≠ victim.register :=
        ne_of_mem_erase (·.register) expired.registers isHolder member
      exact differs
    · have begun : victim.interval.start ≤ interval.start := by
        obtain ⟨-, -, starts⟩ := List.pairwise_append.mp (sorted.sublist beginning.sublist)
        exact starts _ (List.mem_of_getElem? atVictim) interval List.mem_cons_self
      intro size completable
      exact expired.completable_insert completable sorted beginning ordered current
        (expired.length_eq wellFormed uniform admits blocked)
        (getElem?_of_beginning ((List.prefix_append _ _).trans beginning) atVictim) begun
        (Nat.le_of_lt outlives) fun holder isHolder => latest?_stop_le latest isHolder

end Frugal

theorem frugal_start (stackBase : Nat) : Frugal catalog bank [] 0 ∅ (start stackBase) := by
  refine ⟨rfl, ?_, ?_, List.nodup_nil, List.nodup_nil, ?_, ?_⟩
  · intro index member
    cases member
  · intro holder member
    cases member
  · intro index interval found
    cases found
  · intro p
    exact Nat.zero_le _

/-- **A whole run** keeps the invariant, and none of its spills is a loss. -/
theorem frugal_of_placeAll (wellFormed : catalog.WellFormed) (uniform : catalog.Uniform bank)
    (evicts : options.eviction = true) (allowed : options.allStack = false)
    (sorted : intervals.Pairwise (·.start ≤ ·.start))
    (ordered : ∀ interval ∈ intervals, interval.start ≤ interval.stop)
    (admits : ∀ interval ∈ intervals, bank.admits interval.type interval.size = true)
    {stackBase : Nat}
    (completed : (start stackBase).placeAll catalog options 0 intervals = .ok scan) :
    ∃ position spilled, Frugal catalog bank intervals position spilled scan ∧
      ∀ size, Completable intervals bank.registers.length size ∅ →
        Completable intervals bank.registers.length size spilled := by
  refine placeAll_sorted_induction (motive := fun done position scan =>
    ∃ spilled, Frugal catalog bank done position spilled scan ∧
      ∀ size, Completable intervals bank.registers.length size ∅ →
        Completable intervals bank.registers.length size spilled) sorted ?_ ?_ completed
  · rintro done interval position scan scan' beginning later ⟨spilled, frugal, noLoss⟩ step
    have member : interval ∈ intervals :=
      beginning.subset (List.mem_append_right _ List.mem_cons_self)
    obtain ⟨spilled', frugal', noLoss'⟩ := frugal.step wellFormed uniform evicts allowed later
      sorted beginning (ordered interval member) (admits interval member) step
    exact ⟨interval.start, Nat.le_refl _, spilled', frugal',
      fun size free => noLoss' size (noLoss size free)⟩
  · exact ⟨∅, frugal_start stackBase, fun _ free => free⟩

end PlainScan

/-! ## Completed runs -/

namespace Allocator

variable {catalog : Catalog} {options : Options} {allocator : Allocator} {bank : Bank}
  {intervals : List Interval} {stackBase : Nat} {run : CompletedRun}

/-- **Optimality.**  On a target with one bank whose registers share no storage, a run with
eviction spills as few intervals as can be: as many as some set of list positions has whose
absence leaves a register for each of the others at every position, and no more than any such
set has. -/
theorem spills_minimal (built : catalog.Built) (reachable : Reachable catalog options allocator)
    (uniform : catalog.Uniform bank) (evicts : options.eviction = true)
    (allowed : options.allStack = false)
    (ordered : ∀ interval ∈ intervals, interval.start ≤ interval.stop)
    (admits : ∀ interval ∈ intervals, bank.admits interval.type interval.size = true)
    (done : allocator.runIntervals intervals stackBase = .ok run) :
    (∃ spilled : Finset Nat, spilled ⊆ Finset.range intervals.length ∧
      (∀ position, pressure intervals spilled position ≤ bank.registers.length) ∧
      run.allocation.spills = spilled.card) ∧
    ∀ spilled : Finset Nat,
      (∀ position, pressure intervals spilled position ≤ bank.registers.length) →
      run.allocation.spills ≤ spilled.card := by
  obtain ⟨scan, placed, same⟩ := reachable.exists_scan built done
  have sorted := sortedByStart_iff.mp (sorted_of_runIntervals done)
  obtain ⟨position, chosen, frugal, noLoss⟩ := PlainScan.frugal_of_placeAll built.wellFormed uniform
    evicts allowed sorted ordered admits placed
  have counted : run.allocation.spills = chosen.card := by
    rw [same, frugal.counted]
    rfl
  refine ⟨⟨chosen, ?_, frugal.fits, counted⟩, ?_⟩
  · intro index member
    exact Finset.mem_range.mpr (frugal.known index member)
  · intro spilled enough
    obtain ⟨completed, contains, small, -⟩ := noLoss spilled.card
      ⟨spilled, Finset.empty_subset _, Nat.le_refl _, enough⟩
    calc run.allocation.spills
      _ = chosen.card := counted
      _ ≤ completed.card := Finset.card_le_card contains
      _ ≤ spilled.card := small

end Allocator

/-- The two wide registers serve their own size, and nothing else is served. -/
def Entry.pair : List Entry :=
  [⟨⟨0⟩, [8], .integer⟩, ⟨⟨2⟩, [8], .integer⟩]

theorem Catalog.built_pair : (Catalog.small Entry.pair).Built :=
  built_small rfl rfl

namespace Allocator

/-- Two long intervals with two short ones behind each other. -/
def longAndShort : List Interval :=
  [⟨⟨0⟩, 0, 9, 8, .i64⟩, ⟨⟨1⟩, 1, 8, 8, .i64⟩, ⟨⟨2⟩, 2, 3, 8, .i64⟩, ⟨⟨3⟩, 4, 5, 8, .i64⟩]

/-- One spill is enough for two registers, where spilling whatever comes in would take two. -/
theorem spills_minimal_longAndShort :
    (Catalog.small Entry.pair).Built ∧
    (Catalog.small Entry.pair).Uniform ⟨8, .integer, [⟨0⟩, ⟨2⟩]⟩ ∧
    ∃ run, (ofCatalog (.small Entry.pair) {}).runIntervals longAndShort 0 = .ok run ∧
      run.allocation.spills = 1 ∧
      ((∃ spilled : Finset Nat, spilled ⊆ Finset.range longAndShort.length ∧
        (∀ position, pressure longAndShort spilled position ≤ 2) ∧
        run.allocation.spills = spilled.card) ∧
      ∀ spilled : Finset Nat, (∀ position, pressure longAndShort spilled position ≤ 2) →
        run.allocation.spills ≤ spilled.card) := by
  have uniform : (Catalog.small Entry.pair).Uniform ⟨8, .integer, [⟨0⟩, ⟨2⟩]⟩ :=
    ⟨rfl, by decide⟩
  obtain ⟨run, done, spills⟩ :
      ∃ run, (ofCatalog (.small Entry.pair) {}).runIntervals longAndShort 0 = .ok run ∧
        run.allocation.spills = 1 := ⟨_, rfl, rfl⟩
  exact ⟨Catalog.built_pair, uniform, run, done, spills,
    spills_minimal Catalog.built_pair .fresh uniform rfl rfl (by decide) (by decide) done⟩

end Allocator

end LinearScan
