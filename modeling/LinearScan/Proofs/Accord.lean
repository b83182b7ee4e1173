import LinearScan.Proofs.Placement

/-!
# The records of a scan agree

A scan says in four places who has which register: in the assignment, in the active set, in the
bank that each holder names, and in the flags of that bank.  No step keeps all four.  Expiry leaves
the assignment alone, an eviction leaves the flags alone, and a register that sits in several banks
looks free in all of them but one.

`ScanState.InAccord` is what holds between them at the moment that counts, when the next interval is
about to be placed.  It puts together what was shown for different ends: the flags agree with the
holders (`Supplies`), holders have what they are assigned (`PlainScan.Sound`), and they have it from
their candidates (`PlainScan.Suited`).  What is new is the position.  An invariant of a run knows
some position that no later interval starts before; here it has to be the start of the interval
that comes next (`PlainScan.sound_at_next`).
-/

namespace LinearScan

/-- **The records of a scan agree**, where some intervals are placed and another one comes next. -/
structure ScanState.InAccord (catalog : Catalog) (done : List Interval) (next : Interval)
    (state : ScanState) : Prop where
  /-- Those who hold a register are those who overlap the next interval and are assigned one, and
  it is that register. -/
  active : ∀ a register,
    (∃ holder ∈ state.active.entries, holder.interval = a ∧ holder.register = register) ↔
      a ∈ done ∧ a.overlaps next = true ∧
        state.assignment.get? a.temp = some (.register register)
  /-- No interval holds two registers. -/
  once : (state.active.entries.map (·.interval)).Nodup
  /-- Held registers share no storage. -/
  apart : ∀ holder ∈ state.active.entries, ∀ other ∈ state.active.entries, holder ≠ other →
    catalog.registers.intersects holder.register other.register = false
  /-- A register is held from a bank that has it, and that is right for its holder. -/
  fromBank : ∀ holder ∈ state.active.entries, ∃ bank, catalog.bank? holder.bank = some bank ∧
    holder.register ∈ bank.registers ∧ bank.accepts holder.interval.type = true ∧
    holder.interval.size ≤ bank.size
  /-- There is one supplier for each bank of the catalog, and it has a flag for each register. -/
  layout : ∀ place, (state.supplier? place).map Supplier.bank = catalog.bank? place
  complete : ∀ place supplier, state.supplier? place = some supplier →
    supplier.free.length = supplier.bank.registers.length
  /-- A flag is cleared exactly if the register is held from that very bank. -/
  slots : ∀ place supplier, state.supplier? place = some supplier →
    ∀ (slot : Nat) register, supplier.bank.registers[slot]? = some register →
      (supplier.free[slot]? = some false ↔
        ∃ holder ∈ state.active.entries, holder.register = register ∧ holder.bank = place)

namespace PlainScan

variable {catalog : Catalog} {options : Options} {scan : PlainScan} {stackBase : Nat}
  {intervals done : List Interval} {next : Interval}

/-- **The invariant at the next interval.**  Once what ended before it has expired, the scan is at
its start. -/
theorem sound_at_next (wellFormed : catalog.WellFormed) (beginning : done ++ [next] <+: intervals)
    (sorted : intervals.Pairwise (·.start ≤ ·.start))
    (distinct : (intervals.map Interval.temp).Nodup)
    (placed : (start stackBase).placeAll catalog options 0 done = .ok scan) :
    Sound catalog.registers done next.start (scan.expire next.start) := by
  obtain ⟨sortedDone, -, earlier⟩ := List.pairwise_append.mp (sorted.sublist beginning.sublist)
  have startsBefore : ∀ a ∈ done, a.start ≤ next.start :=
    fun a member => earlier a member next List.mem_cons_self
  -- no step moves the position beyond the start of its own interval
  have run : ∃ position, Sound catalog.registers done position scan ∧ position ≤ next.start := by
    refine placeAll_sorted_induction (motive := fun done position scan =>
        Sound catalog.registers done position scan ∧ position ≤ next.start) sortedDone ?_
      ⟨sound_start catalog.registers stackBase, Nat.zero_le _⟩ placed
    rintro before interval position scan scan' isBeginning later ⟨sound, -⟩ step
    have inDone : interval ∈ done :=
      isBeginning.subset (List.mem_append_right _ List.mem_cons_self)
    obtain ⟨fresh, apart⟩ := fresh_of_beginning distinct
      (isBeginning.trans ((List.prefix_append done [next]).trans beginning))
    obtain ⟨position', early, sound'⟩ := sound.step wellFormed later fresh apart step
    exact ⟨position', early, sound', Nat.le_trans early (startsBefore interval inDone)⟩
  obtain ⟨position, sound, reached⟩ := run
  exact sound.expire reached

end PlainScan

/-- **One invariant for each record, and they agree.**  The flags follow the holders, and the
holders are those of the assignment that have not ended. -/
theorem ScanState.Refines.inAccord {catalog : Catalog} {seq : Nat} {state : ScanState}
    {scan : PlainScan} {done : List Interval} {next : Interval} (wellFormed : catalog.WellFormed)
    (inStep : Refines catalog seq state scan)
    (sound : PlainScan.Sound catalog.registers done next.start scan)
    (suited : PlainScan.Suited catalog done scan)
    (notEnded : ∀ holder ∈ scan.held, next.start ≤ holder.interval.stop)
    (startsBefore : ∀ a ∈ done, a.start ≤ next.stop) : state.InAccord catalog done next := by
  have members : ∀ {holder}, holder ∈ state.active.entries ↔ holder ∈ scan.held :=
    inStep.held.mem_iff.symm
  refine ⟨?_, ?_, ?_, ?_, inStep.supplies.map_bank, ?_, ?_⟩
  · intro a register
    rw [inStep.books.assignment, Interval.overlaps, Bool.and_eq_true, decide_eq_true_eq,
      decide_eq_true_eq]
    constructor
    · rintro ⟨holder, isHolder, rfl, rfl⟩
      obtain ⟨isDone, assigned⟩ := sound.bound holder (members.mp isHolder)
      exact ⟨isDone, ⟨startsBefore _ isDone, notEnded holder (members.mp isHolder)⟩, assigned⟩
    · rintro ⟨isDone, ⟨-, alive⟩, assigned⟩
      obtain ⟨holder, isHolder, holds⟩ := sound.live a isDone register assigned alive
      exact ⟨holder, members.mpr isHolder, holds⟩
  · -- one interval has one assignment, and no register has two holders
    have registers := inStep.supplies.distinct
    refine (List.Nodup.of_map _ registers).map_on ?_
    intro holder isHolder other isOther same
    have assigned := (sound.bound holder (members.mp isHolder)).2
    rw [same, (sound.bound other (members.mp isOther)).2] at assigned
    have sameRegister : other.register = holder.register :=
      Location.register.inj (Option.some.inj assigned)
    exact List.inj_on_of_nodup_map registers isHolder isOther sameRegister.symm
  · intro holder isHolder other isOther differ
    exact sound.apart_erase wellFormed.intersects_comm (members.mp isOther) holder
      ((List.mem_erase_of_ne differ).mpr (members.mp isHolder))
  · intro holder isHolder
    obtain ⟨bank, found, admits, listed⟩ :=
      PlainScan.mem_candidates.mp (suited.holders holder (members.mp isHolder))
    rw [Bank.admits, Bool.and_eq_true, decide_eq_true_eq] at admits
    exact ⟨bank, found, listed, admits.2, admits.1⟩
  · exact fun _ supplier _ => supplier.length_free
  · intro place supplier found slot register atSlot
    rw [Supplier.getElem?_free (inStep.supplies.nodup place supplier found) atSlot,
      Option.some_inj, inStep.supplies.taken place supplier found register
        (List.mem_of_getElem? atSlot)]
    simp only [and_comm]

namespace Allocator

variable {catalog : Catalog} {options : Options} {allocator : Allocator} {stackBase : Nat}
  {intervals done : List Interval} {next : Interval} {before : ScanState}

/-- **The records agree wherever a run places an interval.**  With the intervals before it placed,
what has ended can be expired, and then all four say the same. -/
theorem inAccord_of_placeAll (built : catalog.Built)
    (reachable : Reachable catalog options allocator)
    (sorted : intervals.Pairwise (·.start ≤ ·.start))
    (distinct : (intervals.map Interval.temp).Nodup)
    (ordered : ∀ a ∈ intervals, a.start ≤ a.stop) (beginning : done ++ [next] <+: intervals)
    (placed : (allocator.state.reset stackBase).placeAll catalog options 0 done = .ok before) :
    ∃ state, before.expire next.start = .ok state ∧ state.InAccord catalog done next := by
  have corresponds := reachable.corresponds_placeAll built done stackBase
  rw [placed] at corresponds
  obtain ⟨scan, plainly, inStep⟩ := corresponds.exists_of_ok
  obtain ⟨state, expired, inStep⟩ := inStep.expire next.start
  have isNext : next ∈ intervals :=
    beginning.subset (List.mem_append_right _ List.mem_cons_self)
  have earlier := (List.pairwise_append.mp (sorted.sublist beginning.sublist)).2.2
  have doneFirst : done <+: intervals := (List.prefix_append done [next]).trans beginning
  have suited := PlainScan.suited_of_placeAll
    (distinct.sublist (doneFirst.sublist.map Interval.temp)) plainly
  refine ⟨state, expired, inStep.inAccord built.wellFormed
    (PlainScan.sound_at_next built.wellFormed beginning sorted distinct plainly)
    (suited.expire next.start) ?_ ?_⟩
  · intro holder isHolder
    exact (PlainScan.mem_held_expire.mp isHolder).2
  · intro a isDone
    exact Nat.le_trans (earlier a isDone next List.mem_cons_self) (ordered next isNext)

/-- A run that comes to its last interval with one value evicted, one expired and one in place. -/
def handedOver : List Interval :=
  [⟨⟨0⟩, 0, 9, 4, .i32⟩, ⟨⟨1⟩, 1, 2, 8, .i64⟩, ⟨⟨2⟩, 2, 8, 4, .i32⟩, ⟨⟨3⟩, 4, 5, 8, .i64⟩]

/-- The value that lives longest was evicted and is on the stack.  The one in the wide register has
ended, so it holds nothing and its flag is set again, though the register stays assigned to it. -/
theorem inAccord_of_placeAll_handedOver :
    (Catalog.small Entry.nested).Built ∧ handedOver.Pairwise (·.start ≤ ·.start) ∧
      (handedOver.map Interval.temp).Nodup ∧
      ∃ before state, ((ofCatalog (.small Entry.nested) {}).state.reset 16).placeAll
          (.small Entry.nested) {} 0 (handedOver.take 3) = .ok before ∧
        before.expire 4 = .ok state ∧
        state.InAccord (.small Entry.nested) (handedOver.take 3) ⟨⟨3⟩, 4, 5, 8, .i64⟩ ∧
        [⟨0⟩, ⟨1⟩, ⟨2⟩].map state.assignment.get? =
          [some (.stack 16), some (.register ⟨2⟩), some (.register ⟨1⟩)] ∧
        state.active.entries = [⟨⟨⟨2⟩, 2, 8, 4, .i32⟩, 2, ⟨1⟩, ⟨0, 0⟩⟩] ∧
        state.suppliers.map (·.map Supplier.free) = [[[false, true]], [[true, true]]] := by
  have sorted : handedOver.Pairwise (·.start ≤ ·.start) := by decide
  have distinct : (handedOver.map Interval.temp).Nodup := by decide
  obtain ⟨before, placed, after⟩ :
      ∃ before, ((ofCatalog (.small Entry.nested) {}).state.reset 16).placeAll
          (.small Entry.nested) {} 0 (handedOver.take 3) = .ok before ∧
        ∃ state, before.expire 4 = .ok state ∧
          [⟨0⟩, ⟨1⟩, ⟨2⟩].map state.assignment.get? =
            [some (.stack 16), some (.register ⟨2⟩), some (.register ⟨1⟩)] ∧
          state.active.entries = [⟨⟨⟨2⟩, 2, 8, 4, .i32⟩, 2, ⟨1⟩, ⟨0, 0⟩⟩] ∧
          state.suppliers.map (·.map Supplier.free) = [[[false, true]], [[true, true]]] :=
    ⟨_, rfl, _, rfl, rfl, rfl, rfl⟩
  obtain ⟨state, expired, assigned, active, flags⟩ := after
  obtain ⟨state', expired', inAccord⟩ := inAccord_of_placeAll Catalog.built_nested .fresh sorted
    distinct (by decide) List.prefix_rfl placed
  cases expired.symm.trans expired'
  exact ⟨Catalog.built_nested, sorted, distinct, before, state, placed, expired, inAccord,
    assigned, active, flags⟩

end Allocator

end LinearScan
