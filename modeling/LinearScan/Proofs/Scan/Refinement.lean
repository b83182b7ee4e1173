import LinearScan.Proofs.Scan.Search

/-!
# The scan refines the plain scan

Interval by interval, the scan and the plain scan do the same: both fail with one fault, or
both go on in step.  `Refines` says what it is to be in step, and `Refines.place` is the
step of the simulation.  In step, the free flags agree with the active set (`Supplies`), the
active set is in order and its keys are older than the next interval, and the plain scan
lists the same holders in some order and keeps the same books.

No fault but the overflow of the frame can show up in a plain scan, so none can in a scan:
handing back always finds its bank and a cleared flag, what is held is in the file, and every
register has a name.
-/

namespace LinearScan

open Outcome

namespace ScanState

variable {catalog : Catalog} {options : Options} {state : ScanState} {scan : PlainScan}
  {seq : Nat} {interval : Interval}

/-! ## Updates -/

/-- Gives an interval the next slot of the spill area, whether or not there is room. -/
def stacked (state : ScanState) (interval : Interval) : ScanState :=
  { state.log (.spilled interval state.cursor) with
    cursor := state.cursor + interval.size
    assignment := state.assignment.insert interval.temp (.stack state.cursor)
    spills := state.spills + 1 }

/-- Binds an interval to the register of the given name. -/
def bound (state : ScanState) (holder : Held) (name : String) : ScanState :=
  { state.log (.placed holder.interval name) with
    assignment := state.assignment.insert holder.interval.temp (.register holder.register)
    active := state.active.insert holder }

theorem assignStack_eq :
    state.assignStack interval =
      if maxFrame < state.cursor + interval.size then
        state.halt (.frameOverflow state.cursor interval.size)
      else .ok (state.stacked interval) := rfl

/-- A register with a name can be bound. -/
theorem activate_eq {file : RegisterFile} {register : RegisterId} {bank : BankRef} {name : String}
    (named : file.name register = .ok name) :
    state.activate file seq interval register bank =
      .ok (state.bound { interval, seq, register, bank } name) := by
  rw [activate, named]
  rfl

/-! ## In step -/

/-- The two scans have said the same about every temp, and have counted the same. -/
structure SameBooks (state : ScanState) (scan : PlainScan) : Prop where
  stackBase : state.stackBase = scan.stackBase
  cursor : state.cursor = scan.cursor
  assignment : state.assignment = scan.assignment
  spills : state.spills = scan.spills
  evictions : state.evictions = scan.evictions

/-- A scan and a plain scan are in step, and the next interval has the given place. -/
structure Refines (catalog : Catalog) (seq : Nat) (state : ScanState) (scan : PlainScan) :
    Prop where
  supplies : Supplies catalog state.suppliers state.active.entries
  ordered : ActiveSet.Ordered state.active.entries
  earlier : ∀ holder ∈ state.active.entries, holder.seq < seq
  held : scan.held.Perm state.active.entries
  books : SameBooks state scan

/-- The books do not depend on who holds what. -/
theorem SameBooks.other (books : SameBooks state scan) (suppliers : List (List Supplier))
    (active : ActiveSet) (held : List Held) :
    SameBooks { state with suppliers, active } { scan with held } :=
  ⟨books.stackBase, books.cursor, books.assignment, books.spills, books.evictions⟩

/-- The result of a scan whose registers are all in the file. -/
def result (state : ScanState) (file : RegisterFile) : Allocation :=
  state.allocation (state.assignment.registers.filter fun id =>
    (file.get? id).any (·.calleeSaved))

/-- Equal books lead to equal results. -/
theorem SameBooks.result_eq (books : SameBooks state scan) (file : RegisterFile) :
    state.result file = scan.allocation file := by
  simp only [result, ScanState.allocation, PlainScan.allocation, books.stackBase,
    books.cursor, books.assignment, books.spills, books.evictions]

/-- A slot of the spill area is entered in both books. -/
theorem SameBooks.stacked (books : SameBooks state scan) (interval : Interval) :
    SameBooks (state.stacked interval) (scan.stacked interval) := by
  refine ⟨books.stackBase, ?_, ?_, ?_, books.evictions⟩
  · show state.cursor + interval.size = scan.cursor + interval.size
    rw [books.cursor]
  · show state.assignment.insert _ _ = scan.assignment.insert _ _
    rw [books.assignment, books.cursor]
  · show state.spills + 1 = scan.spills + 1
    rw [books.spills]

/-- A register is entered in both books. -/
theorem SameBooks.bound (books : SameBooks state scan) (holder : Held) (name : String) :
    SameBooks (state.bound holder name) (scan.hold holder) := by
  refine ⟨books.stackBase, books.cursor, ?_, books.spills, books.evictions⟩
  show state.assignment.insert _ _ = scan.assignment.insert _ _
  rw [books.assignment]

/-- Both scans run out of frame together, or not at all. -/
theorem assignStack_toStack (cursor : state.cursor = scan.cursor) (interval : Interval) :
    Corresponds (fun state' scan' => state' = state.stacked interval ∧
      scan' = scan.stacked interval) (fun halt fault => halt.fault = fault)
      (state.assignStack interval) (scan.toStack interval) := by
  rw [assignStack_eq, PlainScan.toStack, cursor]
  split
  · rfl
  · exact ⟨rfl, rfl⟩

/-! ## Expiry -/

/-- Holders that hand back their registers leave the flags to those that stay. -/
theorem foldlM_giveBack (expired rest : List Held) :
    ∀ state : ScanState, Supplies catalog state.suppliers (expired ++ rest) →
      ∃ suppliers, expired.foldlM giveBack state = .ok { state with suppliers } ∧
        Supplies catalog suppliers rest := by
  induction expired with
  | nil =>
    intro state supplies
    exact ⟨state.suppliers, rfl, supplies⟩
  | cons holder others ih =>
    intro state supplies
    rw [List.cons_append] at supplies
    obtain ⟨supplier, found, handedBack, others⟩ := supplies.handBack
    have first : state.giveBack holder =
        .ok (state.setSupplier holder.bank (supplier.mark holder.register true)) := by
      rw [giveBack, supplier?_eq, found]
      simp only [handedBack]
    rw [setSupplier_eq] at first
    obtain ⟨suppliers, done, supplies'⟩ := ih { state with suppliers := _ } others
    refine ⟨suppliers, ?_, supplies'⟩
    rw [List.foldlM_cons, first]
    exact done

/-- Expiry keeps the scans in step, and no register is handed back twice. -/
theorem Refines.expire (refines : Refines catalog seq state scan) (position : Nat) :
    ∃ state', state.expire position = .ok state' ∧
      Refines catalog seq state' (scan.expire position) := by
  have split := state.active.expireBefore_append position
  have stays := state.active.expireBefore_entries refines.ordered position
  have supplies := refines.supplies
  rw [← split] at supplies
  obtain ⟨suppliers, done, supplies'⟩ :=
    foldlM_giveBack _ _ { state with active := (state.active.expireBefore position).2 } supplies
  refine ⟨_, done, supplies', ?_, ?_, ?_, refines.books.other _ _ _⟩
  · show ActiveSet.Ordered (state.active.expireBefore position).2.entries
    rw [stays]
    exact refines.ordered.filter _
  · intro holder member
    change holder ∈ (state.active.expireBefore position).2.entries at member
    rw [stays] at member
    exact refines.earlier holder (List.mem_filter.mp member).1
  · show (scan.held.filter _).Perm (state.active.expireBefore position).2.entries
    rw [stays]
    exact refines.held.filter _

/-! ## Placing one interval -/

/-- Who picks does not know the order of the holders. -/
theorem pick?_perm {held held' : List Held} (same : held.Perm held') :
    PlainScan.pick? catalog held interval = PlainScan.pick? catalog held' interval := by
  have sameTest : PlainScan.isClear catalog.registers held
      = PlainScan.isClear catalog.registers held' := by
    funext register
    exact same.all_eq
  rw [PlainScan.pick?, PlainScan.pick?, sameTest]

/-- A slot of the spill area keeps the scans in step. -/
theorem Refines.toStack (refines : Refines catalog seq state scan) (interval : Interval) :
    Corresponds (Refines catalog (seq + 1)) (fun halt fault => halt.fault = fault)
      (state.assignStack interval) (scan.toStack interval) := by
  rw [assignStack_eq, PlainScan.toStack, refines.books.cursor]
  split
  · rfl
  · exact ⟨refines.supplies, refines.ordered,
      fun holder member => Nat.lt_succ_of_lt (refines.earlier holder member), refines.held,
      refines.books.stacked interval⟩

/-- Binding an interval brings the scans back in step, if all that was missing is its
register. -/
theorem refines_bound (holder : Held) (name : String)
    (supplies : Supplies catalog state.suppliers (holder :: state.active.entries))
    (ordered : ActiveSet.Ordered state.active.entries)
    (earlier : ∀ other ∈ state.active.entries, other.seq < holder.seq)
    (held : scan.held.Perm state.active.entries) (books : SameBooks state scan) :
    Refines catalog (holder.seq + 1) (state.bound holder name) (scan.hold holder) := by
  have new : ∀ other ∈ state.active.entries, other.seq ≠ holder.seq :=
    fun other member => Nat.ne_of_lt (earlier other member)
  have inserted := ActiveSet.insertEntry_perm new
  refine ⟨supplies.perm inserted.symm, ActiveSet.pairwise_insertEntry ordered new, ?_,
    (held.cons holder).trans inserted.symm, books.bound holder name⟩
  intro other member
  rcases List.mem_cons.mp (inserted.mem_iff.mp member) with rfl | old
  · exact Nat.lt_succ_self _
  · exact Nat.lt_succ_of_lt (earlier other old)

/-- A clear register is bound by both. -/
theorem Refines.place_found (wellFormed : catalog.WellFormed)
    (refines : Refines catalog seq state scan) {found : Found}
    (search : state.find catalog interval = .ok (some found))
    (picked : PlainScan.pick? catalog state.active.entries interval
      = some (found.register, found.bank)) :
    Corresponds (Refines catalog (seq + 1)) (fun halt fault => halt.fault = fault)
      ((state.setSupplier found.bank found.supplier).activate catalog.registers seq interval
        found.register found.bank)
      (.ok (scan.hold ⟨interval, seq, found.register, found.bank⟩)) := by
  obtain ⟨supplier, atPlace, member, marked⟩ :=
    eq_mark_of_find wellFormed refines.supplies search
  obtain ⟨⟨bank, atBank, -, inBank⟩, clear⟩ := PlainScan.pick?_eq_some picked
  obtain ⟨name, named⟩ := wellFormed.exists_name atBank inBank
  have fresh : ∀ other ∈ state.active.entries, other.register ≠ found.register :=
    fun other isHolder => RegisterFile.ne_of_not_intersects (clear other isHolder)
  let holder : Held := ⟨interval, seq, found.register, found.bank⟩
  rw [marked, setSupplier_eq, activate_eq named]
  have supplies : Supplies catalog
      (setSupplierAt state.suppliers holder.bank (supplier.mark holder.register false))
      (holder :: state.active.entries) := refines.supplies.take atPlace member fresh
  exact refines_bound holder name supplies refines.ordered refines.earlier refines.held
    (refines.books.other _ _ _)

/-- The holder that has to yield is the last entry of the active set. -/
theorem Refines.victim?_eq (refines : Refines catalog seq state scan) :
    PlainScan.victim? catalog options scan.held interval =
      if options.eviction then
        state.active.last?.filter fun holder =>
          interval.stop < holder.interval.stop &&
            (catalog.bank? holder.bank).any (·.admits interval.type interval.size)
      else none := by
  rw [PlainScan.victim?, ActiveSet.latest?_eq_getLast? refines.ordered refines.held]
  rfl

/-- A holder that yields is taken out by both, and its register is bound by both. -/
theorem Refines.evict (wellFormed : catalog.WellFormed)
    (refines : Refines catalog seq state scan) {victim : Held}
    (last : state.active.last? = some victim) :
    Corresponds (Refines catalog (seq + 1)) (fun halt fault => halt.fault = fault)
      (state.evict catalog.registers seq victim interval)
      (do
        let scan ← (scan.release victim).toStack victim.interval
        return scan.hold ⟨interval, seq, victim.register, victim.bank⟩) := by
  have split : state.active.entries.dropLast ++ [victim] = state.active.entries :=
    List.dropLast_append_getLast? victim (Option.mem_def.mpr last)
  have front : state.active.entries.Perm (victim :: state.active.entries.dropLast) := by
    have front := List.perm_append_singleton victim state.active.entries.dropLast
    rwa [split] at front
  have isHolder : victim ∈ state.active.entries := List.mem_of_getLast? last
  obtain ⟨bank, atBank, inBank⟩ := refines.supplies.fromBank victim isHolder
  obtain ⟨name, named⟩ := wellFormed.exists_name atBank inBank
  let holder : Held := ⟨interval, seq, victim.register, victim.bank⟩
  -- The register changes hands and its flag stays cleared throughout.
  have supplies : Supplies catalog state.suppliers (holder :: state.active.entries.dropLast) :=
    (refines.supplies.perm front).exchange rfl rfl
  have ordered : ActiveSet.Ordered state.active.entries.dropLast :=
    refines.ordered.sublist (List.dropLast_sublist _)
  have earlier : ∀ other ∈ state.active.entries.dropLast, other.seq < seq :=
    fun other member => refines.earlier other ((List.dropLast_sublist _).subset member)
  have held : (scan.held.erase victim).Perm state.active.entries.dropLast :=
    ActiveSet.erase_perm_dropLast refines.held last
  rw [ScanState.evict, named]
  dsimp only
  -- What the log records has no part in the books.
  have cursor : ({ state with active := state.active.dropLast }.log
      (.evicted victim.interval name interval)).cursor = (scan.release victim).cursor :=
    refines.books.cursor
  refine Corresponds.bind (assignStack_toStack cursor victim.interval) ?_
  rintro _ _ ⟨rfl, rfl⟩
  have entered := refines.books.stacked victim.interval
  rw [activate_eq named]
  exact refines_bound holder name supplies ordered earlier held
    ⟨entered.stackBase, entered.cursor, entered.assignment, entered.spills,
      congrArg (· + 1) entered.evictions⟩

/-- With no register clear, both evict the same holder, or both spill the interval. -/
theorem Refines.spill (wellFormed : catalog.WellFormed)
    (refines : Refines catalog seq state scan) :
    Corresponds (Refines catalog (seq + 1)) (fun halt fault => halt.fault = fault)
      (state.spill catalog.registers options.eviction seq interval)
      (match PlainScan.victim? catalog options scan.held interval with
      | some victim => do
        let scan ← (scan.release victim).toStack victim.interval
        return scan.hold ⟨interval, seq, victim.register, victim.bank⟩
      | none => scan.toStack interval) := by
  rw [refines.victim?_eq, ScanState.spill]
  by_cases enabled : options.eviction
  · rw [if_pos enabled, if_pos enabled]
    cases last : state.active.last? with
    | none => exact refines.toStack interval
    | some victim =>
      have isHolder : victim ∈ state.active.entries := List.mem_of_getLast? last
      obtain ⟨bank, atBank, -⟩ := refines.supplies.fromBank victim isHolder
      obtain ⟨supplier, atPlace, rfl⟩ := refines.supplies.exists_supplier atBank
      have yielding : (interval.stop < victim.interval.stop &&
          (catalog.bank? victim.bank).any (·.admits interval.type interval.size))
            = yields supplier victim interval := by
        rw [atBank]
        rfl
      simp only [Option.filter_some, yielding, supplier?_eq, atPlace]
      cases yields supplier victim interval with
      | true => exact refines.evict wellFormed last
      | false => exact refines.toStack interval
  · rw [if_neg enabled, if_neg enabled]
    exact refines.toStack interval

/-- **The step of the simulation**: an interval that one scan places, the other places
alike. -/
theorem Refines.place (wellFormed : catalog.WellFormed)
    (refines : Refines catalog seq state scan) :
    Corresponds (Refines catalog (seq + 1)) (fun halt fault => halt.fault = fault)
      (state.place catalog options seq interval) (scan.place catalog options seq interval) := by
  rw [ScanState.place, PlainScan.place]
  by_cases only : options.allStack
  · rw [if_pos only, if_pos only]
    exact refines.toStack interval
  · rw [if_neg only, if_neg only]
    obtain ⟨state', expired, refines'⟩ := refines.expire interval.start
    obtain ⟨found?, search, agree⟩ := find_eq_pick? wellFormed refines'.supplies interval
    have picked : found?.map (fun found => (found.register, found.bank))
        = PlainScan.pick? catalog (scan.expire interval.start).held interval := by
      rw [pick?_perm refines'.held]
      exact agree
    rw [expired]
    simp only [← picked, bind, Except.bind, search, guard]
    cases found? with
    | some found => exact refines'.place_found wellFormed search agree.symm
    | none => exact refines'.spill wellFormed

/-- A scan may be interrupted at any point. -/
theorem placeAll_append (intervals others : List Interval) (state : ScanState) (seq : Nat) :
    state.placeAll catalog options seq (intervals ++ others) =
      state.placeAll catalog options seq intervals >>= fun state =>
        state.placeAll catalog options (seq + intervals.length) others :=
  numbered_append (fun _ _ => rfl) (fun _ _ _ _ => rfl) intervals others state seq

/-- **The run of the simulation**: scans that are in step stay in step, and fail together. -/
theorem Refines.placeAll (wellFormed : catalog.WellFormed) :
    ∀ (intervals : List Interval) (seq : Nat) (state : ScanState) (scan : PlainScan),
      Refines catalog seq state scan →
        Corresponds (Refines catalog (seq + intervals.length))
          (fun halt fault => halt.fault = fault)
          (state.placeAll catalog options seq intervals)
          (scan.placeAll catalog options seq intervals) := by
  intro intervals
  induction intervals with
  | nil =>
    intro seq state scan refines
    exact refines
  | cons interval rest ih =>
    intro seq state scan refines
    refine Corresponds.bind (refines.place wellFormed) ?_
    intro state' scan' refines'
    rw [List.length_cons, Nat.add_comm rest.length, ← Nat.add_assoc]
    exact ih (seq + 1) state' scan' refines'

/-- Scans start in step. -/
theorem refines_start (wellFormed : catalog.WellFormed) (stackBase : Nat) :
    Refines catalog 0 (ScanState.start catalog stackBase) (PlainScan.start stackBase) := by
  refine ⟨Supplies.start wellFormed stackBase, List.Pairwise.nil, ?_, List.Perm.refl _,
    ⟨rfl, rfl, rfl, rfl, rfl⟩⟩
  intro holder member
  cases member

end ScanState

end LinearScan
