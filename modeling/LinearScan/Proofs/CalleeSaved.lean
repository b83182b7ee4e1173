import LinearScan.Proofs.Allocator
import LinearScan.Proofs.Liveness

/-!
# No register is forgotten

Callee-saved registers that a program touches have to be restored, whoever lives in them in the
end.  The report of a run is made from its final assignment alone, although evictions overwrite
assignments.  That nothing is missing from it is a property of evictions: the register of an
evicted interval passes to the interval that evicts it, so it has an heir at every moment, however
often it changes hands.

One step is described by a single equivalence, `ScanState.Move.uses_iff`: afterwards, the registers
that temps live in are those that temps lived in before, and those that are occupied.  Over a whole
run (`ScanState.uses_iff_occupiedDuring`) they are those that were occupied at any moment.
-/

namespace LinearScan

open Outcome

/-! ## Registers of an assignment -/

namespace Assignment

variable {assignment : Assignment} {temp victim : TempId} {register other : RegisterId}
  {offset : Nat}

/-- Some temp lives in the register. -/
def Uses (assignment : Assignment) (register : RegisterId) : Prop :=
  ∃ temp, assignment.get? temp = some (.register register)

/-- A temp that goes to the stack at once uses no register. -/
theorem uses_insert_stack (vacant : assignment.get? temp = none) :
    (assignment.insert temp (.stack offset)).Uses register ↔ assignment.Uses register := by
  refine exists_congr fun one => ?_
  rw [get?_insert]
  split
  · next same => simp [same, vacant]
  · exact Iff.rfl

/-- A temp that is new uses one register more. -/
theorem uses_insert_register (vacant : assignment.get? temp = none) :
    (assignment.insert temp (.register other)).Uses register ↔
      other = register ∨ assignment.Uses register := by
  constructor
  · rintro ⟨one, lives⟩
    rw [get?_insert] at lives
    split at lives
    · exact Or.inl (by simpa using lives)
    · exact Or.inr ⟨one, lives⟩
  · rintro (rfl | ⟨one, lives⟩)
    · exact ⟨temp, by rw [get?_insert, if_pos rfl]⟩
    · refine ⟨one, ?_⟩
      rw [get?_insert, if_neg, lives]
      rintro rfl
      cases vacant.symm.trans lives

/-- **A register that passes on** from one temp to a new one stays in use, and so does every
other. -/
theorem uses_pass (vacant : assignment.get? temp = none)
    (lives : assignment.get? victim = some (.register other)) :
    ((assignment.insert victim (.stack offset)).insert temp (.register other)).Uses register ↔
      assignment.Uses register := by
  have apart : temp ≠ victim := by
    rintro rfl
    cases vacant.symm.trans lives
  have vacant' : (assignment.insert victim (.stack offset)).get? temp = none := by
    rw [get?_insert, if_neg apart, vacant]
  rw [uses_insert_register vacant']
  constructor
  · rintro (rfl | ⟨one, stays⟩)
    · exact ⟨victim, lives⟩
    · rw [get?_insert] at stays
      split at stays
      · cases stays
      · exact ⟨one, stays⟩
  · rintro ⟨one, stays⟩
    by_cases evicted : one = victim
    · subst evicted
      exact Or.inl (by simpa using lives.symm.trans stays)
    · exact Or.inr ⟨one, by rw [get?_insert, if_neg evicted, stays]⟩

/-- The registers of an assignment are those that temps live in. -/
theorem Ascending.mem_registers_iff (ascending : assignment.Ascending) :
    register ∈ assignment.registers ↔ assignment.Uses register := by
  rw [mem_registers]
  constructor
  · rintro ⟨⟨temp, place⟩, member, rfl⟩
    exact ⟨temp, ascending.get?_eq_some_iff.mpr member⟩
  · rintro ⟨temp, lives⟩
    exact ⟨_, ascending.get?_eq_some_iff.mp lives, rfl⟩

/-- The registers of an assignment ascend. -/
theorem pairwise_registers (assignment : Assignment) :
    assignment.registers.Pairwise (·.index < ·.index) := by
  suffices general : ∀ (ids chosen : List RegisterId), chosen.Pairwise (·.index < ·.index) →
      (ids.foldl (fun ids id => RegisterId.insert id ids) chosen).Pairwise (·.index < ·.index) from
    general _ [] List.Pairwise.nil
  intro ids
  induction ids with
  | nil => exact fun chosen ascending => ascending
  | cons id rest ih => exact fun chosen ascending => ih _ (RegisterId.pairwise_insert id ascending)

end Assignment

namespace ScanState

variable {catalog : Catalog} {options : Options} {state state' : ScanState} {seq : Nat}
  {interval : Interval} {done intervals : List Interval} {stackBase : Nat} {register : RegisterId}

/-- An interval holds the register. -/
def Occupied (state : ScanState) (register : RegisterId) : Prop :=
  ∃ holder ∈ state.active.entries, holder.register = register

/-- **A register is occupied at some moment** of a scan: when some of the intervals have been
placed, one of them holds it. -/
def OccupiedDuring (catalog : Catalog) (options : Options) (before : ScanState)
    (intervals : List Interval) (register : RegisterId) : Prop :=
  ∃ done state, done <+: intervals ∧ before.placeAll catalog options 0 done = .ok state ∧
    state.Occupied register

/-! ## Holders live in their registers -/

/-- Each holder is assigned the register that it holds. -/
def Settled (state : ScanState) : Prop :=
  ∀ holder ∈ state.active.entries,
    state.assignment.get? holder.interval.temp = some (.register holder.register)

/-- What is occupied is in use. -/
theorem Settled.uses (settled : state.Settled) (occupied : state.Occupied register) :
    state.assignment.Uses register := by
  obtain ⟨holder, member, rfl⟩ := occupied
  exact ⟨holder.interval.temp, settled holder member⟩

/-- Who expires is no holder any more. -/
theorem Settled.fewer (settled : state.Settled) {suppliers : List (List Supplier)}
    {active : ActiveSet} (fewer : active.entries ⊆ state.active.entries) :
    Settled { state with suppliers, active } :=
  fun holder member => settled holder (fewer member)

/-- Who holds no register may be put on the stack. -/
theorem Settled.stacked (settled : state.Settled)
    (leaves : ∀ holder ∈ state.active.entries, holder.interval.temp ≠ interval.temp) :
    (state.stacked interval).Settled := by
  intro holder member
  rw [ScanState.stacked, Assignment.get?_insert, if_neg (leaves holder member)]
  exact settled holder member

/-- Who holds no register may be bound to one. -/
theorem Settled.bound (settled : state.Settled) (new : Held) (name : String)
    (leaves : ∀ holder ∈ state.active.entries, holder.interval.temp ≠ new.interval.temp) :
    (state.bound new name).Settled := by
  obtain ⟨others, fewer, inserted⟩ := ActiveSet.exists_insertEntry_perm state.active.entries new
  intro holder member
  rw [ScanState.bound, Assignment.get?_insert]
  rcases List.mem_cons.mp (inserted.mem_iff.mp member) with rfl | old
  · exact if_pos rfl
  · rw [if_neg (leaves holder (fewer.subset old))]
    exact settled holder (fewer.subset old)

/-- A register that is bound is occupied. -/
theorem occupied_bound (state : ScanState) (new : Held) (name : String) :
    (state.bound new name).Occupied new.register := by
  obtain ⟨others, -, inserted⟩ := ActiveSet.exists_insertEntry_perm state.active.entries new
  exact ⟨new, inserted.mem_iff.mpr List.mem_cons_self, rfl⟩

/-! ## One step -/

/-- **One step** leaves holders in their registers. -/
theorem Settled.move {file : RegisterFile} (settled : state.Settled)
    (ledger : Ledger options stackBase done state) (fresh : ∀ a ∈ done, a.temp ≠ interval.temp)
    (move : Move file options state seq interval state') : state'.Settled := by
  have others : ∀ holder ∈ state.active.entries, holder.interval.temp ≠ interval.temp :=
    fun holder member => fresh _ (ledger.inRegister holder member).1
  cases move with
  | stacked fewer =>
    exact (settled.fewer fewer.subset).stacked fun holder member =>
      others holder (fewer.subset member)
  | bound fewer bank named =>
    exact (settled.fewer fewer.subset).bound _ _ fun holder member =>
      others holder (fewer.subset member)
  | @evicted suppliers active victim fewer name named evicts allowed =>
    have stays : active.entries ⊆ state.active.entries :=
      fun holder member => fewer.subset (List.mem_append_left _ member)
    have rest : Settled { state with suppliers, active } := settled.fewer stays
    have released : ({ state with suppliers, active }.released victim name interval).Settled := rest
    exact (released.stacked (ledger.ne_victim fewer)).bound _ _ fun holder member =>
      others holder (stays member)

/-- **What one step does to the registers in use**: it adds those that are occupied afterwards, and
removes none. -/
theorem Move.uses_iff {file : RegisterFile} (settled : state.Settled)
    (ledger : Ledger options stackBase done state) (fresh : ∀ a ∈ done, a.temp ≠ interval.temp)
    (move : Move file options state seq interval state') :
    state'.assignment.Uses register ↔
      state.assignment.Uses register ∨ state'.Occupied register := by
  have vacant := ledger.get?_eq_none fresh
  have ofOccupied : state'.Occupied register → state'.assignment.Uses register :=
    (settled.move ledger fresh move).uses
  cases move with
  | @stacked suppliers active fewer =>
    have same : ({ state with suppliers, active }.stacked interval).assignment.Uses register ↔
        state.assignment.Uses register := Assignment.uses_insert_stack vacant
    exact same.trans (or_iff_left_of_imp fun occupied => same.mp (ofOccupied occupied)).symm
  | @bound suppliers active fewer new bank name named =>
    refine ⟨fun uses => ?_, Or.rec (fun old => ?_) ofOccupied⟩
    · rcases (Assignment.uses_insert_register vacant).mp uses with rfl | old
      · exact Or.inr (occupied_bound _ ⟨interval, seq, new, bank⟩ name)
      · exact Or.inl old
    · exact (Assignment.uses_insert_register vacant).mpr (Or.inr old)
  | @evicted suppliers active victim fewer name named evicts allowed =>
    -- the register of the victim is the one that is bound again
    have lives := settled victim (fewer.subset (List.mem_append_right _ List.mem_cons_self))
    have same : ((state.assignment.insert victim.interval.temp (.stack state.cursor)).insert
        interval.temp (.register victim.register)).Uses register ↔ state.assignment.Uses register :=
      Assignment.uses_pass vacant lives
    exact Iff.trans same
      (or_iff_left_of_imp fun occupied => same.mp (ofOccupied occupied)).symm

/-! ## Whole runs -/

/-- One more interval adds one moment. -/
theorem occupiedDuring_concat {before : ScanState}
    (placed : before.placeAll catalog options 0 (done ++ [interval]) = .ok state) :
    OccupiedDuring catalog options before (done ++ [interval]) register ↔
      OccupiedDuring catalog options before done register ∨ state.Occupied register := by
  constructor
  · rintro ⟨earlier, moment, beginning, reached, occupied⟩
    rcases List.prefix_concat_iff.mp beginning with rfl | before
    · obtain rfl := Except.ok.inj (placed.symm.trans reached)
      exact Or.inr occupied
    · exact Or.inl ⟨earlier, moment, before, reached, occupied⟩
  · rintro (⟨earlier, moment, beginning, reached, occupied⟩ | occupied)
    · exact ⟨earlier, moment, beginning.trans (List.prefix_append _ _), reached, occupied⟩
    · exact ⟨_, state, List.prefix_refl _, placed, occupied⟩

/-- **A whole run**: the registers in use at its end are those that were occupied at some moment. -/
theorem uses_iff_occupiedDuring (distinct : (intervals.map Interval.temp).Nodup)
    (before : ScanState)
    (completed : (before.reset stackBase).placeAll catalog options 0 intervals = .ok state) :
    state.assignment.Uses register ↔
      OccupiedDuring catalog options (before.reset stackBase) intervals register := by
  refine (numbered_induction (motive := fun done state =>
    (before.reset stackBase).placeAll catalog options 0 done = .ok state ∧
      Ledger options stackBase done state ∧ state.Settled ∧
      (state.assignment.Uses register ↔
        OccupiedDuring catalog options (before.reset stackBase) done register))
    (fun _ _ => rfl) (fun _ _ _ _ => rfl) intervals ?_ ?_ completed).2.2.2
  · rintro done interval state state' beginning ⟨reached, ledger, settled, sofar⟩ placed
    obtain ⟨fresh, -⟩ := PlainScan.fresh_of_beginning distinct beginning
    have move := move_of_place placed
    have reached' : (before.reset stackBase).placeAll catalog options 0 (done ++ [interval])
        = .ok state' := by
      rw [placeAll_append, reached]
      show state.placeAll catalog options (0 + done.length) [interval] = .ok state'
      rw [Nat.zero_add, placeAll, placed]
      rfl
    refine ⟨reached', ledger.move fresh move, settled.move ledger fresh move, ?_⟩
    rw [move.uses_iff settled ledger fresh, occupiedDuring_concat reached', sofar]
  · refine ⟨rfl, ledger_reset options before stackBase, ?_, iff_of_false ?_ ?_⟩
    · intro holder member
      cases member
    · rintro ⟨temp, lives⟩
      cases lives
    · rintro ⟨done, moment, beginning, reached, holder, member, -⟩
      obtain rfl := List.prefix_nil.mp beginning
      obtain rfl := Except.ok.inj reached
      cases member

/-- The callee-saved registers of a result are those in use. -/
theorem mem_calleeSaved_iff (ascending : state.assignment.Ascending) {file : RegisterFile} :
    register ∈ (state.result file).calleeSaved ↔
      (file.get? register).any (·.calleeSaved) = true ∧ state.assignment.Uses register := by
  show register ∈ state.assignment.registers.filter _ ↔ _
  rw [List.mem_filter, ascending.mem_registers_iff, and_comm]

end ScanState

/-! ## Reports -/

/-- **A complete report** of the callee-saved registers among those that were occupied. -/
structure Allocation.SavesExactly (file : RegisterFile) (occupied : RegisterId → Prop)
    (allocation : Allocation) : Prop where
  ascending : allocation.calleeSaved.Pairwise (·.index < ·.index)
  mem_iff : ∀ register, register ∈ allocation.calleeSaved ↔
    (file.get? register).any (·.calleeSaved) = true ∧ occupied register
  /-- Whatever was occupied, some temp lives in at the end. -/
  inherited : ∀ register, occupied register ↔
    ∃ temp, allocation.assignment.get? temp = some (.register register)

namespace Allocator

variable {allocator : Allocator} {stackBase : Nat} {run : CompletedRun}

/-- A register is occupied at some moment of a run over intervals. -/
def OccupiedDuring (allocator : Allocator) (intervals : List Interval) (stackBase : Nat) :
    RegisterId → Prop :=
  ScanState.OccupiedDuring allocator.catalog allocator.options (allocator.state.reset stackBase)
    intervals

/-- The report of a run over intervals. -/
theorem savesExactly_runIntervals {intervals : List Interval}
    (distinct : (intervals.map Interval.temp).Nodup)
    (done : allocator.runIntervals intervals stackBase = .ok run) :
    run.allocation.SavesExactly allocator.catalog.registers
      (allocator.OccupiedDuring intervals stackBase) := by
  rw [runIntervals_eq_placeAll] at done
  split at done
  · cases done
  · obtain ⟨state, placed, done⟩ := bind_eq_ok.mp done
    obtain rfl := pure_eq_ok.mp done
    have ledger := ScanState.ledger_of_placeAll distinct _ placed
    have inherited : ∀ register, allocator.OccupiedDuring intervals stackBase register ↔
        state.assignment.Uses register :=
      fun register => (ScanState.uses_iff_occupiedDuring distinct _ placed).symm
    refine ⟨state.assignment.pairwise_registers.filter _, fun register => ?_, inherited⟩
    rw [inherited]
    exact ScanState.mem_calleeSaved_iff ledger.ascending

/-- The report of a run over a program. -/
theorem savesExactly_runFrom {operations : List Operation}
    (done : allocator.runFrom operations stackBase = .ok run) :
    run.allocation.SavesExactly allocator.catalog.registers
      (allocator.OccupiedDuring (Liveness.ofOperations operations).intervals stackBase) := by
  rw [runFrom_eq] at done
  obtain ⟨inner, completed, rfl⟩ := exists_of_report done
  have exactly := savesExactly_runIntervals (Liveness.nodup_intervals operations) completed
  exact ⟨exactly.ascending, exactly.mem_iff, exactly.inherited⟩

/-- **The report of callee-saved registers is complete.**  In every completed run, it lists in
ascending order the callee-saved registers that were occupied at any moment, those of evicted
intervals included, and nothing else: a register that was ever handed out is the place of some temp
at the end. -/
theorem savesExactly_of_completed (allocator : Allocator) :
    (∀ operations stackBase run, allocator.runFrom operations stackBase = .ok run →
      run.allocation.SavesExactly allocator.catalog.registers
        (allocator.OccupiedDuring (Liveness.ofOperations operations).intervals stackBase)) ∧
    (∀ operations run, allocator.run operations = .ok run →
      run.allocation.SavesExactly allocator.catalog.registers
        (allocator.OccupiedDuring (Liveness.ofOperations operations).intervals
          allocator.options.stackBase)) ∧
    (∀ intervals stackBase run, (intervals.map Interval.temp).Nodup →
      allocator.runIntervals intervals stackBase = .ok run →
      run.allocation.SavesExactly allocator.catalog.registers
        (allocator.OccupiedDuring intervals stackBase)) := by
  refine ⟨?_, ?_, ?_⟩
  · intro operations stackBase run done
    exact savesExactly_runFrom done
  · intro operations run done
    exact savesExactly_runFrom done
  · intro intervals stackBase run distinct done
    exact savesExactly_runIntervals distinct done

/-- Only the register that is callee-saved serves anything. -/
def lone : List Entry :=
  [⟨⟨2⟩, [8], .integer⟩]

/-- Three values, each of which is freed before the one that was defined before it. -/
def heirs : List Operation :=
  let temp (index : Nat) : Temp := .ofType ⟨index⟩ .i64
  [⟨[], some (temp 0), none⟩, ⟨[], some (temp 1), none⟩, ⟨[], some (temp 2), none⟩,
    ⟨[], none, some (temp 2)⟩, ⟨[], none, some (temp 1)⟩, ⟨[], none, some (temp 0)⟩]

/-- The only register passes on twice, and who had it first is on the stack at the end. -/
theorem savesExactly_heirs :
    (∃ state, ((ofCatalog (.small lone) {}).state.reset 0).placeAll (.small lone) {} 0
        [⟨⟨0⟩, 0, 5, 8, .i64⟩] = .ok state ∧
      state.assignment.get? ⟨0⟩ = some (.register ⟨2⟩)) ∧
    ∃ run, (ofCatalog (.small lone) {}).run heirs = .ok run ∧
      run.allocation.assignment.entries =
        [(⟨0⟩, .stack 0), (⟨1⟩, .stack 8), (⟨2⟩, .register ⟨2⟩)] ∧
      run.allocation.calleeSaved = [⟨2⟩] ∧
      run.allocation.SavesExactly (Catalog.small lone).registers
        ((ofCatalog (.small lone) {}).OccupiedDuring (Liveness.ofOperations heirs).intervals 0) := by
  have intervals : (Liveness.ofOperations heirs).intervals
      = [⟨⟨0⟩, 0, 5, 8, .i64⟩, ⟨⟨1⟩, 1, 4, 8, .i64⟩, ⟨⟨2⟩, 2, 3, 8, .i64⟩] := by
    rw [Liveness.intervals_eq]
    rfl
  obtain ⟨run, done, places, saved⟩ :
      ∃ run, (ofCatalog (.small lone) {}).run heirs = .ok run ∧
        run.allocation.assignment.entries =
          [(⟨0⟩, .stack 0), (⟨1⟩, .stack 8), (⟨2⟩, .register ⟨2⟩)] ∧
        run.allocation.calleeSaved = [⟨2⟩] := by
    rw [Allocator.run, runFrom_eq, intervals]
    exact ⟨_, rfl, rfl, rfl⟩
  exact ⟨⟨_, rfl, rfl⟩, run, done, places, saved,
    (savesExactly_of_completed (ofCatalog (.small lone) {})).2.1 heirs run done⟩

end Allocator

end LinearScan
