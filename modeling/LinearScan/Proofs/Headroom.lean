import LinearScan.Proofs.Assignment
import LinearScan.Proofs.SpillBound
import LinearScan.Proofs.Target.X86

/-!
# No spill where there is room

Where an interval has room in the sense of `Catalog.HasRoom`, it gets a register and nobody is
evicted for it, whatever happened before.  A holder blocks one of the spread registers at most,
holders that do not contend for them block none, and those that ended are out of the way.

If every interval of a list has room when its turn comes, a run completes, and all its values
are in registers.  Completion is part of the statement: a slot that does not fit the frame is the
only fault there is, and no slot is asked for.
-/

namespace LinearScan

/-- **All in registers**: nothing went to the stack, and the frame is as large as what was
reserved. -/
structure Allocation.InRegisters (allocation : Allocation) (intervals : List Interval)
    (stackBase : Nat) : Prop where
  spills : allocation.spills = 0
  evictions : allocation.evictions = 0
  frameSize : allocation.frameSize = stackBase
  registers : ∀ interval ∈ intervals, ∃ register,
    allocation.assignment.get? interval.temp = some (.register register)

/-- **A step that finds a register** for an interval: it is one that is offered to the interval,
nobody is evicted and nothing goes to the stack. -/
structure ScanState.Finds (catalog : Catalog) (interval : Interval) (state state' : ScanState) :
    Prop where
  assignment : ∃ register, catalog.Offers interval register ∧
    state'.assignment = state.assignment.insert interval.temp (.register register)
  spills : state'.spills = state.spills
  evictions : state'.evictions = state.evictions
  cursor : state'.cursor = state.cursor

namespace PlainScan

variable {catalog : Catalog} {options : Options} {scan : PlainScan} {seq stackBase : Nat}
  {done gone : List Interval} {interval : Interval}

/-- Where there is room, a register is clear. -/
theorem exists_pick? (wellFormed : catalog.WellFormed) (housed : Housed catalog done gone scan)
    (room : catalog.HasRoom done interval) :
    ∃ register bank, pick? catalog (scan.expire interval.start).held interval
      = some (register, bank) := by
  obtain ⟨registers, spread, offered, few⟩ := room
  have expired := housed.expire interval.start
  cases picked : pick? catalog (scan.expire interval.start).held interval with
  | some found => exact ⟨found.1, found.2, rfl⟩
  | none =>
    exfalso
    have enough := card_le_countP_of_blocked wellFormed expired.offered spread offered picked
    have alive : (scan.expire interval.start).held.countP
          (fun holder => catalog.Contends registers holder.interval)
        ≤ ((scan.expire interval.start).held.map (·.interval)).countP
          (fun other => interval.start ≤ other.stop ∧ catalog.Contends registers other) := by
      rw [List.countP_map]
      refine List.countP_mono_left fun holder isHolder contends => ?_
      exact decide_eq_true ⟨(mem_held_expire.mp isHolder).2, of_decide_eq_true contends⟩
    have among := (List.sublist_append_right gone _).subperm.trans expired.parted
    have counted := among.countP_le
      (fun other => interval.start ≤ other.stop ∧ catalog.Contends registers other)
    omega

/-- Where there is room, a step finds a register. -/
theorem exists_hold (wellFormed : catalog.WellFormed) (allowed : options.allStack = false)
    (housed : Housed catalog done gone scan) (room : catalog.HasRoom done interval) (seq : Nat) :
    ∃ holder : Held, holder.interval = interval ∧
      (holder.register, holder.bank) ∈ candidates catalog interval ∧
      scan.place catalog options seq interval = .ok ((scan.expire interval.start).hold holder) := by
  obtain ⟨register, bank, picked⟩ := exists_pick? wellFormed housed room
  refine ⟨⟨interval, seq, register, bank⟩, rfl, mem_candidates.mpr (pick?_eq_some picked).1, ?_⟩
  rw [place, allowed]
  simp only [picked]
  rfl

/-- **A run with room for all** keeps everything in registers. -/
theorem exists_placeAll_of_room (wellFormed : catalog.WellFormed)
    (allowed : options.allStack = false) {intervals : List Interval}
    (room : ∀ done interval, done ++ [interval] <+: intervals → catalog.HasRoom done interval)
    (stackBase : Nat) :
    ∃ scan, (start stackBase).placeAll catalog options 0 intervals = .ok scan ∧
      (scan.allocation catalog.registers).InRegisters intervals stackBase := by
  -- Completion is part of what is shown, so this is not a case of `placeAll_induction`.
  suffices general : ∀ (rest done : List Interval) (scan : PlainScan), done ++ rest = intervals →
      Housed catalog done [] scan →
      (scan.allocation catalog.registers).InRegisters done stackBase →
      ∃ scan', scan.placeAll catalog options done.length rest = .ok scan' ∧
        (scan'.allocation catalog.registers).InRegisters intervals stackBase from
    general intervals [] (start stackBase) rfl (housed_start catalog stackBase)
      ⟨rfl, rfl, rfl, by simp⟩
  intro rest
  induction rest with
  | nil =>
    intro done scan whole _ inRegisters
    rw [List.append_nil] at whole
    exact ⟨scan, rfl, whole ▸ inRegisters⟩
  | cons interval rest ih =>
    intro done scan whole housed inRegisters
    rw [List.append_cons] at whole
    obtain ⟨holder, rfl, candidate, placed⟩ := exists_hold wellFormed allowed housed
      (room done interval ⟨rest, whole⟩) done.length
    have settled : (((scan.expire holder.interval.start).hold holder).allocation
        catalog.registers).InRegisters (done ++ [holder.interval]) stackBase := by
      refine ⟨inRegisters.spills, inRegisters.evictions, inRegisters.frameSize, ?_⟩
      intro other member
      show ∃ register, (scan.assignment.insert holder.interval.temp
        (.register holder.register)).get? other.temp = some (.register register)
      rw [Assignment.get?_insert]
      split
      · exact ⟨holder.register, rfl⟩
      · next differs =>
        rcases List.mem_append.mp member with old | new
        · exact inRegisters.registers other old
        · rw [List.mem_singleton.mp new] at differs
          exact (differs rfl).elim
    obtain ⟨scan', others, final⟩ := ih (done ++ [holder.interval]) _ whole
      ((housed.expire holder.interval.start).hold holder candidate) settled
    rw [List.length_append, List.length_singleton] at others
    exact ⟨scan', Outcome.bind_eq_ok.mpr ⟨_, placed, others⟩, final⟩

end PlainScan

/-- The number of values of a class that are live at a position. -/
def liveCount (intervals : List Interval) (valueClass : ValueClass) (position : Nat) : Nat :=
  intervals.countP fun interval =>
    interval.isLiveAt position && interval.type.valueClass = valueClass

/-- The values of its class that are alive when an interval starts, and itself, are live there. -/
theorem succ_countP_le_liveCount {intervals done : List Interval} {interval : Interval}
    (sorted : intervals.Pairwise (·.start ≤ ·.start)) (ordered : interval.start ≤ interval.stop)
    (beginning : done ++ [interval] <+: intervals) :
    done.countP (fun other => interval.start ≤ other.stop ∧
      other.type.valueClass = interval.type.valueClass) + 1
      ≤ liveCount intervals interval.type.valueClass interval.start := by
  obtain ⟨-, -, starts⟩ := List.pairwise_append.mp (sorted.sublist beginning.sublist)
  let isCounted (other : Interval) : Bool :=
    other.isLiveAt interval.start && other.type.valueClass = interval.type.valueClass
  have earlier : done.countP (fun other => interval.start ≤ other.stop ∧
      other.type.valueClass = interval.type.valueClass) ≤ done.countP isCounted := by
    refine List.countP_mono_left fun other member counted => ?_
    obtain ⟨alive, same⟩ := of_decide_eq_true counted
    exact Bool.and_eq_true_iff.mpr ⟨Interval.isLiveAt_iff.mpr
      ⟨starts other member interval (List.mem_singleton.mpr rfl), alive⟩, decide_eq_true same⟩
  have itself : isCounted interval = true :=
    Bool.and_eq_true_iff.mpr ⟨Interval.isLiveAt_iff.mpr ⟨Nat.le_refl _, ordered⟩,
      decide_eq_true rfl⟩
  calc done.countP _ + 1
    _ ≤ done.countP isCounted + [interval].countP isCounted := by
      rw [List.countP_singleton, if_pos itself]
      exact Nat.add_le_add_right earlier 1
    _ = (done ++ [interval]).countP isCounted := List.countP_append.symm
    _ ≤ intervals.countP isCounted := beginning.sublist.countP_le

namespace Allocator

open Outcome

variable {catalog : Catalog} {options : Options} {allocator : Allocator}

/-- A step with room finds a register, after any history. -/
theorem Reachable.exists_finds (built : catalog.Built)
    (reachable : Reachable catalog options allocator) (allowed : options.allStack = false)
    {stackBase : Nat} {done : List Interval} {interval : Interval} {state : ScanState}
    (room : catalog.HasRoom done interval)
    (placed : (allocator.state.reset stackBase).placeAll catalog options 0 done = .ok state) :
    ∃ state', state.place catalog options done.length interval = .ok state' ∧
      ScanState.Finds catalog interval state state' := by
  have corresponds := reachable.corresponds_placeAll built done stackBase
  rw [placed] at corresponds
  obtain ⟨scan, plain, inStep⟩ := corresponds.exists_of_ok
  have housed := PlainScan.housed_of_placeAll allowed plain
  obtain ⟨holder, rfl, candidate, held⟩ :=
    PlainScan.exists_hold built.wellFormed allowed housed room done.length
  have next : Corresponds _ _ _ (scan.place catalog options done.length holder.interval) :=
    inStep.place built.wellFormed
  rw [held] at next
  obtain ⟨state', step, inStep'⟩ := next.exists_of_ok_right
  refine ⟨state', step, ⟨holder.register, Catalog.offers_iff.mpr ⟨_, candidate⟩, ?_⟩, ?_, ?_, ?_⟩
  · rw [inStep'.books.assignment, inStep.books.assignment]
    rfl
  · rw [inStep'.books.spills, inStep.books.spills]
    rfl
  · rw [inStep'.books.evictions, inStep.books.evictions]
    rfl
  · rw [inStep'.books.cursor, inStep.books.cursor]
    rfl

/-- A run with room for all completes without a spill. -/
theorem Reachable.exists_inRegisters (built : catalog.Built)
    (reachable : Reachable catalog options allocator) (allowed : options.allStack = false)
    {intervals : List Interval} (sorted : intervals.Pairwise (·.start ≤ ·.start))
    (room : ∀ done interval, done ++ [interval] <+: intervals → catalog.HasRoom done interval)
    (stackBase : Nat) :
    ∃ run, allocator.runIntervals intervals stackBase = .ok run ∧
      run.allocation.InRegisters intervals stackBase := by
  obtain ⟨scan, plain, inRegisters⟩ :=
    PlainScan.exists_placeAll_of_room built.wellFormed allowed room stackBase
  have corresponds := (reachable.ready built.wellFormed).runIntervals built.wellFormed
    (sortedByStart_iff.mpr sorted) stackBase
  rw [plain] at corresponds
  obtain ⟨run, done, same, -⟩ := corresponds.exists_of_ok_right
  exact ⟨run, done, same ▸ inRegisters⟩

/-- **No spill below the pressure limit.**  An interval that has room when its turn comes gets a
register that is offered to it, and nobody is evicted.  If all intervals have room, the run
completes with everything in registers.  In long mode they have room as long as no more than
fourteen integers and pointers, sixteen values of single or double precision and eight of
extended precision are live where an interval starts. -/
theorem inRegisters_of_room (built : catalog.Built)
    (reachable : Reachable catalog options allocator) (allowed : options.allStack = false) :
    (∀ stackBase done interval state, catalog.HasRoom done interval →
      (allocator.state.reset stackBase).placeAll catalog options 0 done = .ok state →
      ∃ state', state.place catalog options done.length interval = .ok state' ∧
        ScanState.Finds catalog interval state state') ∧
    (∀ intervals stackBase, intervals.Pairwise (·.start ≤ ·.start) →
      (∀ done interval, done ++ [interval] <+: intervals → catalog.HasRoom done interval) →
      ∃ run, allocator.runIntervals intervals stackBase = .ok run ∧
        run.allocation.InRegisters intervals stackBase) ∧
    ∃ target longMode, X86.Mode.x86_64.toTarget = .ok target ∧
      Catalog.build target = .ok longMode ∧
      ∀ options allocator, options.allStack = false → Reachable longMode options allocator →
      ∀ intervals stackBase, intervals.Pairwise (·.start ≤ ·.start) →
      (∀ interval ∈ intervals, interval.start ≤ interval.stop ∧
        interval.size = interval.type.size ∧
        liveCount intervals .integer interval.start ≤ 14 ∧
        liveCount intervals .floating interval.start ≤ 16 ∧
        liveCount intervals .extended interval.start ≤ 8) →
      ∃ run, allocator.runIntervals intervals stackBase = .ok run ∧
        run.allocation.InRegisters intervals stackBase := by
  refine ⟨?_, ?_, ?_⟩
  · intro stackBase done interval state room placed
    exact reachable.exists_finds built allowed room placed
  · intro intervals stackBase sorted room
    exact reachable.exists_inRegisters built allowed sorted room stackBase
  · obtain ⟨target, longMode, made, built⟩ := TargetDecl.exists_catalog_x86_64
    refine ⟨target, longMode, made, built, ?_⟩
    intro options allocator allowed reachable intervals stackBase sorted light
    have declared := (X86.Mode.toTarget_eq_toTarget_decl X86.Mode.sound_x86_64).symm.trans made
    refine reachable.exists_inRegisters ⟨target, TargetDecl.toTarget_reachable declared, built⟩
      allowed sorted ?_ stackBase
    intro done interval beginning
    have member : interval ∈ intervals :=
      beginning.subset (List.mem_append_right _ (List.mem_singleton.mpr rfl))
    obtain ⟨ordered, natural, integers, floats, extended⟩ := light interval member
    refine TargetDecl.hasRoom_x86_64 made built natural ?_
    refine Nat.lt_of_lt_of_le (succ_countP_le_liveCount sorted ordered beginning) ?_
    cases interval.type.valueClass with
    | integer => exact integers
    | floating => exact floats
    | extended => exact extended

/-- A narrow value blocks a wide register all along, and two wide values take turns. -/
def takingTurns : List Interval :=
  [⟨⟨0⟩, 0, 9, 4, .i32⟩, ⟨⟨1⟩, 1, 4, 8, .i64⟩, ⟨⟨2⟩, 5, 8, 8, .i64⟩]

/-- As many values as long mode has room for, all live in the end. -/
def fullHouse : List Interval :=
  (List.range 14).map (fun number => ⟨⟨number⟩, number, 99, 8, .i64⟩)
    ++ (List.range 16).map (fun number => ⟨⟨14 + number⟩, 14 + number, 99, 8, .f64⟩)
    ++ (List.range 8).map (fun number => ⟨⟨30 + number⟩, 30 + number, 99, 10, .f80⟩)

/-- Two registers are enough for values that take turns, and all that long mode has for a full
house. -/
theorem inRegisters_of_room_fullHouse :
    (Catalog.small Entry.nested).Built ∧
      (∃ run, (ofCatalog (.small Entry.nested) {}).runIntervals takingTurns 16 = .ok run ∧
        run.allocation.InRegisters takingTurns 16) ∧
      ∃ target longMode, X86.Mode.x86_64.toTarget = .ok target ∧
        Catalog.build target = .ok longMode ∧
        ∃ run, (ofCatalog longMode {}).runIntervals fullHouse 16 = .ok run ∧
          run.allocation.InRegisters fullHouse 16 := by
  have spread : (Catalog.small Entry.nested).registers.Spread {⟨0⟩, ⟨2⟩} := by decide
  have room : ∀ done interval, done ++ [interval] <+: takingTurns →
      (Catalog.small Entry.nested).HasRoom done interval := by
    rintro done interval ⟨rest, whole⟩
    refine ⟨{⟨0⟩, ⟨2⟩}, spread, ?_⟩
    rcases done with _ | ⟨first, _ | ⟨second, _ | ⟨third, done⟩⟩⟩
    · obtain ⟨rfl, -⟩ := List.cons.inj whole
      decide
    · obtain ⟨rfl, tail⟩ := List.cons.inj whole
      obtain ⟨rfl, -⟩ := List.cons.inj tail
      decide
    · obtain ⟨rfl, tail⟩ := List.cons.inj whole
      obtain ⟨rfl, last⟩ := List.cons.inj tail
      obtain ⟨rfl, -⟩ := List.cons.inj last
      decide
    · have tooLong := congrArg List.length whole
      simp [takingTurns] at tooLong
  obtain ⟨-, inOrder, target, longMode, made, built, light⟩ := inRegisters_of_room
    Catalog.built_nested (.fresh : Reachable (.small Entry.nested) {} _) rfl
  exact ⟨Catalog.built_nested, inOrder takingTurns 16 (by decide) room, target, longMode, made,
    built, light {} (ofCatalog longMode {}) rfl .fresh fullHouse 16 (by decide +kernel)
      (by decide +kernel)⟩

end Allocator

end LinearScan
