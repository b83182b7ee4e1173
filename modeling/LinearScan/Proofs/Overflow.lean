import LinearScan.Proofs.Allocator
import LinearScan.Proofs.ConflictFree
import Mathlib.Algebra.BigOperators.Group.List.Basic
import Mathlib.Algebra.GroupWithZero.Nat
import Mathlib.Algebra.Order.BigOperators.Group.List
import Mathlib.Algebra.Order.Group.Nat

/-!
# A run fails only where the frame is full

Of all the faults that a run can meet, one can happen: a slot that does not fit below the largest
frame offset.  The plain scan knows no other, and a run over intervals has the faults of the plain
scan (`Reachable.ready`, `Ready.runIntervals`).  The pass that comes before it in a run over a
program has none at all (`Liveness.compute_eq`), and neither has the report that comes behind
(`runIntervals_eq_placeAll`).

When the frame is large enough for all values together, there is no fault at all.  The cursor
alone does not show it, because a value that was in a register may still come down to the stack
long after its interval was placed.  What is bounded is the *load* of a scan, which counts the
values in registers as if they had a slot (`PlainScan.load`): a step adds the size of its own
interval at most, and an eviction moves a value from one summand to the other.
-/

namespace LinearScan

namespace PlainScan

variable {catalog : Catalog} {options : Options} {scan scan' : PlainScan} {seq : Nat}
  {interval : Interval} {fault : Fault}

/-- Where the frame would end if all holders went to the stack. -/
def load (scan : PlainScan) : Nat :=
  scan.cursor + (scan.held.map (·.interval.size)).sum

theorem cursor_le_load (scan : PlainScan) : scan.cursor ≤ scan.load :=
  Nat.le_add_right _ _

/-- Expiry takes from the load. -/
theorem load_expire_le (scan : PlainScan) (position : Nat) :
    (scan.expire position).load ≤ scan.load := by
  have fewer : (scan.expire position).held.Sublist scan.held := List.filter_sublist
  refine Nat.add_le_add_left ((fewer.map _).sum_le_sum ?_) _
  exact fun _ _ => Nat.zero_le _

/-- A slot adds its size to the load. -/
theorem load_stacked (scan : PlainScan) (interval : Interval) :
    (scan.stacked interval).load = scan.load + interval.size := by
  simp only [load, stacked]
  omega

/-- A holder adds the size of its interval to the load. -/
theorem load_hold (scan : PlainScan) (holder : Held) :
    (scan.hold holder).load = scan.load + holder.interval.size := by
  simp only [load, hold, List.map_cons, List.sum_cons]
  omega

/-- A holder that leaves takes the size of its interval with it. -/
theorem load_release {victim : Held} (isHolder : victim ∈ scan.held) :
    (scan.release victim).load + victim.interval.size = scan.load := by
  have sum := List.sum_map_erase (·.interval.size) isHolder
  simp only [load, release]
  omega

/-- **One step** adds the size of its interval to the load, at most. -/
theorem load_step_le (step : Step catalog options scan seq interval scan') :
    scan'.load ≤ scan.load + interval.size := by
  have expired := scan.load_expire_le interval.start
  cases step with
  | allStack only room => exact Nat.le_of_eq (load_stacked scan interval)
  | placed allowed picked =>
    rw [load_hold]
    exact Nat.add_le_add_right expired _
  | spilled allowed blocked kept room =>
    rw [load_stacked]
    exact Nat.add_le_add_right expired _
  | @evicted _ _ victim yields room =>
    obtain ⟨-, latest, -, -⟩ := victim?_eq_some yields
    rw [load_hold, load_stacked, load_release (latest?_mem latest)]
    exact Nat.add_le_add_right expired _

/-- The stack refuses an interval only for want of room. -/
theorem toStack_eq_error (failed : scan.toStack interval = .error fault) :
    fault = .frameOverflow scan.cursor interval.size ∧
      maxFrame < scan.cursor + interval.size := by
  unfold toStack at failed
  split at failed
  · next full => exact ⟨(Except.error.inj failed).symm, full⟩
  · cases failed

/-- **A step that fails** has no room for a slot, and the load is too large by then. -/
theorem place_eq_error (failed : scan.place catalog options seq interval = .error fault) :
    (∃ size, fault = .frameOverflow scan.cursor size ∧ maxFrame < scan.cursor + size) ∧
      maxFrame < scan.load + interval.size := by
  -- Expiry frees registers but no slots, so the cursor is the same before and after it.
  have stack : ∀ other : PlainScan, other.cursor = scan.cursor →
      other.toStack interval = .error fault →
      (∃ size, fault = .frameOverflow scan.cursor size ∧ maxFrame < scan.cursor + size) ∧
        maxFrame < scan.load + interval.size := by
    intro other same failed
    obtain ⟨isOverflow, full⟩ := toStack_eq_error failed
    rw [same] at isOverflow full
    exact ⟨⟨_, isOverflow, full⟩,
      Nat.lt_of_lt_of_le full (Nat.add_le_add_right scan.cursor_le_load _)⟩
  unfold place at failed
  split at failed
  · exact stack scan rfl failed
  · dsimp only at failed
    split at failed
    · cases failed
    · split at failed
      · next victim yields =>
        obtain ⟨-, latest, -, -⟩ := victim?_eq_some yields
        have released := load_release (latest?_mem latest)
        have expired := scan.load_expire_le interval.start
        cases onStack : ((scan.expire interval.start).release victim).toStack victim.interval with
        | ok middle =>
          rw [onStack] at failed
          cases failed
        | error fault' =>
          rw [onStack] at failed
          obtain rfl : fault' = fault := Except.error.inj failed
          obtain ⟨isOverflow, full⟩ := toStack_eq_error onStack
          have cursor := ((scan.expire interval.start).release victim).cursor_le_load
          exact ⟨⟨_, isOverflow, full⟩, by omega⟩
      · exact stack (scan.expire interval.start) rfl failed

/-- **A run that fails** has no room for a slot. -/
theorem placeAll_eq_error (intervals : List Interval) :
    ∀ {scan : PlainScan} {seq : Nat}, scan.placeAll catalog options seq intervals = .error fault →
      ∃ cursor size, fault = .frameOverflow cursor size ∧ maxFrame < cursor + size := by
  induction intervals with
  | nil =>
    intro scan seq failed
    cases failed
  | cons interval rest ih =>
    intro scan seq failed
    rw [placeAll] at failed
    cases placed : scan.place catalog options seq interval with
    | error fault' =>
      rw [placed] at failed
      obtain rfl : fault' = fault := Except.error.inj failed
      obtain ⟨⟨size, isOverflow, full⟩, -⟩ := place_eq_error placed
      exact ⟨_, size, isOverflow, full⟩
    | ok scan' =>
      rw [placed] at failed
      exact ih failed

/-- **A run with room for all** completes. -/
theorem exists_placeAll (intervals : List Interval) :
    ∀ (scan : PlainScan) (seq : Nat), scan.load + (intervals.map Interval.size).sum ≤ maxFrame →
      ∃ scan', scan.placeAll catalog options seq intervals = .ok scan' := by
  induction intervals with
  | nil => exact fun scan _ _ => ⟨scan, rfl⟩
  | cons interval rest ih =>
    intro scan seq room
    rw [List.map_cons, List.sum_cons] at room
    cases placed : scan.place catalog options seq interval with
    | error fault =>
      obtain ⟨-, full⟩ := place_eq_error placed
      omega
    | ok middle =>
      have grown := load_step_le (step_of_place placed)
      obtain ⟨scan', others⟩ := ih middle (seq + 1) (by omega)
      refine ⟨scan', ?_⟩
      rw [placeAll, placed]
      exact others

end PlainScan

namespace Allocator

variable {catalog : Catalog} {options : Options} {allocator : Allocator}
  {intervals : List Interval} {stackBase : Nat}

/-- **A run that can only run out of frame**: a fault is a slot that does not fit, and where there
is room for all intervals there is no fault. -/
structure OverflowOnly (intervals : List Interval) (stackBase : Nat)
    (run : Except Halt CompletedRun) : Prop where
  overflow : ∀ halt, run = .error halt →
    ∃ cursor size, halt.fault = .frameOverflow cursor size ∧ maxFrame < cursor + size
  completes : stackBase + (intervals.map Interval.size).sum ≤ maxFrame →
    ∃ completed, run = .ok completed

/-- A run over sorted intervals can only run out of frame. -/
theorem Reachable.overflowOnly_runIntervals (built : catalog.Built)
    (reachable : Reachable catalog options allocator)
    (sorted : intervals.Pairwise (·.start ≤ ·.start)) (stackBase : Nat) :
    OverflowOnly intervals stackBase (allocator.runIntervals intervals stackBase) := by
  have corresponds := (reachable.ready built.wellFormed).runIntervals built.wellFormed
    (sortedByStart_iff.mpr sorted) stackBase
  refine ⟨?_, ?_⟩
  · intro halt failed
    rw [failed] at corresponds
    cases plain : (PlainScan.start stackBase).placeAll catalog options 0 intervals with
    | ok scan =>
      rw [plain] at corresponds
      exact corresponds.elim
    | error fault =>
      rw [plain] at corresponds
      rw [show halt.fault = fault from corresponds]
      exact PlainScan.placeAll_eq_error intervals plain
  · intro room
    obtain ⟨scan, plain⟩ :
        ∃ scan, (PlainScan.start stackBase).placeAll catalog options 0 intervals = .ok scan :=
      PlainScan.exists_placeAll intervals (PlainScan.start stackBase) 0 room
    rw [plain] at corresponds
    cases completed : allocator.runIntervals intervals stackBase with
    | ok run => exact ⟨run, rfl⟩
    | error halt =>
      rw [completed] at corresponds
      exact corresponds.elim

/-- A run does not run out of frame. -/
def FitsFrame (outcome : Except Halt CompletedRun) : Prop :=
  ∀ halt cursor size, outcome = .error halt → halt.fault ≠ .frameOverflow cursor size

theorem fitsFrame_of_ok {outcome : Except Halt CompletedRun} {run : CompletedRun}
    (done : outcome = .ok run) : FitsFrame outcome := by
  intro halt cursor size failed
  cases done.symm.trans failed

/-- A run over sorted intervals that does not run out of frame completes. -/
theorem Reachable.exists_of_fitsFrame (built : catalog.Built)
    (reachable : Reachable catalog options allocator)
    (sorted : intervals.Pairwise (·.start ≤ ·.start))
    (fits : FitsFrame (allocator.runIntervals intervals stackBase)) :
    ∃ run, allocator.runIntervals intervals stackBase = .ok run := by
  cases completed : allocator.runIntervals intervals stackBase with
  | ok run => exact ⟨run, rfl⟩
  | error halt =>
    obtain ⟨cursor, size, isOverflow, -⟩ :=
      (reachable.overflowOnly_runIntervals built sorted stackBase).overflow halt completed
    exact absurd isOverflow (fits halt cursor size completed)

/-- A run over a program can only run out of frame. -/
theorem Reachable.overflowOnly_runFrom (built : catalog.Built)
    (reachable : Reachable catalog options allocator) (operations : List Operation)
    (stackBase : Nat) :
    OverflowOnly (Liveness.ofOperations operations).intervals stackBase
      (allocator.runFrom operations stackBase) := by
  have inner := reachable.overflowOnly_runIntervals built (Liveness.pairwise_start operations)
    stackBase
  refine ⟨?_, ?_⟩
  · intro halt failed
    rw [runFrom_eq] at failed
    cases completed : allocator.runIntervals (Liveness.ofOperations operations).intervals
        stackBase with
    | ok run =>
      rw [completed] at failed
      cases failed
    | error halt' =>
      rw [completed] at failed
      obtain rfl := Except.error.inj failed
      exact inner.overflow halt' completed
  · intro room
    obtain ⟨run, completed⟩ := inner.completes room
    rw [runFrom_eq, completed]
    exact ⟨_, rfl⟩

/-- **Freedom from faults.**  On the catalog of any target, whatever the options, the frame and
the program, the pass over the program finds every interval and every temp that it looks up and
makes no reversed interval; and the run meets no unsorted interval, hands no register back twice,
and looks for no bank or register that is not there.  Only the frame may overflow, and it does not
if it has room for all values.  The same holds for sorted intervals, in which temps may come up
again. -/
theorem overflowOnly_of_reachable (built : catalog.Built)
    (reachable : Reachable catalog options allocator) :
    (∀ operations stackBase, ∃ liveness, Liveness.compute operations = .ok liveness ∧
      OverflowOnly liveness.intervals stackBase (allocator.runFrom operations stackBase)) ∧
    (∀ operations, ∃ liveness, Liveness.compute operations = .ok liveness ∧
      OverflowOnly liveness.intervals allocator.options.stackBase (allocator.run operations)) ∧
    (∀ intervals stackBase, intervals.Pairwise (·.start ≤ ·.start) →
      OverflowOnly intervals stackBase (allocator.runIntervals intervals stackBase)) := by
  refine ⟨?_, ?_, ?_⟩
  · exact fun operations stackBase => ⟨_, Liveness.compute_eq operations,
      reachable.overflowOnly_runFrom built operations stackBase⟩
  · exact fun operations => ⟨_, Liveness.compute_eq operations,
      reachable.overflowOnly_runFrom built operations _⟩
  · exact fun intervals stackBase sorted =>
      reachable.overflowOnly_runIntervals built sorted stackBase

/-- One temp three times, twice at once. -/
def repeated : List Interval :=
  [⟨⟨0⟩, 0, 9, 8, .i64⟩, ⟨⟨0⟩, 1, 8, 8, .i64⟩, ⟨⟨0⟩, 2, 7, 8, .i64⟩]

/-- A temp that is used and freed again behind its free marker. -/
def freedAgain : List Operation :=
  let temp : Temp := .ofType ⟨0⟩ .i64
  [⟨[], some temp, none⟩, ⟨[], none, some temp⟩, ⟨[temp], none, some temp⟩]

/-- Two of the three are in registers; the third evicts the first, for which there is just room,
and none is left if the frame begins one byte later.  A pass that looks up a temp after it was
freed finds its interval. -/
theorem overflowOnly_repeated :
    (Catalog.small Entry.nested).Built ∧ repeated.Pairwise (·.start ≤ ·.start) ∧
      (∃ liveness, Liveness.compute freedAgain = .ok liveness ∧
        OverflowOnly liveness.intervals 0
          ((ofCatalog (.small Entry.nested) {}).runFrom freedAgain 0)) ∧
      OverflowOnly repeated (maxFrame - 24)
        ((ofCatalog (.small Entry.nested) {}).runIntervals repeated (maxFrame - 24)) ∧
      (∃ run, (ofCatalog (.small Entry.nested) {}).runIntervals repeated (maxFrame - 8) = .ok run) ∧
      ∃ halt, (ofCatalog (.small Entry.nested) {}).runIntervals repeated (maxFrame - 7)
        = .error halt := by
  have sorted : repeated.Pairwise (·.start ≤ ·.start) := by decide
  obtain ⟨programs, -, intervals⟩ := overflowOnly_of_reachable Catalog.built_nested .fresh
  exact ⟨Catalog.built_nested, sorted, programs freedAgain 0, intervals repeated _ sorted,
    ⟨_, rfl⟩, ⟨_, rfl⟩⟩

end Allocator

end LinearScan
