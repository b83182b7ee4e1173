import LinearScan.Proofs.Liveness.Lifetimes
import LinearScan.Proofs.Scan.Ledger

/-!
# Allocators and the plain scan

An allocator is used again and again, and each run starts from the flags that the last one
left behind.  `Allocator.Reachable` holds of the allocators that come about this way, and
`Allocator.Reachable.reset_eq` is what makes the history irrelevant: resetting the state of
such an allocator gives the state of a fresh one.

With that, the simulation of `ScanState.Refines.placeAll` says what a run returns
(`Allocator.outcome_runIntervals`): the allocation of the plain scan, or its fault.

Whatever the allocator, once all intervals are placed there is a result
(`Allocator.runIntervals_eq_placeAll`), and a program has one if its intervals have
(`Allocator.runFrom_eq`).
-/

namespace LinearScan

open Outcome

/-- Intervals pass as sorted exactly if no start is before an earlier one. -/
theorem sortedByStart_iff {intervals : List Interval} :
    sortedByStart intervals = true ↔ intervals.Pairwise (·.start ≤ ·.start) := by
  induction intervals with
  | nil => simp [sortedByStart]
  | cons first rest ih =>
    cases rest with
    | nil => simp [sortedByStart]
    | cons second others =>
      rw [sortedByStart, Bool.and_eq_true, decide_eq_true_iff, ih,
        List.pairwise_cons (a := first)]
      constructor
      · rintro ⟨step, sorted⟩
        refine ⟨List.forall_mem_cons.mpr ⟨step, ?_⟩, sorted⟩
        intro interval member
        exact Nat.le_trans step (List.rel_of_pairwise_cons sorted member)
      · rintro ⟨least, sorted⟩
        exact ⟨least second List.mem_cons_self, sorted⟩

/-- The flags of a scan are reset to those of a fresh one. -/
theorem Supplies.reset_eq {catalog : Catalog} {state : ScanState} {holders : List Held}
    (supplies : Supplies catalog state.suppliers holders) (stackBase : Nat) :
    state.reset stackBase = .start catalog stackBase := by
  have suppliers : state.suppliers.map (fun row => row.map Supplier.reset)
      = catalog.classes.map fun sizeClass => sizeClass.banks.map Supplier.ofBank := by
    calc state.suppliers.map (fun row => row.map Supplier.reset)
      _ = (state.suppliers.map (·.map Supplier.bank)).map (·.map Supplier.ofBank) := by
        rw [List.map_map]
        refine List.map_congr_left fun row _ => ?_
        rw [Function.comp_apply, List.map_map]
        exact List.map_congr_left fun supplier _ => supplier.reset_eq
      _ = catalog.classes.map fun sizeClass => sizeClass.banks.map Supplier.ofBank := by
        rw [supplies.layout, List.map_map]
        rfl
  rw [ScanState.reset, suppliers]
  rfl

namespace Allocator

variable {catalog : Catalog} {options : Options} {allocator : Allocator}
  {intervals : List Interval} {stackBase : Nat} {run : CompletedRun}

/-- The allocators over a catalog: a fresh one, and what a completed run leaves behind. -/
inductive Reachable (catalog : Catalog) (options : Options) : Allocator → Prop where
  | fresh : Reachable catalog options (.ofCatalog catalog options)
  | ran {allocator : Allocator} {intervals : List Interval} {stackBase : Nat}
      {run : CompletedRun} (before : Reachable catalog options allocator)
      (done : allocator.runIntervals intervals stackBase = .ok run) :
      Reachable catalog options run.allocator

/-- What every run relies on and leaves behind: the flags agree with some holders. -/
def Ready (catalog : Catalog) (options : Options) (allocator : Allocator) : Prop :=
  allocator.catalog = catalog ∧ allocator.options = options ∧
    ∃ holders, Supplies catalog allocator.state.suppliers holders

/-- **All that can fail is placing the intervals**: where they are placed, there is a result. -/
theorem runIntervals_eq_placeAll (allocator : Allocator) (intervals : List Interval)
    (stackBase : Nat) :
    allocator.runIntervals intervals stackBase =
      if !sortedByStart intervals then .error ⟨.unsortedIntervals, #[]⟩
      else do
        let state ← (allocator.state.reset stackBase).placeAll allocator.catalog
          allocator.options 0 intervals
        return { allocation := state.result allocator.catalog.registers
                 events := state.events.push state.finishedEvent
                 allocator := { allocator with state } } := by
  rw [runIntervals]
  split
  · rfl
  · cases placed : (allocator.state.reset stackBase).placeAll allocator.catalog
        allocator.options 0 intervals with
    | error halt => rfl
    | ok state =>
      show (do
        let calleeSaved ← state.guard (state.calleeSaved allocator.catalog.registers)
        pure _) = _
      rw [ScanState.calleeSaved_eq (ScanState.allNamed_of_placeAll _ placed)]
      rfl

/-- **A program is allocated by allocating its intervals.** -/
theorem runFrom_eq (allocator : Allocator) (operations : List Operation) (stackBase : Nat) :
    allocator.runFrom operations stackBase = report (Liveness.ofOperations operations)
      (allocator.runIntervals (Liveness.ofOperations operations).intervals stackBase) := by
  rw [runFrom, Liveness.compute_eq]
  rfl

/-- A program has a result only if its intervals have one; all that is added are the temps that
are never freed, and the records of the pass over the program. -/
theorem exists_of_report {liveness : Liveness} {outcome : Except Halt CompletedRun}
    (done : report liveness outcome = .ok run) :
    ∃ inner, outcome = .ok inner ∧ run =
      { inner with
        allocation := { inner.allocation with
          diagnostics :=
            if liveness.unfreed.isEmpty then [] else [.unfreedTemps liveness.unfreed] }
        events := liveness.events ++ inner.events } := by
  cases outcome with
  | error halt => cases done
  | ok inner => exact ⟨inner, rfl, (Except.ok.inj done).symm⟩

/-- Intervals that are out of order are refused. -/
theorem sorted_of_runIntervals (done : allocator.runIntervals intervals stackBase = .ok run) :
    sortedByStart intervals = true := by
  rw [runIntervals] at done
  split at done
  · cases done
  · rename_i sorted
    simpa using sorted

/-- A run does what the plain scan does, and leaves an allocator that is ready again. -/
theorem Ready.runIntervals (wellFormed : catalog.WellFormed)
    (ready : Ready catalog options allocator) (sorted : sortedByStart intervals = true)
    (stackBase : Nat) :
    Corresponds
      (fun run scan => run.allocation = scan.allocation catalog.registers ∧
        Ready catalog options run.allocator)
      (fun halt fault => halt.fault = fault)
      (allocator.runIntervals intervals stackBase)
      ((PlainScan.start stackBase).placeAll catalog options 0 intervals) := by
  obtain ⟨rfl, rfl, holders, supplies⟩ := ready
  rw [runIntervals_eq_placeAll, sorted, supplies.reset_eq, ← bind_pure (PlainScan.placeAll ..)]
  -- With the flags reset, the history is gone and both scans are at their start.
  refine Corresponds.bind
    (ScanState.Refines.placeAll wellFormed intervals 0 _ _
      (ScanState.refines_start wellFormed stackBase)) ?_
  intro state scan refines
  exact ⟨refines.books.result_eq _, rfl, rfl, _, refines.supplies⟩

/-- Every run finds the allocator ready. -/
theorem Reachable.ready (wellFormed : catalog.WellFormed)
    (reachable : Reachable catalog options allocator) : Ready catalog options allocator := by
  induction reachable with
  | fresh => exact ⟨rfl, rfl, _, Supplies.start wellFormed options.stackBase⟩
  | @ran allocator intervals stackBase run before done ih =>
    have corresponds := ih.runIntervals wellFormed (sorted_of_runIntervals done) stackBase
    rw [done] at corresponds
    obtain ⟨scan, -, -, ready⟩ := corresponds.exists_of_ok
    exact ready

/-- **The history is reset**: the state in which a run starts is that of a fresh allocator. -/
theorem Reachable.reset_eq (built : catalog.Built)
    (reachable : Reachable catalog options allocator) (stackBase : Nat) :
    allocator.state.reset stackBase = .start catalog stackBase := by
  obtain ⟨-, -, holders, supplies⟩ := reachable.ready built.wellFormed
  exact supplies.reset_eq stackBase

/-- At any point of a run, the scan is in step with the plain scan. -/
theorem Reachable.corresponds_placeAll (built : catalog.Built)
    (reachable : Reachable catalog options allocator) (done : List Interval) (stackBase : Nat) :
    Corresponds (ScanState.Refines catalog done.length) (fun halt fault => halt.fault = fault)
      ((allocator.state.reset stackBase).placeAll catalog options 0 done)
      ((PlainScan.start stackBase).placeAll catalog options 0 done) := by
  rw [reachable.reset_eq built, ← Nat.zero_add done.length]
  exact ScanState.Refines.placeAll built.wellFormed done 0 _ _
    (ScanState.refines_start built.wellFormed stackBase)

/-- The allocation of a completed run is that of a plain scan. -/
theorem Reachable.exists_scan (built : catalog.Built)
    (reachable : Reachable catalog options allocator)
    (done : allocator.runIntervals intervals stackBase = .ok run) :
    ∃ scan, (PlainScan.start stackBase).placeAll catalog options 0 intervals = .ok scan ∧
      run.allocation = scan.allocation catalog.registers := by
  have corresponds := (reachable.ready built.wellFormed).runIntervals built.wellFormed
    (sorted_of_runIntervals done) stackBase
  rw [done] at corresponds
  obtain ⟨scan, placed, same, -⟩ := corresponds.exists_of_ok
  exact ⟨scan, placed, same⟩

/-- **A run returns what the plain scan returns**: the same allocation, or the same fault.
Free flags, size classes, the sorted active set and the log leave no trace in the result,
and neither do the runs before. -/
theorem outcome_runIntervals (built : catalog.Built)
    (reachable : Reachable catalog options allocator)
    (sorted : intervals.Pairwise (·.start ≤ ·.start)) :
    ((allocator.runIntervals intervals stackBase).map CompletedRun.allocation).mapError Halt.fault
      = PlainScan.run catalog options intervals stackBase := by
  have corresponds := (reachable.ready built.wellFormed).runIntervals built.wellFormed
    (sortedByStart_iff.mpr sorted) stackBase
  rw [PlainScan.run]
  generalize allocator.runIntervals intervals stackBase = result at corresponds
  generalize (PlainScan.start stackBase).placeAll catalog options 0 intervals = plain
    at corresponds
  cases result with
  | error halt =>
    cases plain with
    | error fault => exact congrArg Except.error corresponds
    | ok scan => exact corresponds.elim
  | ok run =>
    cases plain with
    | error fault => exact corresponds.elim
    | ok scan => exact congrArg Except.ok corresponds.1

end Allocator

/-! ## Two registers and a part of one -/

/-- Two registers of eight bytes, the first of which shares storage with one of four. -/
def RegisterBuilder.small : RegisterBuilder :=
  (((empty.add "r0" 8 .integer false).add "h0" 4 .integer false).add "r1" 8 .integer true).link
    ⟨0⟩ ⟨1⟩

theorem RegisterBuilder.reachable_small : RegisterBuilder.small.Reachable := by
  have declared := Reachable.addAll_empty [("r0", 8, false), ("h0", 4, false), ("r1", 8, true)]
    (by decide) (by decide) (by decide)
  exact declared.link (by decide) (by decide)

namespace Catalog

/-- The catalog of a target that serves the three registers as the entries say. -/
def small (entries : List Entry) : Catalog :=
  filled ⟨"small", .ofBuilder .small, entries⟩

/-- Entries that fit the three registers make a catalog. -/
theorem built_small {entries : List Entry}
    (checked : entries.forM (Entry.check "small" (.ofBuilder .small)) = .ok ())
    (served : (Catalog.small entries).classes.all (·.banks.all (·.registers.isEmpty)) = false) :
    (Catalog.small entries).Built := by
  have made : Target.make "small" (.ofBuilder .small) entries
      = .ok ⟨"small", .ofBuilder .small, entries⟩ := by
    rw [Target.make, checked]
    rfl
  exact ⟨_, .make (.build RegisterBuilder.reachable_small) made, build_of_served served⟩

end Catalog

/-- Each register serves its own size, and the first also that of its part. -/
def Entry.nested : List Entry :=
  [⟨⟨1⟩, [4], .integer⟩, ⟨⟨0⟩, [4, 8], .integer⟩, ⟨⟨2⟩, [8], .integer⟩]

theorem Catalog.built_nested : (Catalog.small Entry.nested).Built :=
  built_small rfl rfl

namespace Allocator

/-- Four intervals that are live together. -/
def busy : List Interval :=
  [⟨⟨0⟩, 0, 9, 4, .i32⟩, ⟨⟨1⟩, 1, 4, 8, .i64⟩, ⟨⟨2⟩, 2, 5, 8, .i64⟩, ⟨⟨3⟩, 3, 4, 4, .i32⟩]

/-- An allocator that was used before returns what the plain scan returns, which here evicts the
narrow value that lives longest. -/
theorem outcome_runIntervals_busy :
    (Catalog.small Entry.nested).Built ∧ busy.Pairwise (·.start ≤ ·.start) ∧
      ∃ run, (ofCatalog (.small Entry.nested) {}).runIntervals busy 0 = .ok run ∧
        ((run.allocator.runIntervals busy 16).map CompletedRun.allocation).mapError Halt.fault
          = PlainScan.run (.small Entry.nested) {} busy 16 ∧
        (PlainScan.run (.small Entry.nested) {} busy 16).map
            (fun allocation => (allocation.spills, allocation.evictions, allocation.frameSize))
          = .ok (2, 1, 28) := by
  have sorted : busy.Pairwise (·.start ≤ ·.start) := by decide
  obtain ⟨run, done⟩ :
      ∃ run, (ofCatalog (.small Entry.nested) {}).runIntervals busy 0 = .ok run := ⟨_, rfl⟩
  exact ⟨Catalog.built_nested, sorted, run, done,
    outcome_runIntervals Catalog.built_nested (.ran .fresh done) sorted, rfl⟩

end Allocator

end LinearScan
