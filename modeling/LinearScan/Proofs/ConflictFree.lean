import LinearScan.Proofs.Allocator
import LinearScan.Proofs.Liveness
import LinearScan.Proofs.Plain.Storage

/-!
# Completed runs are free of conflicts

The invariant of the plain scan (`PlainScan.Sound`) carries over to allocators, since an
allocator's result is that of a plain scan.  For intervals from outside, distinct temps are
a condition; for programs, liveness sees to it.

That the intervals are sorted is nowhere assumed: a run that completes has checked it.
-/

namespace LinearScan

/-- Temps whose intervals overlap have registers that share no storage. -/
def RegistersApart (file : RegisterFile) (intervals : List Interval) (assignment : Assignment) :
    Prop :=
  ∀ a ∈ intervals, ∀ b ∈ intervals, a.temp ≠ b.temp → a.overlaps b = true →
    ∀ register register', assignment.get? a.temp = some (.register register) →
      assignment.get? b.temp = some (.register register') →
      file.intersects register register' = false

/-- Registers are one of the two kinds of place. -/
theorem ConflictFree.registersApart {file : RegisterFile} {intervals : List Interval}
    {assignment : Assignment} (free : ConflictFree file intervals assignment) :
    RegistersApart file intervals assignment := by
  intro a memberA b memberB differ overlap register register' atA atB
  exact free a memberA b memberB differ overlap _ _ atA atB

namespace Allocator

variable {catalog : Catalog} {options : Options} {allocator : Allocator}
  {intervals : List Interval} {operations : List Operation} {stackBase : Nat}
  {run : CompletedRun}

/-- A completed run over intervals leaves a sound scan behind. -/
theorem Reachable.sound (built : catalog.Built) (reachable : Reachable catalog options allocator)
    (distinct : (intervals.map Interval.temp).Nodup)
    (done : allocator.runIntervals intervals stackBase = .ok run) :
    ∃ scan position, PlainScan.Sound catalog.registers intervals position scan ∧
      scan.assignment = run.allocation.assignment := by
  obtain ⟨scan, placed, same⟩ := reachable.exists_scan built done
  have sorted := sortedByStart_iff.mp (sorted_of_runIntervals done)
  obtain ⟨position, sound⟩ :=
    PlainScan.sound_of_placeAll built.wellFormed sorted distinct placed
  refine ⟨scan, position, sound, ?_⟩
  rw [same]
  rfl

/-- A run over a program is a run over its intervals. -/
theorem exists_runIntervals (done : allocator.runFrom operations stackBase = .ok run) :
    ∃ inner, allocator.runIntervals (Liveness.ofOperations operations).intervals stackBase
        = .ok inner ∧ inner.allocation.assignment = run.allocation.assignment := by
  rw [runFrom_eq] at done
  obtain ⟨inner, completed, rfl⟩ := exists_of_report done
  exact ⟨inner, completed, rfl⟩

/-- A completed run over a program leaves a sound scan of its intervals behind. -/
theorem Reachable.sound_runFrom (built : catalog.Built)
    (reachable : Reachable catalog options allocator)
    (done : allocator.runFrom operations stackBase = .ok run) :
    ∃ scan position,
      PlainScan.Sound catalog.registers (Liveness.ofOperations operations).intervals position
        scan ∧ scan.assignment = run.allocation.assignment := by
  obtain ⟨inner, completed, same⟩ := exists_runIntervals done
  rw [← same]
  exact reachable.sound built (Liveness.nodup_intervals operations) completed

/-- **No storage conflict.**  In every completed run, temps that are live at one position have
registers that share no storage. -/
theorem registersApart_of_reachable (built : catalog.Built)
    (reachable : Reachable catalog options allocator) :
    (∀ operations stackBase run, allocator.runFrom operations stackBase = .ok run →
      RegistersApart catalog.registers (Liveness.ofOperations operations).intervals
        run.allocation.assignment) ∧
    (∀ operations run, allocator.run operations = .ok run →
      RegistersApart catalog.registers (Liveness.ofOperations operations).intervals
        run.allocation.assignment) ∧
    (∀ intervals stackBase run, (intervals.map Interval.temp).Nodup →
      allocator.runIntervals intervals stackBase = .ok run →
      RegistersApart catalog.registers intervals run.allocation.assignment) := by
  have ofProgram : ∀ operations stackBase run, allocator.runFrom operations stackBase = .ok run →
      RegistersApart catalog.registers (Liveness.ofOperations operations).intervals
        run.allocation.assignment := by
    intro operations stackBase run done
    obtain ⟨scan, position, sound, same⟩ := reachable.sound_runFrom built done
    rw [← same]
    exact sound.conflictFree.registersApart
  refine ⟨ofProgram, fun operations run done => ofProgram operations _ run done, ?_⟩
  intro intervals stackBase run distinct done
  obtain ⟨scan, position, sound, same⟩ := reachable.sound built distinct done
  rw [← same]
  exact sound.conflictFree.registersApart

/-- A narrow value that is alive while a wide one comes in. -/
def crossing : List Operation :=
  let narrow : Temp := .ofType ⟨0⟩ .i32
  let wide : Temp := .ofType ⟨1⟩ .i64
  [⟨[], some narrow, none⟩, ⟨[narrow], some wide, none⟩, ⟨[], none, some narrow⟩,
    ⟨[wide], none, none⟩]

/-- The narrow value is in a part of the first wide register, so the wide one gets the
second. -/
theorem registersApart_crossing :
    (Catalog.small Entry.nested).Built ∧
      ∃ run, (ofCatalog (.small Entry.nested) {}).runFrom crossing 16 = .ok run ∧
        run.allocation.assignment.get? ⟨0⟩ = some (.register ⟨1⟩) ∧
        run.allocation.assignment.get? ⟨1⟩ = some (.register ⟨2⟩) ∧
        (Catalog.small Entry.nested).registers.intersects ⟨1⟩ ⟨2⟩ = false := by
  have intervals : (Liveness.ofOperations crossing).intervals
      = [⟨⟨0⟩, 0, 2, 4, .i32⟩, ⟨⟨1⟩, 1, 3, 8, .i64⟩] := by
    rw [Liveness.intervals_eq]
    rfl
  obtain ⟨run, done, narrow, wide⟩ :
      ∃ run, (ofCatalog (.small Entry.nested) {}).runFrom crossing 16 = .ok run ∧
        run.allocation.assignment.get? ⟨0⟩ = some (.register ⟨1⟩) ∧
        run.allocation.assignment.get? ⟨1⟩ = some (.register ⟨2⟩) := by
    rw [runFrom_eq, intervals]
    exact ⟨_, rfl, rfl, rfl⟩
  have apart := (registersApart_of_reachable Catalog.built_nested .fresh).1 crossing 16 run done
  rw [intervals] at apart
  exact ⟨Catalog.built_nested, run, done, narrow, wide,
    apart _ List.mem_cons_self _ (List.mem_cons_of_mem _ List.mem_cons_self) (by decide)
      (by decide) _ _ narrow wide⟩

end Allocator

end LinearScan
