import LinearScan.Proofs.ConflictFree
import LinearScan.Proofs.Liveness.Warnings

/-!
# The frame has no gaps

What a completed run reports is consistent: every temp has one place, the slots of the temps on
the stack lie side by side between the two ends of the spill area, and the counters count what
their names say.  `Allocation.Balanced` collects this.  Slots are read off the log of the run, so
their order is the order in which values were spilled.

The ledger of the scan (`ScanState.Ledger`) speaks of single temps.  To turn that into a count,
both the slots and the stack entries of the assignment are lists without repetition that hold
the same pairs, so one is a permutation of the other.
-/

namespace LinearScan

/-- **A result whose accounts balance**, for the temps given as a predicate, and with the slots
in the order in which they were given out. -/
structure Allocation.Balanced (options : Options) (intervals : List Interval)
    (temps : TempId → Prop) (stackBase : Nat) (slots : List Slot) (allocation : Allocation) :
    Prop where
  /-- Each temp has one place. -/
  single : (allocation.assignment.entries.map Prod.fst).Nodup
  covers : ∀ temp, temp ∈ allocation.assignment.entries.map Prod.fst ↔ temps temp
  base : allocation.stackBase = stackBase
  /-- A slot has the size of an interval of the run. -/
  owned : ∀ slot ∈ slots, slot.interval ∈ intervals
  /-- The slots are those of the temps on the stack, one for each. -/
  settled : (slots.map Slot.entry).Perm allocation.assignment.onStack
  tiled : Slot.Tile stackBase slots allocation.frameSize
  frameSize : allocation.frameSize = stackBase + (slots.map (·.interval.size)).sum
  spills : allocation.spills = allocation.assignment.onStack.length
  evictions : allocation.evictions ≤ allocation.spills
  /-- Nobody is evicted where that is turned off, or where registers are out of use. -/
  quiet : options.eviction = false ∨ options.allStack = true → allocation.evictions = 0

namespace ScanState

variable {options : Options} {stackBase : Nat} {intervals : List Interval} {state : ScanState}

/-- Slots and stack entries are the same pairs. -/
theorem Ledger.settled (ledger : Ledger options stackBase intervals state) :
    ((slots state.events).map Slot.entry).Perm state.assignment.onStack := by
  have nodup : ((slots state.events).map Slot.entry).Nodup := by
    refine List.Nodup.of_map Prod.fst ?_
    rw [List.map_map]
    exact ledger.distinct
  refine (List.perm_ext_iff_of_nodup nodup ledger.ascending.nodup_onStack).mpr ?_
  rintro ⟨temp, offset⟩
  rw [List.mem_map, ledger.ascending.mem_onStack, ledger.onStack]

/-- The temps of the list of places are those of the intervals. -/
theorem Ledger.mem_temps (ledger : Ledger options stackBase intervals state) (temp : TempId) :
    temp ∈ state.assignment.entries.map Prod.fst ↔ temp ∈ intervals.map Interval.temp := by
  rw [List.mem_map (f := Interval.temp), ← ledger.covered temp, Option.ne_none_iff_exists']
  simp only [ledger.ascending.get?_eq_some_iff]
  simp

/-- **A ledger that is in order makes a result whose accounts balance.** -/
theorem Ledger.balanced (ledger : Ledger options stackBase intervals state) (file : RegisterFile) :
    (state.result file).Balanced options intervals (· ∈ intervals.map Interval.temp) stackBase
      (slots state.events) where
  single := ledger.ascending.nodup_temps
  covers := ledger.mem_temps
  base := ledger.base
  owned := ledger.owned
  settled := ledger.settled
  tiled := ledger.tiled
  frameSize := ledger.tiled.last_eq
  spills := by
    show state.spills = state.assignment.onStack.length
    rw [ledger.spills, ← ledger.settled.length_eq, List.length_map]
  evictions := ledger.evictions
  quiet := ledger.quiet

end ScanState

/-- The records of liveness are about no slots. -/
theorem Liveness.slots_events (operations : List Operation) :
    slots (ofOperations operations).events = [] := by
  rw [slots, events_eq, List.filterMap_eq_nil_iff]
  intro event member
  rcases List.mem_append.mp member with warning | last
  · obtain ⟨⟨operation, position⟩, -, warned⟩ := List.mem_flatMap.mp warning
    rcases List.mem_append.mp warned with late | again
    · obtain ⟨temp, -, rfl⟩ := List.mem_map.mp late
      rfl
    · obtain ⟨temp, -, rfl⟩ := List.mem_map.mp again
      rfl
  · unfold unfreedRecord at last
    split at last
    · cases last
    · obtain rfl := List.mem_singleton.mp last
      rfl

namespace Allocator

variable {allocator : Allocator} {stackBase : Nat} {run : CompletedRun}

/-- The accounts of a run over intervals. -/
theorem balanced_runIntervals {intervals : List Interval}
    (distinct : (intervals.map Interval.temp).Nodup)
    (done : allocator.runIntervals intervals stackBase = .ok run) :
    run.allocation.Balanced allocator.options intervals (· ∈ intervals.map Interval.temp) stackBase
      (slots run.events) := by
  rw [runIntervals_eq_placeAll] at done
  split at done
  · cases done
  · obtain ⟨state, placed, done⟩ := Outcome.bind_eq_ok.mp done
    obtain rfl := Outcome.pure_eq_ok.mp done
    have balanced := (ScanState.ledger_of_placeAll distinct _ placed).balanced
      allocator.catalog.registers
    -- The record that closes the log is not about a slot.
    show (state.result _).Balanced _ _ _ _ (slots (state.events.push state.finishedEvent))
    rw [slots_push]
    simpa [ScanState.finishedEvent, Event.slot?] using balanced

/-- The accounts of a run over a program. -/
theorem balanced_runFrom {operations : List Operation}
    (done : allocator.runFrom operations stackBase = .ok run) :
    run.allocation.Balanced allocator.options (Liveness.ofOperations operations).intervals
      (Liveness.Mentions operations) stackBase (slots run.events) := by
  rw [runFrom_eq] at done
  obtain ⟨inner, completed, rfl⟩ := exists_of_report done
  have balanced := balanced_runIntervals (Liveness.nodup_intervals operations) completed
  have temps : (· ∈ (Liveness.ofOperations operations).intervals.map Interval.temp)
      = Liveness.Mentions operations := by
    funext id
    exact propext Liveness.mem_map_temp_iff
  rw [temps] at balanced
  show Allocation.Balanced _ _ _ _ (slots (_ ++ inner.events)) _
  rw [slots_append, Liveness.slots_events, List.nil_append]
  -- The diagnostics are no part of the accounts.
  exact ⟨balanced.single, balanced.covers, balanced.base, balanced.owned, balanced.settled,
    balanced.tiled, balanced.frameSize, balanced.spills, balanced.evictions, balanced.quiet⟩

/-- **Coverage and frame layout.**  In every completed run, each temp has one place and no other
temp has any; the slots of the temps on the stack tile the spill area in the order in which they
were given out; and spills and evictions are counted right. -/
theorem balanced_of_completed (allocator : Allocator) :
    (∀ operations stackBase run, allocator.runFrom operations stackBase = .ok run →
      run.allocation.Balanced allocator.options (Liveness.ofOperations operations).intervals
        (Liveness.Mentions operations) stackBase (slots run.events)) ∧
    (∀ operations run, allocator.run operations = .ok run →
      run.allocation.Balanced allocator.options (Liveness.ofOperations operations).intervals
        (Liveness.Mentions operations) allocator.options.stackBase (slots run.events)) ∧
    (∀ intervals stackBase run, (intervals.map Interval.temp).Nodup →
      allocator.runIntervals intervals stackBase = .ok run →
      run.allocation.Balanced allocator.options intervals (· ∈ intervals.map Interval.temp)
        stackBase (slots run.events)) := by
  refine ⟨?_, ?_, ?_⟩
  · intro operations stackBase run done
    exact balanced_runFrom done
  · intro operations run done
    exact balanced_runFrom done
  · intro intervals stackBase run distinct done
    exact balanced_runIntervals distinct done

/-- Among four values, a wide one goes to the stack at once, and the narrow one that came first
is evicted behind it. -/
theorem balanced_busy :
    (busy.map Interval.temp).Nodup ∧
      ∃ run, (ofCatalog (.small Entry.nested) {}).runIntervals busy 16 = .ok run ∧
        slots run.events = [⟨⟨⟨2⟩, 2, 5, 8, .i64⟩, 16⟩, ⟨⟨⟨0⟩, 0, 9, 4, .i32⟩, 24⟩] ∧
        run.allocation.Balanced {} busy (· ∈ busy.map Interval.temp) 16 (slots run.events) := by
  have distinct : (busy.map Interval.temp).Nodup := by decide
  obtain ⟨run, done, inOrder⟩ :
      ∃ run, (ofCatalog (.small Entry.nested) {}).runIntervals busy 16 = .ok run ∧
        slots run.events = [⟨⟨⟨2⟩, 2, 5, 8, .i64⟩, 16⟩, ⟨⟨⟨0⟩, 0, 9, 4, .i32⟩, 24⟩] :=
    ⟨_, rfl, rfl⟩
  exact ⟨distinct, run, done, inOrder,
    (balanced_of_completed (ofCatalog (.small Entry.nested) {})).2.2 busy 16 run distinct done⟩

end Allocator

end LinearScan
