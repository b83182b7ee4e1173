import LinearScan.Proofs.CalleeSaved
import LinearScan.Proofs.Delimited
import LinearScan.Proofs.Liveness.Exact
import LinearScan.Proofs.Overflow
import LinearScan.Proofs.Plain.Relabel
import LinearScan.Proofs.Register.Orderly

/-!
# Allocations under other labels

What an allocation says does not depend on how temps are named, how positions are numbered and
where the frame begins (`Allocator.relabels_of_fitsFrame`).  Registers stay, slots keep their
distance from the base, and all counts are the same.

Operations that mention no temp only move positions.  `Padded` is a program with such operations
put in anywhere; the intervals of its temps are the old ones under other labels
(`Padded.exists_relabel`), and so is their allocation.  It is load-bearing that temps are freed: the
interval of a temp that is not would end with the last operation, which is not where the old last
operation went.
-/

namespace LinearScan

open Outcome

namespace Assignment

variable {labels : Labels} {base base' : Nat} {assignment assignment' : Assignment}
  {register : RegisterId}

/-- Assignments that say the same of every temp are equal. -/
theorem Ascending.ext (ascending : assignment.Ascending) (ascending' : assignment'.Ascending)
    (same : ∀ temp, assignment.get? temp = assignment'.get? temp) : assignment = assignment' := by
  have entries : assignment.entries = assignment'.entries := by
    refine eq_of_ascending ascending ascending' fun (temp, location) => ?_
    rw [← ascending.get?_eq_some_iff, ← ascending'.get?_eq_some_iff, same]
  cases assignment
  cases assignment'
  exact congrArg Assignment.mk entries

/-- A temp is in a register exactly if it is in that register under its other name. -/
theorem Relabels.get?_eq_register_iff
    (relabels : Relabels labels base base' assignment assignment') (temp : TempId) :
    assignment'.get? (labels.rename temp) = some (.register register) ↔
      assignment.get? temp = some (.register register) := by
  have place := relabels.places temp
  generalize assignment.get? temp = location at place ⊢
  generalize assignment'.get? (labels.rename temp) = location' at place ⊢
  cases place with
  | none => rfl
  | some shifted =>
    cases shifted with
    | register id => rfl
    | stack distance => simp

/-- The same registers are in use. -/
theorem Relabels.uses_iff (relabels : Relabels labels base base' assignment assignment') :
    assignment'.Uses register ↔ assignment.Uses register := by
  constructor
  · rintro ⟨temp, lives⟩
    by_cases named : temp ∈ Set.range labels.rename
    · obtain ⟨temp, rfl⟩ := named
      exact ⟨temp, (relabels.get?_eq_register_iff temp).mp lives⟩
    · cases (relabels.others temp named).symm.trans lives
  · rintro ⟨temp, lives⟩
    exact ⟨labels.rename temp, (relabels.get?_eq_register_iff temp).mpr lives⟩

/-- With the same names and the same base, nothing is different. -/
theorem Relabels.get?_eq (relabels : Relabels labels base base assignment assignment')
    (names : ∀ temp, labels.rename temp = temp) (temp : TempId) :
    assignment'.get? temp = assignment.get? temp := by
  have place := relabels.places temp
  rw [names] at place
  generalize assignment.get? temp = location at place ⊢
  generalize assignment'.get? temp = location' at place ⊢
  cases place with
  | none => rfl
  | some shifted =>
    cases shifted with
    | register id => rfl
    | stack distance => rw [Nat.add_right_cancel distance]

end Assignment

/-! ## Allocations -/

/-- **An allocation under other labels**, in a frame with another base. -/
structure Allocation.Relabels (labels : Labels) (base base' : Nat)
    (allocation allocation' : Allocation) : Prop where
  /-- Registers stay, and slots keep their distance from the base. -/
  assignment : allocation.assignment.Relabels labels base base' allocation'.assignment
  frameSize : allocation'.frameSize + base = allocation.frameSize + base'
  spills : allocation'.spills = allocation.spills
  evictions : allocation'.evictions = allocation.evictions
  calleeSaved : allocation'.calleeSaved = allocation.calleeSaved

namespace PlainScan.Relabels

variable {labels : Labels} {base base' : Nat} {scan scan' : PlainScan}

theorem registers_eq (relabels : Relabels labels base base' scan scan') :
    scan'.assignment.registers = scan.assignment.registers := by
  refine eq_of_ascending scan'.assignment.pairwise_registers scan.assignment.pairwise_registers ?_
  intro register
  rw [relabels.ascending'.mem_registers_iff, relabels.ascending.mem_registers_iff,
    relabels.assignment.uses_iff]

theorem allocation (relabels : Relabels labels base base' scan scan') (file : RegisterFile) :
    (scan.allocation file).Relabels labels base base' (scan'.allocation file) where
  assignment := relabels.assignment
  frameSize := relabels.cursor
  spills := relabels.spills
  evictions := relabels.evictions
  calleeSaved := congrArg (List.filter _) relabels.registers_eq

/-- With the same names and the same base, the results are equal. -/
theorem allocation_eq (relabels : Relabels labels base base scan scan')
    (names : ∀ temp, labels.rename temp = temp) (file : RegisterFile) :
    scan.allocation file = scan'.allocation file := by
  have assignment : scan.assignment = scan'.assignment :=
    relabels.ascending.ext relabels.ascending' fun temp =>
      (relabels.assignment.get?_eq names temp).symm
  simp only [PlainScan.allocation, assignment, relabels.stackBase, relabels.stackBase',
    Nat.add_right_cancel relabels.cursor, relabels.spills, relabels.evictions]

end PlainScan.Relabels

/-! ## Programs with more operations -/

/-- **A program with operations put in that mention no temp**, at any places. -/
inductive Padded : List Operation → List Operation → Prop
  | nil : Padded [] []
  | keep (operation : Operation) {operations operations' : List Operation} :
      Padded operations operations' → Padded (operation :: operations) (operation :: operations')
  | insert {operation : Operation} (silent : operation.mentioned = [])
      {operations operations' : List Operation} :
      Padded operations operations' → Padded operations (operation :: operations')

namespace Padded

variable {operations operations' : List Operation}

/-- A property of operations that those without a temp do not have. -/
def Loud (property : Operation → Bool) : Prop :=
  ∀ operation, operation.mentioned = [] → property operation = false

theorem loud_mentions (temp : TempId) : Loud (·.mentions temp) := by
  intro operation silent
  simp [Operation.mentions, silent]

theorem loud_frees (temp : TempId) : Loud (·.frees temp) := by
  intro operation silent
  refine Bool.eq_false_iff.mpr fun frees => ?_
  cases (loud_mentions temp operation silent).symm.trans (Liveness.mentions_of_frees frees)

/-- No temp is mentioned anew. -/
theorem mentioned_eq (padded : Padded operations operations') :
    operations'.flatMap Operation.mentioned = operations.flatMap Operation.mentioned := by
  induction padded with
  | nil => rfl
  | keep operation _ ih => rw [List.flatMap_cons, List.flatMap_cons, ih]
  | insert silent _ ih => rw [List.flatMap_cons, silent, List.nil_append, ih]

/-- **Positions move**, in one way for all temps. -/
theorem exists_move (padded : Padded operations operations') :
    ∃ move : Nat → Nat, StrictMono move ∧ ∀ property, Loud property →
      operations'.findIdx? property = (operations.findIdx? property).map move := by
  induction padded with
  | nil => exact ⟨id, strictMono_id, fun _ _ => rfl⟩
  | keep operation _ ih =>
    obtain ⟨move, increasing, moved⟩ := ih
    refine ⟨fun position => Nat.casesOn position 0 fun before => move before + 1, ?_, ?_⟩
    · refine strictMono_nat_of_lt_succ fun position => ?_
      cases position with
      | zero => exact Nat.succ_pos _
      | succ before => exact Nat.succ_lt_succ (increasing (Nat.lt_succ_self before))
    · intro property loud
      rw [List.findIdx?_cons, List.findIdx?_cons, moved property loud]
      split
      · rfl
      · rw [Option.map_map, Option.map_map]
        rfl
  | insert silent _ ih =>
    obtain ⟨move, increasing, moved⟩ := ih
    refine ⟨fun position => move position + 1, fun _ _ less => Nat.succ_lt_succ (increasing less),
      ?_⟩
    intro property loud
    rw [List.findIdx?_cons, loud _ silent, moved property loud, Option.map_map]
    rfl

/-- No temp is freed anew, and none is freed no longer. -/
theorem neverFreed_eq (padded : Padded operations operations') :
    Liveness.neverFreed operations' = Liveness.neverFreed operations := by
  obtain ⟨move, -, moved⟩ := padded.exists_move
  unfold Liveness.neverFreed Liveness.mentionedTemps
  rw [padded.mentioned_eq]
  refine List.filter_congr fun temp _ => congrArg _ ?_
  rw [← List.findIdx?_isSome, ← List.findIdx?_isSome, moved _ (loud_frees temp),
    Option.isSome_map]

/-- **An interval moves with the positions**, if its temp is freed. -/
theorem relabel_of_spans {labels : Labels} (padded : Padded operations operations')
    (names : ∀ temp, labels.rename temp = temp)
    (moved : ∀ property, Loud property →
      operations'.findIdx? property = (operations.findIdx? property).map labels.move)
    {interval interval' : Interval} (spans : Liveness.Spans operations interval)
    (spans' : Liveness.Spans operations' interval') (same : interval'.temp = interval.temp)
    (freed : operations.any (·.frees interval.temp) = true) :
    interval' = interval.relabel labels := by
  have start : interval'.start = labels.move interval.start := by
    have first := moved _ (loud_mentions interval.temp)
    rw [spans.start, ← same, spans'.start] at first
    exact Option.some.inj first
  have stop : interval'.stop = labels.move interval.stop := by
    rw [← List.findIdx?_isSome, Option.isSome_iff_exists] at freed
    obtain ⟨last, isLast⟩ := freed
    have ended := spans'.stop
    rw [same, moved _ (loud_frees interval.temp), isLast] at ended
    have ends := spans.stop
    rw [isLast] at ends
    rw [ended, ends]
    rfl
  have value := spans'.value
  rw [padded.mentioned_eq, same, spans.value] at value
  obtain ⟨temp, start', stop', size, type⟩ := interval'
  obtain ⟨-, rfl, rfl⟩ := Temp.mk.inj (Option.some.inj value)
  dsimp only at same start stop
  rw [same, start, stop, Interval.relabel, names]

/-- **Intervals move with the positions**, if every temp is freed. -/
theorem exists_relabel (padded : Padded operations operations')
    (freed : ∀ temp, Liveness.Mentions operations temp → operations.any (·.frees temp) = true) :
    ∃ labels : Labels, (∀ temp, labels.rename temp = temp) ∧
      (Liveness.ofOperations operations').intervals =
        (Liveness.ofOperations operations).intervals.map (Interval.relabel labels) := by
  obtain ⟨move, increasing, moved⟩ := padded.exists_move
  refine ⟨⟨id, move, Function.injective_id, increasing⟩, fun _ => rfl, ?_⟩
  have exactly := Liveness.exact_ofOperations operations
  have exactly' := Liveness.exact_ofOperations operations'
  have temps : (Liveness.ofOperations operations').intervals.map Interval.temp =
      ((Liveness.ofOperations operations).intervals.map (Interval.relabel
        ⟨id, move, Function.injective_id, increasing⟩)).map Interval.temp := by
    rw [List.map_map, exactly'.temps, Liveness.mentionedTemps, padded.mentioned_eq]
    exact exactly.temps.symm
  refine Delimited.eq_of_map_eq temps ?_
  intro place interval' _ found' isMoved sameTemp
  rw [List.getElem?_map] at isMoved
  obtain ⟨interval, found, rfl⟩ := Option.map_eq_some_iff.mp isMoved
  have member := List.mem_of_getElem? found
  exact padded.relabel_of_spans (fun _ => rfl) moved (exactly.spans interval member)
    (exactly'.spans interval' (List.mem_of_getElem? found')) sameTemp
    (freed _ (Liveness.mem_map_temp_iff.mp (List.mem_map_of_mem member)))

end Padded

namespace Allocator

variable {catalog : Catalog} {options : Options} {allocator allocator' : Allocator}

/-! ## Runs -/

/-- What a caller sees of a run: the allocation, or the fault. -/
def result (outcome : Except Halt CompletedRun) : Except Fault Allocation :=
  (outcome.mapError Halt.fault).map CompletedRun.allocation

/-- The report adds what liveness has found, and nothing else. -/
theorem result_report (liveness : Liveness) (outcome : Except Halt CompletedRun) :
    result (report liveness outcome) = (result outcome).map fun allocation =>
      { allocation with
        diagnostics :=
          if liveness.unfreed.isEmpty then [] else [.unfreedTemps liveness.unfreed] } := by
  cases outcome with
  | error halt => rfl
  | ok run => rfl

/-- Sorted intervals stay sorted under other labels. -/
theorem sorted_relabel (labels : Labels) {intervals : List Interval}
    (sorted : intervals.Pairwise (·.start ≤ ·.start)) :
    (intervals.map (Interval.relabel labels)).Pairwise (·.start ≤ ·.start) :=
  List.pairwise_map.mpr (sorted.imp fun le => labels.strictMono.monotone le)

/-- **Runs over intervals** with the same names, from the same base, have the same result. -/
theorem Reachable.result_relabel (built : catalog.Built)
    (reachable : Reachable catalog options allocator)
    (reachable' : Reachable catalog options allocator') {labels : Labels}
    (names : ∀ temp, labels.rename temp = temp) {intervals : List Interval}
    (sorted : intervals.Pairwise (·.start ≤ ·.start)) (stackBase : Nat) :
    result (allocator'.runIntervals (intervals.map (Interval.relabel labels)) stackBase) =
      result (allocator.runIntervals intervals stackBase) := by
  have plain := (reachable.ready built.wellFormed).runIntervals built.wellFormed
    (sortedByStart_iff.mpr sorted) stackBase
  have plain' := (reachable'.ready built.wellFormed).runIntervals built.wellFormed
    (sortedByStart_iff.mpr (sorted_relabel labels sorted)) stackBase
  have parallel := PlainScan.Relabels.placeAll catalog options intervals 0
    (PlainScan.relabels_start labels stackBase stackBase)
  unfold result
  rw [plain.mapError.map_eq fun _ _ same => same.1, plain'.mapError.map_eq fun _ _ same => same.1]
  exact ((parallel.corresponds rfl).map_eq fun _ _ relabels =>
    relabels.allocation_eq names catalog.registers).symm

/-- **Labels do not matter.**  Runs over sorted intervals of which neither overflows give each temp
the same register under all names, numbers and bases, or a slot at the same distance from the base,
and they spill, evict and save the same.  So operations that mention no temp may be put into a
program anywhere, if all its temps are freed, and its result is the same. -/
theorem relabels_of_fitsFrame (built : catalog.Built)
    (reachable : Reachable catalog options allocator)
    (reachable' : Reachable catalog options allocator') :
    (∀ (labels : Labels) (intervals : List Interval) (base base' : Nat),
      intervals.Pairwise (·.start ≤ ·.start) →
      FitsFrame (allocator.runIntervals intervals base) →
      FitsFrame (allocator'.runIntervals (intervals.map (Interval.relabel labels)) base') →
      ∃ run run', allocator.runIntervals intervals base = .ok run ∧
        allocator'.runIntervals (intervals.map (Interval.relabel labels)) base' = .ok run' ∧
        run.allocation.Relabels labels base base' run'.allocation) ∧
    ∀ operations operations', Padded operations operations' →
      (∀ temp, Liveness.Mentions operations temp → operations.any (·.frees temp) = true) →
      (∀ stackBase, result (allocator'.runFrom operations' stackBase) =
        result (allocator.runFrom operations stackBase)) ∧
      result (allocator'.run operations') = result (allocator.run operations) := by
  refine ⟨?_, ?_⟩
  · intro labels intervals base base' sorted fits fits'
    obtain ⟨run, done⟩ := reachable.exists_of_fitsFrame built sorted fits
    obtain ⟨run', done'⟩ :=
      reachable'.exists_of_fitsFrame built (sorted_relabel labels sorted) fits'
    obtain ⟨scan, placed, same⟩ := reachable.exists_scan built done
    obtain ⟨scan', placed', same'⟩ := reachable'.exists_scan built done'
    have parallel := PlainScan.Relabels.placeAll catalog options intervals 0
      (PlainScan.relabels_start labels base base')
    rw [placed, placed'] at parallel
    refine ⟨run, run', done, done', ?_⟩
    rw [same, same']
    exact parallel.allocation catalog.registers
  · intro operations operations' padded freed
    obtain ⟨labels, names, moved⟩ := padded.exists_relabel freed
    have anywhere : ∀ stackBase, result (allocator'.runFrom operations' stackBase) =
        result (allocator.runFrom operations stackBase) := by
      intro stackBase
      rw [runFrom_eq, runFrom_eq, result_report, result_report, moved,
        reachable.result_relabel built reachable' names (Liveness.pairwise_start operations),
        Liveness.unfreed_eq, Liveness.unfreed_eq, padded.neverFreed_eq]
    refine ⟨anywhere, ?_⟩
    have base : allocator'.options.stackBase = allocator.options.stackBase := by
      rw [(reachable'.ready built.wellFormed).2.1, (reachable.ready built.wellFormed).2.1]
    rw [Allocator.run, Allocator.run, base]
    exact anywhere _

/-- Each temp has the name of its neighbour, and positions are three times as far apart. -/
def swapped : Labels where
  rename temp := ⟨if temp.index % 2 = 0 then temp.index + 1 else temp.index - 1⟩
  move position := 3 * position + 2
  injective := by
    rintro ⟨a⟩ ⟨b⟩ same
    have equal := congrArg TempId.index same
    dsimp only at equal
    rw [TempId.mk.injEq]
    split at equal <;> split at equal <;> omega
  strictMono := by
    intro a b less
    show 3 * a + 2 < 3 * b + 2
    omega

/-- The three values that pass a register on, with pauses before, between and behind. -/
def pausing : List Operation :=
  let pause : Operation := ⟨[], none, none⟩
  [pause] ++ heirs.take 2 ++ [pause, pause] ++ heirs.drop 2 ++ [pause]

/-- Two temps of the first run end at one position, one is evicted and one spilled, and each has its
place under its other name. -/
theorem relabels_of_fitsFrame_swapped :
    (Catalog.small Entry.nested).Built ∧ Padded heirs pausing ∧
      ∃ run run', (ofCatalog (.small Entry.nested) {}).runIntervals busy 0 = .ok run ∧
        (ofCatalog (.small Entry.nested) {}).runIntervals (busy.map (.relabel swapped)) 40
          = .ok run' ∧
        run.allocation.Relabels swapped 0 40 run'.allocation ∧
        run.allocation.assignment.entries =
          [(⟨0⟩, .stack 8), (⟨1⟩, .register ⟨2⟩), (⟨2⟩, .stack 0), (⟨3⟩, .register ⟨1⟩)] ∧
        run'.allocation.assignment.entries =
          [(⟨0⟩, .register ⟨2⟩), (⟨1⟩, .stack 48), (⟨2⟩, .register ⟨1⟩), (⟨3⟩, .stack 40)] ∧
        result ((ofCatalog (.small Entry.nested) {}).run pausing) =
          result ((ofCatalog (.small Entry.nested) {}).run heirs) := by
  have padded : Padded heirs pausing :=
    .insert rfl (.keep _ (.keep _ (.insert rfl (.insert rfl (.keep _ (.keep _ (.keep _ (.keep _
      (.insert rfl .nil)))))))))
  have freed : ∀ temp, Liveness.Mentions heirs temp → heirs.any (·.frees temp) = true := by
    have all : ∀ operation ∈ heirs, ∀ temp ∈ operation.mentioned,
        heirs.any (·.frees temp.id) = true := by decide
    rintro _ ⟨operation, member, temp, mentioned, rfl⟩
    exact all operation member temp mentioned
  obtain ⟨run, done, places⟩ :
      ∃ run, (ofCatalog (.small Entry.nested) {}).runIntervals busy 0 = .ok run ∧
        run.allocation.assignment.entries =
          [(⟨0⟩, .stack 8), (⟨1⟩, .register ⟨2⟩), (⟨2⟩, .stack 0), (⟨3⟩, .register ⟨1⟩)] :=
    ⟨_, rfl, rfl⟩
  obtain ⟨run', done', places'⟩ :
      ∃ run', (ofCatalog (.small Entry.nested) {}).runIntervals (busy.map (.relabel swapped)) 40
          = .ok run' ∧
        run'.allocation.assignment.entries =
          [(⟨0⟩, .register ⟨2⟩), (⟨1⟩, .stack 48), (⟨2⟩, .register ⟨1⟩), (⟨3⟩, .stack 40)] :=
    ⟨_, rfl, rfl⟩
  obtain ⟨relabelled, unchanged⟩ := relabels_of_fitsFrame Catalog.built_nested
    (.fresh : Reachable _ {} _) .fresh
  obtain ⟨_, _, same, same', relabels⟩ := relabelled swapped busy 0 40 (by decide)
    (fitsFrame_of_ok done) (fitsFrame_of_ok done')
  obtain rfl := Except.ok.inj (done.symm.trans same)
  obtain rfl := Except.ok.inj (done'.symm.trans same')
  exact ⟨Catalog.built_nested, padded, run, run', done, done', relabels, places, places',
    (unchanged heirs pausing padded freed).2⟩

end Allocator

end LinearScan
