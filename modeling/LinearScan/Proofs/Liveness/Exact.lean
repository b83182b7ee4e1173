import LinearScan.Proofs.Allocator
import LinearScan.Proofs.Liveness

/-!
# Liveness is exact

What liveness says about a program can be read off the program.  `Liveness.Exact` is how: temps
come in the order of their first mentions, and the interval of a temp reaches from the first
operation that mentions it to the first that frees it, or to the last operation of all.  None of
this assumes that a program is sensible.  A temp may be freed by the operation that defines it,
named again behind its free marker, freed twice, or never, and with another type each time.

The pass keeps lifetimes in the order in which it opened them, and their starts ascend because
positions do.  So the sort at the end has nothing to do (`Liveness.intervals_eq`), and the order of
intervals is that of first mentions.

The temps without a free marker are also what a run over the program reports about it.
-/

namespace LinearScan

namespace Liveness

variable {operations : List Operation} {lifetime : Lifetime} {interval : Interval}

/-- The temps that a program mentions, in the order of their first mentions. -/
def mentionedTemps (operations : List Operation) : List TempId :=
  ((operations.flatMap Operation.mentioned).map Temp.id).eraseDups

/-- The temps of a program that no operation frees, in the order of their first mentions. -/
def neverFreed (operations : List Operation) : List TempId :=
  (mentionedTemps operations).filter fun id => !operations.any (·.frees id)

/-- **The interval of a temp, as the program has it.** -/
structure Spans (operations : List Operation) (interval : Interval) : Prop where
  /-- It starts with the first operation that mentions the temp. -/
  start : operations.findIdx? (·.mentions interval.temp) = some interval.start
  /-- It ends with the first that frees the temp, or else with the last of all. -/
  stop : interval.stop =
    (operations.findIdx? (·.frees interval.temp)).getD (operations.length - 1)
  /-- Its size and type are those of the first mention. -/
  value : (operations.flatMap Operation.mentioned).find? (·.id == interval.temp) =
    some ⟨interval.temp, interval.size, interval.type⟩
  ordered : interval.start ≤ interval.stop

/-- **Liveness, as the program has it.** -/
structure Exact (operations : List Operation) (liveness : Liveness) : Prop where
  /-- Intervals come in the order of first mentions. -/
  temps : liveness.intervals.map Interval.temp = mentionedTemps operations
  single : ∀ id, Mentions operations id ↔
    ∃! interval, interval ∈ liveness.intervals ∧ interval.temp = id
  spans : ∀ interval ∈ liveness.intervals, Spans operations interval
  ascending : liveness.intervals.Pairwise (·.start ≤ ·.start)
  unfreed : liveness.unfreed = neverFreed operations

/-! ## Lifetimes and intervals -/

/-- The lifetimes of a program are those of the temps that it mentions. -/
theorem map_temp_lifetimes (operations : List Operation) :
    (LivenessScan.empty.run 0 operations).lifetimes.map (·.interval.temp) =
      mentionedTemps operations := by
  rw [(LivenessScan.follows_run operations).temps, mentionedTemps, ← Mark.map_temp_all,
    List.map_map]
  rfl

/-- A free marker is a mention. -/
theorem mentions_of_frees {operation : Operation} {id : TempId}
    (frees : operation.frees id = true) : operation.mentions id = true := by
  unfold Operation.mentions Operation.mentioned
  rw [List.any_append]
  exact Bool.or_eq_true_iff.mpr (Or.inr frees)

/-- **A lifetime, completed, is the interval that the program has for its temp.** -/
theorem spans_complete
    (member : lifetime ∈ (LivenessScan.empty.run 0 operations).lifetimes) :
    Spans operations (complete (operations.length - 1) lifetime) := by
  have follows := LivenessScan.follows_run operations
  have start := follows.findIdx?_mentions member
  have ended := follows.findIdx?_frees member
  have value : (operations.flatMap Operation.mentioned).find? (·.id == lifetime.interval.temp) =
      some ⟨lifetime.interval.temp, lifetime.interval.size, lifetime.interval.type⟩ := by
    rw [← Mark.map_temp_all, ← Mark.temp_first?, follows.begun lifetime member]
    rfl
  have stop : (if lifetime.closed then lifetime.interval.stop else operations.length - 1) =
      (operations.findIdx? (·.frees lifetime.interval.temp)).getD (operations.length - 1) := by
    rw [ended]
    split <;> rfl
  have ordered : lifetime.interval.start ≤
      if lifetime.closed then lifetime.interval.stop else operations.length - 1 := by
    cases closed : lifetime.closed with
    | true =>
      -- Where the temp is freed it is mentioned, so the first mention is not behind.
      rw [closed, if_pos rfl] at ended
      obtain ⟨inside, frees, -⟩ := List.findIdx?_eq_some_iff_getElem.mp ended
      exact findIdx?_le start (List.getElem?_eq_getElem inside) (mentions_of_frees frees)
    | false =>
      obtain ⟨inside, -⟩ := List.findIdx?_eq_some_iff_getElem.mp start
      exact Nat.le_sub_one_of_lt inside
  rw [complete_eq]
  exact ⟨start, stop, value, ordered⟩

/-- The temps whose lifetimes stay open are those that are never freed. -/
theorem unfreed_eq (operations : List Operation) :
    (ofOperations operations).unfreed = neverFreed operations := by
  have follows := LivenessScan.follows_run operations
  rw [neverFreed, ← map_temp_lifetimes, List.filter_map]
  show ((LivenessScan.empty.run 0 operations).lifetimes.filter _).map _ = _
  refine congrArg (List.map _) (List.filter_congr ?_)
  intro lifetime member
  have freed := Mark.isSome_first?_all (·.freed.toList) operations lifetime.interval.temp
  rw [← Option.isSome_map (f := Mark.position), follows.ended lifetime member] at freed
  show (!lifetime.closed) = !operations.any (·.frees lifetime.interval.temp)
  refine congrArg _ (Eq.trans ?_ freed)
  cases lifetime.closed <;> rfl

/-- A temp that is mentioned has one interval. -/
theorem mentions_iff_existsUnique (operations : List Operation) (id : TempId) :
    Mentions operations id ↔
      ∃! interval, interval ∈ (ofOperations operations).intervals ∧ interval.temp = id := by
  rw [← mem_map_temp_iff, List.mem_map]
  constructor
  · rintro ⟨interval, member, same⟩
    refine ⟨interval, ⟨member, same⟩, ?_⟩
    rintro other ⟨isOther, sameOther⟩
    exact List.inj_on_of_nodup_map (nodup_intervals operations) isOther member
      (sameOther.trans same.symm)
  · rintro ⟨interval, holds, -⟩
    exact ⟨interval, holds⟩

/-- **What liveness says is what the program has.** -/
theorem exact_ofOperations (operations : List Operation) :
    Exact operations (ofOperations operations) where
  temps := by
    rw [intervals_eq, List.map_map, ← map_temp_lifetimes]
    exact List.map_congr_left fun lifetime _ => complete_temp _ lifetime
  single := mentions_iff_existsUnique operations
  spans := by
    intro interval member
    obtain ⟨lifetime, isLifetime, rfl⟩ := mem_intervals.mp member
    exact spans_complete isLifetime
  ascending := pairwise_start operations
  unfreed := unfreed_eq operations

/-- What a run over a program reports are the temps that are never freed. -/
theorem diagnostics_runFrom {allocator : Allocator} {stackBase : Nat} {run : CompletedRun}
    (done : allocator.runFrom operations stackBase = .ok run) :
    run.allocation.diagnostics =
      if (neverFreed operations).isEmpty then [] else [.unfreedTemps (neverFreed operations)] := by
  rw [Allocator.runFrom_eq] at done
  obtain ⟨inner, -, rfl⟩ := Allocator.exists_of_report done
  rw [unfreed_eq]

/-- **Liveness is exact** for every program, of which it is computed without fault; the sort at its
end changes nothing; and the temps that are never freed are the diagnostic of a run over the
program, of which there is none if all are freed. -/
theorem exact_sorted_reported (operations : List Operation) :
    compute operations = .ok (ofOperations operations) ∧
    Exact operations (ofOperations operations) ∧
    (ofOperations operations).intervals =
      (LivenessScan.empty.run 0 operations).lifetimes.map (complete (operations.length - 1)) ∧
    ∀ (allocator : Allocator) (stackBase : Nat) (run : CompletedRun),
      allocator.runFrom operations stackBase = .ok run →
      run.allocation.diagnostics =
        if (neverFreed operations).isEmpty then []
        else [.unfreedTemps (neverFreed operations)] := by
  refine ⟨compute_eq operations, exact_ofOperations operations, intervals_eq operations, ?_⟩
  intro allocator stackBase run done
  exact diagnostics_runFrom done

/-- A temp that comes back with another type and is never freed, one that is used and freed again
behind its free marker, and one that is freed where it is defined. -/
def tangled : List Operation :=
  let lasting : Temp := .ofType ⟨5⟩ .i32
  let freed : Temp := .ofType ⟨3⟩ .i64
  let brief : Temp := .ofType ⟨4⟩ .i8
  [⟨[lasting], some freed, none⟩, ⟨[], some (.ofType ⟨5⟩ .f64), some freed⟩,
    ⟨[freed, freed], none, some freed⟩, ⟨[], some brief, some brief⟩]

/-- The first type counts, the first free marker counts, and one temp is reported. -/
theorem exact_sorted_reported_tangled :
    (ofOperations tangled).intervals =
        [⟨⟨5⟩, 0, 3, 4, .i32⟩, ⟨⟨3⟩, 0, 1, 8, .i64⟩, ⟨⟨4⟩, 3, 3, 1, .i8⟩] ∧
      ∃ run, (Allocator.ofCatalog (.small Entry.nested) {}).runFrom tangled 0 = .ok run ∧
        run.allocation.diagnostics = [.unfreedTemps [⟨5⟩]] := by
  obtain ⟨-, -, unsorted, reported⟩ := exact_sorted_reported tangled
  have intervals : (ofOperations tangled).intervals =
      [⟨⟨5⟩, 0, 3, 4, .i32⟩, ⟨⟨3⟩, 0, 1, 8, .i64⟩, ⟨⟨4⟩, 3, 3, 1, .i8⟩] := by
    rw [unsorted]
    rfl
  obtain ⟨run, done⟩ : ∃ run, (Allocator.ofCatalog (.small Entry.nested) {}).runFrom tangled 0
      = .ok run := by
    rw [Allocator.runFrom_eq, intervals]
    exact ⟨_, rfl⟩
  exact ⟨intervals, run, done, reported _ 0 run done⟩

end Liveness

end LinearScan
