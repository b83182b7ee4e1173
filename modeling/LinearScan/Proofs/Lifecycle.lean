import LinearScan.Proofs.Allocator
import LinearScan.Proofs.Scan.Ledger
import Mathlib.Data.List.Perm.Subperm

/-!
# What later intervals do to earlier ones

A temp is in a register first, if it ever is, and on the stack for good from then on.  So a scan
that goes on behind some intervals can do one thing only to the temps that are placed: it can take
a register from one of them.  `Allocation.Continues` says so of two results.  **A slot that was
given out is never moved, a register is never given back to a temp**, and every move is an eviction
that was counted.

A single step touches one earlier temp at most (`Allocation.Continues.yielded`), and that this temp
was not moved before is what makes the count come out: who is evicted is in a register, and who was
moved before is on the stack.
-/

namespace LinearScan

open Outcome

/-- The temps that have another place in a second assignment. -/
def Assignment.moved (before after : Assignment) (temps : List TempId) : List TempId :=
  temps.filter fun temp => after.get? temp ≠ before.get? temp

/-- **A result that goes on where another one ended**, as seen by the temps of the other one. -/
structure Allocation.Continues (temps : List TempId) (before after : Allocation) : Prop where
  /-- A temp keeps its place, or it loses a register for a slot behind the frame as it was. -/
  places : ∀ temp ∈ temps, ∃ place, before.assignment.get? temp = some place ∧
    (after.assignment.get? temp = some place ∨
      ∃ register offset, place = .register register ∧ before.frameSize ≤ offset ∧
        after.assignment.get? temp = some (.stack offset))
  /-- There is an eviction for each temp that moved. -/
  evictions : (before.assignment.moved after.assignment temps).length + before.evictions
    ≤ after.evictions
  frameSize : before.frameSize ≤ after.frameSize
  spills : before.spills ≤ after.spills

namespace Allocation.Continues

variable {temps : List TempId} {before after after' : Allocation}

/-- A result goes on where it ended. -/
theorem refl (placed : ∀ temp ∈ temps, before.assignment.get? temp ≠ none) :
    before.Continues temps before where
  places := by
    intro temp member
    obtain ⟨place, found⟩ := Option.ne_none_iff_exists'.mp (placed temp member)
    exact ⟨place, found, Or.inl found⟩
  evictions := by simp [Assignment.moved]
  frameSize := Nat.le_refl _
  spills := Nat.le_refl _

/-- Nothing changes for temps that are left alone. -/
theorem kept (continues : before.Continues temps after)
    (same : ∀ temp ∈ temps, after'.assignment.get? temp = after.assignment.get? temp)
    (evictions : after.evictions ≤ after'.evictions)
    (frameSize : after.frameSize ≤ after'.frameSize) (spills : after.spills ≤ after'.spills) :
    before.Continues temps after' where
  places := by
    intro temp member
    rw [same temp member]
    exact continues.places temp member
  evictions := by
    have moved : before.assignment.moved after'.assignment temps
        = before.assignment.moved after.assignment temps :=
      List.filter_congr fun temp member => by rw [same temp member]
    rw [moved]
    exact Nat.le_trans continues.evictions evictions
  frameSize := Nat.le_trans continues.frameSize frameSize
  spills := Nat.le_trans continues.spills spills

/-- A temp that loses its register is the only one to move, and moves behind the frame. -/
theorem yielded (continues : before.Continues temps after) (distinct : temps.Nodup)
    {victim : TempId} {register : RegisterId}
    (lives : after.assignment.get? victim = some (.register register))
    (assignment : after'.assignment = after.assignment.insert victim (.stack after.frameSize))
    (evictions : after.evictions + 1 = after'.evictions)
    (frameSize : after.frameSize ≤ after'.frameSize) (spills : after.spills ≤ after'.spills) :
    before.Continues temps after' where
  places := by
    intro temp member
    obtain ⟨place, found, stays⟩ := continues.places temp member
    refine ⟨place, found, ?_⟩
    rw [assignment, Assignment.get?_insert]
    split
    · next same =>
      subst same
      rcases stays with stays | ⟨_, offset, -, -, onStack⟩
      · obtain rfl := Option.some.inj (lives.symm.trans stays)
        exact Or.inr ⟨register, after.frameSize, rfl, continues.frameSize, rfl⟩
      · cases lives.symm.trans onStack
    · exact stays
  evictions := by
    have once : (before.assignment.moved after'.assignment temps).Nodup := distinct.filter _
    have among : before.assignment.moved after'.assignment temps
        ⊆ victim :: before.assignment.moved after.assignment temps := by
      intro temp member
      obtain ⟨isTemp, differs⟩ := List.mem_filter.mp member
      by_cases same : temp = victim
      · exact List.mem_cons.mpr (Or.inl same)
      · rw [assignment, Assignment.get?_insert, if_neg same] at differs
        exact List.mem_cons_of_mem _ (List.mem_filter.mpr ⟨isTemp, differs⟩)
    have fewer := (once.subperm among).length_le
    have counted := continues.evictions
    rw [List.length_cons] at fewer
    omega
  frameSize := Nat.le_trans continues.frameSize frameSize
  spills := Nat.le_trans continues.spills spills

/-- Where nobody was evicted, nobody moved. -/
theorem get?_eq (continues : before.Continues temps after) (quiet : after.evictions = 0) :
    ∀ temp ∈ temps, after.assignment.get? temp = before.assignment.get? temp := by
  have nobody : before.assignment.moved after.assignment temps = [] := by
    have counted := continues.evictions
    exact List.eq_nil_of_length_eq_zero (by omega)
  intro temp member
  by_contra differs
  exact List.filter_eq_nil_iff.mp nobody temp member (decide_eq_true differs)

end Allocation.Continues

namespace ScanState

variable {catalog : Catalog} {options : Options} {file : RegisterFile} {state state' : ScanState}
  {seq stackBase : Nat} {interval : Interval} {done intervals others : List Interval}
  {temps : List TempId} {before : Allocation}

/-- **One step** keeps temps where they are, but for one that may lose its register. -/
theorem Move.continues (distinct : temps.Nodup) (ledger : Ledger options stackBase done state)
    (fresh : interval.temp ∉ temps) (continues : before.Continues temps (state.result file))
    (move : Move file options state seq interval state') :
    before.Continues temps (state'.result file) := by
  have others : ∀ (assignment : Assignment) (place : Location), ∀ temp ∈ temps,
      (assignment.insert interval.temp place).get? temp = assignment.get? temp := by
    intro assignment place temp member
    rw [Assignment.get?_insert, if_neg]
    rintro rfl
    exact fresh member
  cases move with
  | stacked fewer =>
    exact continues.kept (others _ _) (Nat.le_refl _) (Nat.le_add_right _ _) (Nat.le_succ _)
  | bound fewer bank named =>
    exact continues.kept (others _ _) (Nat.le_refl _) (Nat.le_refl _) (Nat.le_refl _)
  | @evicted suppliers active victim fewer name named evicts allowed =>
    obtain ⟨-, register, lives⟩ := ledger.inRegister victim
      (fewer.subset (List.mem_append_right _ List.mem_cons_self))
    have yielded : before.Continues temps ((({ state with suppliers, active }.released victim name
        interval).stacked victim.interval).result file) :=
      continues.yielded distinct lives rfl rfl (Nat.le_add_right _ _) (Nat.le_succ _)
    exact yielded.kept (others _ _) (Nat.le_refl _) (Nat.le_refl _) (Nat.le_refl _)

/-- **A whole run** that goes on behind some intervals. -/
theorem continues_placeAll (distinct : ((intervals ++ others).map Interval.temp).Nodup)
    (ledger : Ledger options stackBase intervals state)
    (completed : state.placeAll catalog options seq others = .ok state') :
    (state.result catalog.registers).Continues (intervals.map Interval.temp)
      (state'.result catalog.registers) := by
  have once : (intervals.map Interval.temp).Nodup :=
    distinct.sublist ((List.sublist_append_left intervals others).map _)
  suffices general : ∀ (rest done : List Interval) (seq : Nat) (middle : ScanState),
      intervals ⊆ done → ((done ++ rest).map Interval.temp).Nodup →
      Ledger options stackBase done middle →
      (state.result catalog.registers).Continues (intervals.map Interval.temp)
        (middle.result catalog.registers) →
      middle.placeAll catalog options seq rest = .ok state' →
      (state.result catalog.registers).Continues (intervals.map Interval.temp)
        (state'.result catalog.registers) by
    refine general others intervals seq state (List.Subset.refl _) distinct ledger (.refl ?_)
      completed
    intro temp member
    obtain ⟨a, isDone, same⟩ := List.mem_map.mp member
    exact (ledger.covered temp).mpr ⟨a, isDone, same⟩
  intro rest
  induction rest with
  | nil =>
    intro done seq middle _ _ _ continues completed
    obtain rfl := Except.ok.inj completed
    exact continues
  | cons interval rest ih =>
    intro done seq middle within distinct ledger continues completed
    obtain ⟨next, placed, completed⟩ := bind_eq_ok.mp completed
    rw [List.append_cons] at distinct
    obtain ⟨fresh, -⟩ := PlainScan.fresh_of_beginning distinct (List.prefix_append _ _)
    have new : interval.temp ∉ intervals.map Interval.temp := by
      intro member
      obtain ⟨a, isFirst, same⟩ := List.mem_map.mp member
      exact fresh a (within isFirst) same
    have move := move_of_place placed
    exact ih (done ++ [interval]) (seq + 1) next (List.subset_append_of_subset_left _ within)
      distinct (ledger.move fresh move) (move.continues once ledger new continues) completed

end ScanState

namespace Allocator

variable {allocator : Allocator} {intervals others : List Interval} {stackBase : Nat}
  {whole : CompletedRun}

/-- **Earlier temps keep their places, or lose a register.**  If a run over two lists of intervals
completes, so does the run over the first one alone.  All its temps are placed there as in the whole
run, except for some that are in registers there and in the whole run have slots behind the frame of
the first one.  There is an eviction in the rest of the run for each of them, and none without
eviction.  No counter and no frame gets smaller. -/
theorem continues_of_completed (distinct : ((intervals ++ others).map Interval.temp).Nodup)
    (completed : allocator.runIntervals (intervals ++ others) stackBase = .ok whole) :
    ∃ run, allocator.runIntervals intervals stackBase = .ok run ∧
      run.allocation.Continues (intervals.map Interval.temp) whole.allocation ∧
      (allocator.options.eviction = false ∨ allocator.options.allStack = true →
        ∀ interval ∈ intervals, whole.allocation.assignment.get? interval.temp =
          run.allocation.assignment.get? interval.temp) := by
  have sorted := sorted_of_runIntervals completed
  have sortedFirst : sortedByStart intervals = true :=
    sortedByStart_iff.mpr ((sortedByStart_iff.mp sorted).sublist (List.sublist_append_left _ _))
  rw [runIntervals_eq_placeAll, sorted] at completed
  obtain ⟨state', placed, returned⟩ := bind_eq_ok.mp completed
  obtain rfl := pure_eq_ok.mp returned
  have ledger' := ScanState.ledger_of_placeAll distinct _ placed
  rw [ScanState.placeAll_append] at placed
  obtain ⟨state, first, rest⟩ := bind_eq_ok.mp placed
  have ledger := ScanState.ledger_of_placeAll (distinct.sublist
    ((List.sublist_append_left intervals others).map _)) _ first
  have continues : (state.result allocator.catalog.registers).Continues
      (intervals.map Interval.temp) (state'.result allocator.catalog.registers) :=
    ScanState.continues_placeAll distinct ledger rest
  have run : allocator.runIntervals intervals stackBase =
      .ok { allocation := state.result allocator.catalog.registers
            events := state.events.push state.finishedEvent
            allocator := { allocator with state } } := by
    rw [runIntervals_eq_placeAll, sortedFirst, first]
    rfl
  refine ⟨_, run, continues, ?_⟩
  intro off interval member
  exact continues.get?_eq (ledger'.quiet off) _ (List.mem_map_of_mem member)

/-- The fourth of the four intervals evicts the first, which moves to the end of the frame. -/
theorem continues_of_completed_busy :
    (busy.map Interval.temp).Nodup ∧
      ∃ whole, (ofCatalog (.small Entry.nested) {}).runIntervals (busy.take 3 ++ busy.drop 3) 16
          = .ok whole ∧
        whole.allocation.assignment.get? ⟨0⟩ = some (.stack 24) ∧
        ∃ run, (ofCatalog (.small Entry.nested) {}).runIntervals (busy.take 3) 16 = .ok run ∧
          run.allocation.Continues [⟨0⟩, ⟨1⟩, ⟨2⟩] whole.allocation := by
  have distinct : (busy.map Interval.temp).Nodup := by decide
  obtain ⟨whole, completed, moved⟩ :
      ∃ whole, (ofCatalog (.small Entry.nested) {}).runIntervals (busy.take 3 ++ busy.drop 3) 16
          = .ok whole ∧ whole.allocation.assignment.get? ⟨0⟩ = some (.stack 24) := ⟨_, rfl, rfl⟩
  obtain ⟨run, done, continues, -⟩ := continues_of_completed
    (List.take_append_drop 3 busy ▸ distinct) completed
  exact ⟨distinct, whole, completed, moved, run, done, continues⟩

end Allocator

end LinearScan
