import LinearScan.Proofs.Allocator
import LinearScan.Proofs.Plain.Crowd

/-!
# How many values a position sends to the stack

While the intervals that start at one position are placed, some of them go to the stack, and some
evict a holder that goes there instead.  There are no more of these than live values exceed
registers at the position, for any choice of spread registers that all these intervals could use.

Several intervals may start together, and one of them may evict another.  So a count of single
steps does not do.  What is counted is the moment of the *last* spill: the holders block all the
registers then, those that went to the stack before are out of the active set, and the incoming
interval is neither (`PlainScan.Bounded`).  They are all live at the position, and none of them
is counted twice.
-/

namespace LinearScan

/-- Whether a value is live at a position. -/
def Interval.isLiveAt (interval : Interval) (position : Nat) : Bool :=
  interval.start ≤ position && position ≤ interval.stop

theorem Interval.isLiveAt_iff {interval : Interval} {position : Nat} :
    interval.isLiveAt position = true ↔ interval.start ≤ position ∧ position ≤ interval.stop := by
  simp [isLiveAt]

/-- Sorted intervals fall into those that start before a position, at it, and behind it. -/
theorem eq_append_filter_start {intervals : List Interval}
    (sorted : intervals.Pairwise (·.start ≤ ·.start)) (position : Nat) :
    intervals = intervals.filter (·.start < position) ++ intervals.filter (·.start = position) ++
      intervals.filter (position < ·.start) := by
  induction intervals with
  | nil => rfl
  | cons first rest ih =>
    obtain ⟨least, sorted⟩ := List.pairwise_cons.mp sorted
    have split := ih sorted
    -- what is behind the first interval starts no earlier than it
    have noneBefore (reached : position ≤ first.start) :
        rest.filter (·.start < position) = [] := by
      refine List.filter_eq_nil_iff.mpr fun a member => ?_
      have := least a member
      simp
      omega
    have noneHere (passed : position < first.start) :
        rest.filter (·.start = position) = [] := by
      refine List.filter_eq_nil_iff.mpr fun a member => ?_
      have := least a member
      simp
      omega
    rcases Nat.lt_trichotomy first.start position with before | here | behind
    · rw [List.filter_cons_of_pos (by simpa using before), List.filter_cons_of_neg (by simp; omega),
        List.filter_cons_of_neg (by simp; omega)]
      exact congrArg (first :: ·) split
    · have nobody := noneBefore (Nat.le_of_eq here.symm)
      rw [nobody] at split
      rw [List.filter_cons_of_neg (by simp; omega), List.filter_cons_of_pos (by simpa using here),
        List.filter_cons_of_neg (by simp; omega), nobody]
      exact congrArg (first :: ·) split
    · have nobody := noneBefore (Nat.le_of_lt behind)
      rw [nobody, noneHere behind] at split
      rw [List.filter_cons_of_neg (by simp; omega), List.filter_cons_of_neg (by simp; omega),
        List.filter_cons_of_pos (by simpa using behind), nobody, noneHere behind]
      exact congrArg (first :: ·) split

namespace PlainScan

variable {catalog : Catalog} {options : Options} {scan scan' : PlainScan} {seq position : Nat}
  {done gone : List Interval} {interval : Interval} {registers : Finset RegisterId}

/-- **Those who went to the stack at a position** are live there, and if there is any, they and
as many values as there are registers are all among the live ones. -/
structure Bounded (catalog : Catalog) (registers : Finset RegisterId) (position : Nat)
    (done gone : List Interval) (scan : PlainScan) : Prop where
  housed : Housed catalog done gone scan
  live : ∀ one ∈ gone, position ≤ one.stop
  few : gone ≠ [] → gone.length + registers.card ≤ done.countP (·.isLiveAt position)

namespace Bounded

/-- All who went to the stack at the position and all who hold a register there are live, and
they are different ones. -/
theorem length_add_length_le (bounded : Bounded catalog registers position done gone scan)
    (begun : ∀ a ∈ done, a.start ≤ position) :
    gone.length + (scan.expire position).held.length ≤ done.countP (·.isLiveAt position) := by
  have expired := bounded.housed.expire position
  have allLive : ∀ a ∈ gone ++ (scan.expire position).held.map (·.interval),
      a.isLiveAt position = true := by
    intro a member
    refine Interval.isLiveAt_iff.mpr ⟨begun a (expired.parted.subset member), ?_⟩
    rcases List.mem_append.mp member with isGone | isHolder
    · exact bounded.live a isGone
    · obtain ⟨holder, holding, rfl⟩ := List.mem_map.mp isHolder
      exact (mem_held_expire.mp holding).2
  calc gone.length + (scan.expire position).held.length
    _ = (gone ++ (scan.expire position).held.map (·.interval)).length := by
      rw [List.length_append, List.length_map]
    _ = (gone ++ (scan.expire position).held.map (·.interval)).countP (·.isLiveAt position) :=
      (List.countP_eq_length.mpr allLive).symm
    _ ≤ done.countP (·.isLiveAt position) := expired.parted.countP_le _

/-- **One step** at the position keeps the bound. -/
theorem step (wellFormed : catalog.WellFormed) (allowed : options.allStack = false)
    (spread : catalog.registers.Spread registers)
    (offered : ∀ register ∈ registers, catalog.Offers interval register)
    (here : interval.start = position) (ordered : interval.start ≤ interval.stop)
    (begun : ∀ a ∈ done, a.start ≤ position)
    (bounded : Bounded catalog registers position done gone scan)
    (step : Step catalog options scan seq interval scan') :
    ∃ gone', Bounded catalog registers position (done ++ [interval]) gone' scan' ∧
      scan'.spills + gone.length = scan.spills + gone'.length := by
  subst here
  have grown : (done ++ [interval]).countP (·.isLiveAt interval.start) =
      done.countP (·.isLiveAt interval.start) + 1 := by
    rw [List.countP_append, List.countP_singleton,
      if_pos (Interval.isLiveAt_iff.mpr ⟨Nat.le_refl _, ordered⟩)]
  rcases bounded.housed.step allowed step with ⟨housed, same⟩ | ⟨blocked, one, isOne, housed, more⟩
  · refine ⟨gone, ⟨housed, bounded.live, ?_⟩, by rw [same]⟩
    intro some
    rw [grown]
    exact Nat.le_succ_of_le (bounded.few some)
  · have live : ∀ other ∈ one :: gone, interval.start ≤ other.stop := by
      refine List.forall_mem_cons.mpr ⟨?_, bounded.live⟩
      rcases List.mem_cons.mp isOne with rfl | isHolder
      · exact ordered
      · obtain ⟨holder, holding, rfl⟩ := List.mem_map.mp isHolder
        exact (mem_held_expire.mp holding).2
    -- the bound starts anew here, whatever it was: all the registers are blocked by holders
    have enough := card_le_countP_of_blocked wellFormed
      (bounded.housed.expire interval.start).offered spread offered blocked
    have all := List.countP_le_length
      (p := fun holder : Held => decide (catalog.Contends registers holder.interval))
      (l := (scan.expire interval.start).held)
    have crowd := bounded.length_add_length_le begun
    refine ⟨one :: gone, ⟨housed, live, ?_⟩, ?_⟩
    · intro _
      rw [grown, List.length_cons]
      omega
    · rw [more, List.length_cons]
      omega

/-- **All steps** at the position keep the bound. -/
theorem placeAll (wellFormed : catalog.WellFormed) (allowed : options.allStack = false)
    (spread : catalog.registers.Spread registers) (group : List Interval) :
    ∀ {scan : PlainScan} {seq : Nat} {done gone : List Interval},
      (∀ a ∈ group, a.start = position ∧ a.start ≤ a.stop ∧
        ∀ register ∈ registers, catalog.Offers a register) →
      (∀ a ∈ done, a.start ≤ position) →
      Bounded catalog registers position done gone scan →
      scan.placeAll catalog options seq group = .ok scan' →
      ∃ gone', Bounded catalog registers position (done ++ group) gone' scan' ∧
        scan'.spills + gone.length = scan.spills + gone'.length := by
  induction group with
  | nil =>
    intro scan seq done gone _ _ bounded completed
    obtain rfl := Except.ok.inj completed
    rw [List.append_nil]
    exact ⟨gone, bounded, rfl⟩
  | cons interval rest ih =>
    intro scan seq done gone group begun bounded completed
    obtain ⟨⟨here, ordered, offered⟩, others⟩ := List.forall_mem_cons.mp group
    obtain ⟨middle, placed, completed⟩ := Outcome.bind_eq_ok.mp completed
    obtain ⟨gone', bounded', counted⟩ := bounded.step wellFormed allowed spread offered here ordered
      begun (step_of_place placed)
    have begun' : ∀ a ∈ done ++ [interval], a.start ≤ position := by
      intro a member
      rcases List.mem_append.mp member with old | new
      · exact begun a old
      · rw [List.mem_singleton.mp new, here]
    obtain ⟨gone'', bounded'', counted'⟩ := ih others begun' bounded' completed
    rw [List.append_assoc] at bounded''
    exact ⟨gone'', bounded'', by omega⟩

end Bounded

end PlainScan

namespace Allocator

open Outcome

variable {catalog : Catalog} {options : Options} {allocator : Allocator}
  {intervals : List Interval} {stackBase : Nat} {run : CompletedRun}

/-- **A run passes a position**: the states of its scan before and behind the intervals that
start there. -/
structure Passes (allocator : Allocator) (intervals : List Interval) (stackBase : Nat)
    (run : CompletedRun) (position : Nat) (before behind : ScanState) : Prop where
  arrive : (allocator.state.reset stackBase).placeAll allocator.catalog allocator.options 0
    (intervals.filter (·.start < position)) = .ok before
  pass : before.placeAll allocator.catalog allocator.options
    (intervals.filter (·.start < position)).length (intervals.filter (·.start = position))
      = .ok behind
  leave : behind.placeAll allocator.catalog allocator.options
    ((intervals.filter (·.start < position)).length
      + (intervals.filter (·.start = position)).length)
    (intervals.filter (position < ·.start)) = .ok run.allocator.state

/-- A run that completes passes every position. -/
theorem exists_passes (done : allocator.runIntervals intervals stackBase = .ok run)
    (position : Nat) : ∃ before behind, Passes allocator intervals stackBase run position before
      behind := by
  have sorted := sorted_of_runIntervals done
  rw [runIntervals_eq_placeAll, sorted] at done
  obtain ⟨last, placed, returned⟩ := bind_eq_ok.mp done
  obtain rfl := pure_eq_ok.mp returned
  rw [eq_append_filter_start (sortedByStart_iff.mp sorted) position,
    ScanState.placeAll_append] at placed
  obtain ⟨behind, placed, leave⟩ := bind_eq_ok.mp placed
  rw [ScanState.placeAll_append] at placed
  obtain ⟨before, arrive, pass⟩ := bind_eq_ok.mp placed
  rw [Nat.zero_add] at pass leave
  rw [List.length_append] at leave
  exact ⟨before, behind, arrive, pass, leave⟩

/-- What passes a position in the scan passes it in the plain scan. -/
theorem Passes.exists_scans (built : catalog.Built)
    (reachable : Reachable catalog options allocator) {position : Nat} {before behind : ScanState}
    (passes : Passes allocator intervals stackBase run position before behind) :
    ∃ scan scan' : PlainScan,
      (PlainScan.start stackBase).placeAll catalog options 0
        (intervals.filter (·.start < position)) = .ok scan ∧
      scan.placeAll catalog options (intervals.filter (·.start < position)).length
        (intervals.filter (·.start = position)) = .ok scan' ∧
      before.spills = scan.spills ∧ behind.spills = scan'.spills := by
  obtain ⟨rfl, rfl, -⟩ := reachable.ready built.wellFormed
  have first := reachable.corresponds_placeAll built (intervals.filter (·.start < position))
    stackBase
  rw [passes.arrive] at first
  obtain ⟨scan, arrive, inStep⟩ := first.exists_of_ok
  have second : Corresponds _ _ _ (scan.placeAll allocator.catalog allocator.options _ _) :=
    ScanState.Refines.placeAll built.wellFormed (intervals.filter (·.start = position)) _ _ _ inStep
  rw [passes.pass] at second
  obtain ⟨scan', pass, inStep'⟩ := second.exists_of_ok
  exact ⟨scan, scan', arrive, pass, inStep.books.spills, inStep'.books.spills⟩

/-- **Spills at a position.**  While the intervals that start at a position are placed, those
that go to the stack, incoming or evicted, are no more than the values live at the position
exceed any spread registers that are offered to all these intervals. -/
theorem spills_at_position_le (built : catalog.Built)
    (reachable : Reachable catalog options allocator) (allowed : options.allStack = false)
    (ordered : ∀ interval ∈ intervals, interval.start ≤ interval.stop)
    (done : allocator.runIntervals intervals stackBase = .ok run) (position : Nat)
    {registers : Finset RegisterId} (spread : catalog.registers.Spread registers)
    (offered : ∀ interval ∈ intervals, interval.start = position →
      ∀ register ∈ registers, catalog.Offers interval register) :
    ∃ before behind, Passes allocator intervals stackBase run position before behind ∧
      before.spills ≤ behind.spills ∧
      behind.spills - before.spills
        ≤ intervals.countP (·.isLiveAt position) - registers.card := by
  obtain ⟨before, behind, passes⟩ := exists_passes done position
  obtain ⟨scan, scan', arrive, pass, spills, spills'⟩ := passes.exists_scans built reachable
  have group : ∀ a ∈ intervals.filter (·.start = position), a.start = position ∧
      a.start ≤ a.stop ∧ ∀ register ∈ registers, catalog.Offers a register := by
    intro a member
    obtain ⟨member, here⟩ := List.mem_filter.mp member
    have here := of_decide_eq_true here
    exact ⟨here, ordered a member, offered a member here⟩
  have begun : ∀ a ∈ intervals.filter (·.start < position), a.start ≤ position := by
    intro a member
    exact Nat.le_of_lt (of_decide_eq_true (List.mem_filter.mp member).2)
  have nobody : PlainScan.Bounded catalog registers position
      (intervals.filter (·.start < position)) [] scan :=
    ⟨PlainScan.housed_of_placeAll allowed arrive, by simp, fun some => (some rfl).elim⟩
  obtain ⟨gone, bounded, counted⟩ := nobody.placeAll built.wellFormed allowed spread _ group begun
    pass
  -- The intervals that start later are not live at the position.
  have all : (intervals.filter (·.start < position) ++ intervals.filter (·.start = position)).countP
      (·.isLiveAt position) ≤ intervals.countP (·.isLiveAt position) := by
    conv_rhs => rw [eq_append_filter_start (sortedByStart_iff.mp (sorted_of_runIntervals done))
      position]
    exact (List.sublist_append_left _ _).countP_le
  rw [List.length_nil, Nat.add_zero] at counted
  refine ⟨before, behind, passes, by omega, ?_⟩
  rcases eq_or_ne gone [] with rfl | some
  · rw [List.length_nil] at counted
    omega
  · have few := bounded.few some
    omega

/-- Three values that start together, while one is alive already. -/
def together : List Interval :=
  [⟨⟨0⟩, 0, 9, 8, .i64⟩, ⟨⟨1⟩, 2, 8, 8, .i64⟩, ⟨⟨2⟩, 2, 6, 4, .i32⟩, ⟨⟨3⟩, 2, 5, 8, .i64⟩]

/-- Over two registers the third value evicts the first and the fourth the second, which starts
together with it.  The bound is attained. -/
theorem spills_at_position_le_together :
    (Catalog.small Entry.nested).Built ∧
      (Catalog.small Entry.nested).registers.Spread {⟨0⟩, ⟨2⟩} ∧
      ∃ run, (ofCatalog (.small Entry.nested) {}).runIntervals together 0 = .ok run ∧
        (∃ before behind, Passes (ofCatalog (.small Entry.nested) {}) together 0 run 2 before behind ∧
          before.spills ≤ behind.spills ∧
          behind.spills - before.spills ≤ together.countP (·.isLiveAt 2) - 2) ∧
        run.allocation.spills = 2 ∧ together.countP (·.isLiveAt 2) - 2 = 2 := by
  have spread : (Catalog.small Entry.nested).registers.Spread {⟨0⟩, ⟨2⟩} := by decide
  obtain ⟨run, done, counted⟩ : ∃ run, (ofCatalog (.small Entry.nested) {}).runIntervals together 0
      = .ok run ∧ run.allocation.spills = 2 := ⟨_, rfl, rfl⟩
  exact ⟨Catalog.built_nested, spread, run, done,
    spills_at_position_le Catalog.built_nested .fresh rfl (by decide) done 2 spread (by decide),
    counted, by decide⟩

end Allocator

end LinearScan
