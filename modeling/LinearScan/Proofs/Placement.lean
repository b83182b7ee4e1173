import LinearScan.Proofs.Bank.Origin
import LinearScan.Proofs.ConflictFree

/-!
# Values fit the registers they get

A register that ends up with a value is one that the target offers for it: an entry of the
register's own lists a size that is large enough and accepts the type, and the register shares
no storage with any that was reserved.

Most of it is settled when the banks are filled (`Bank.Drawn`).  What remains for a scan is that
it never leaves the candidates of an interval (`PlainScan.Suited`).  The case to look at is
eviction, where a register changes hands without a search: it was picked for the holder that
yields, by the size and type of *that* interval.  The search that a step skips is made up for by
the bank, which admits the newcomer too.
-/

namespace LinearScan

namespace PlainScan

variable {catalog : Catalog} {options : Options} {scan scan' : PlainScan} {seq : Nat}
  {done done' : List Interval} {interval : Interval}

/-- Whoever is or was given a register has it from its own candidates. -/
structure Suited (catalog : Catalog) (done : List Interval) (scan : PlainScan) : Prop where
  holders : ∀ holder ∈ scan.held,
    (holder.register, holder.bank) ∈ candidates catalog holder.interval
  placed : ∀ a ∈ done, ∀ register, scan.assignment.get? a.temp = some (.register register) →
    ∃ place, (register, place) ∈ candidates catalog a

theorem suited_start (catalog : Catalog) (stackBase : Nat) :
    Suited catalog [] (start stackBase) := by
  refine ⟨?_, ?_⟩ <;> (intro a member; cases member)

/-- Who expires leaves the others as they are. -/
theorem Suited.expire (suited : Suited catalog done scan) (position : Nat) :
    Suited catalog done (scan.expire position) where
  holders := by
    intro holder member
    exact suited.holders holder (List.mem_filter.mp member).1
  placed := suited.placed

/-- Who goes to the stack gives no register to anyone. -/
theorem Suited.stacked (suited : Suited catalog done scan)
    (cover : ∀ a ∈ done', a = interval ∨ a ∈ done) {held : List Held} {evictions : Nat}
    (fewer : held ⊆ scan.held) :
    Suited catalog done' ({ scan with held, evictions }.stacked interval) where
  holders := by
    intro holder member
    exact suited.holders holder (fewer member)
  placed := by
    intro a member register inRegister
    rw [PlainScan.stacked, Assignment.get?_insert] at inRegister
    split at inRegister
    · cases inRegister
    · next other =>
      rcases cover a member with rfl | old
      · exact absurd rfl other
      · exact suited.placed a old register inRegister

/-- A register is taken from the candidates. -/
theorem Suited.hold (suited : Suited catalog done scan) (holder : Held)
    (fresh : ∀ a ∈ done, a.temp ≠ holder.interval.temp)
    (candidate : (holder.register, holder.bank) ∈ candidates catalog holder.interval) :
    Suited catalog (done ++ [holder.interval]) (scan.hold holder) where
  holders := List.forall_mem_cons.mpr ⟨candidate, suited.holders⟩
  placed := by
    intro a member register inRegister
    rcases get?_insert_cases (cover_append fresh) scan.assignment (.register holder.register)
      member with ⟨rfl, here⟩ | ⟨⟨old, -⟩, same⟩
    · cases here.symm.trans inRegister
      exact ⟨_, candidate⟩
    · exact suited.placed a old register (same.symm.trans inRegister)

/-- A register that is taken over from a holder is a candidate of the newcomer, because the
bank admits both. -/
theorem Suited.mem_candidates_of_victim? (suited : Suited catalog done scan) {victim : Held}
    (yields : victim? catalog options scan.held interval = some victim) :
    (victim.register, victim.bank) ∈ candidates catalog interval := by
  obtain ⟨-, latest, -, bank, found, admits⟩ := victim?_eq_some yields
  obtain ⟨bank', found', -, member⟩ :=
    mem_candidates.mp (suited.holders victim (latest?_mem latest))
  obtain rfl := Option.some.inj (found.symm.trans found')
  exact mem_candidates.mpr ⟨bank, found, admits, member⟩

/-- **One step** takes registers from candidates alone. -/
theorem Suited.step (suited : Suited catalog done scan)
    (fresh : ∀ a ∈ done, a.temp ≠ interval.temp)
    (step : Step catalog options scan seq interval scan') :
    Suited catalog (done ++ [interval]) scan' := by
  have expired := suited.expire interval.start
  have grown : ∀ a ∈ done ++ [interval], a = interval ∨ a ∈ done := by
    intro a member
    rcases List.mem_append.mp member with old | new
    · exact Or.inr old
    · exact Or.inl (List.mem_singleton.mp new)
  cases step with
  | allStack only room => exact suited.stacked grown (List.Subset.refl _)
  | @placed _ register bank picked =>
    obtain ⟨candidate, -⟩ := pick?_eq_some picked
    exact expired.hold ⟨interval, seq, register, bank⟩ fresh (mem_candidates.mpr candidate)
  | spilled allowed blocked kept room => exact expired.stacked grown (List.Subset.refl _)
  | @evicted _ _ victim yields room =>
    have candidate := expired.mem_candidates_of_victim? yields
    have stacked : Suited catalog done
        (((scan.expire interval.start).release victim).stacked victim.interval) :=
      expired.stacked (fun a member => Or.inr member) (List.erase_subset)
    exact stacked.hold ⟨interval, seq, victim.register, victim.bank⟩ fresh candidate

/-- **A whole run** takes registers from candidates alone. -/
theorem suited_of_placeAll {intervals : List Interval}
    (distinct : (intervals.map Interval.temp).Nodup) {stackBase : Nat}
    (completed : (start stackBase).placeAll catalog options 0 intervals = .ok scan) :
    Suited catalog intervals scan := by
  refine placeAll_induction (motive := Suited catalog) intervals ?_
    (suited_start catalog stackBase) completed
  intro done interval scan scan' beginning suited step
  exact suited.step (fresh_of_beginning distinct beginning).1 step

end PlainScan

/-- **A register that is right for a value**, by what the target says of it. -/
structure Target.Suits (target : Target) (reserved : RegisterId → Prop) (interval : Interval)
    (register : RegisterId) : Prop where
  /-- An entry of its own takes the type, and a size that is neither too small for the value nor
  too large for the register. -/
  offered : ∃ entry ∈ target.entries, entry.register = register ∧
    entry.accepts.accepts interval.type = true ∧
    ∃ size ∈ entry.sizes, interval.size ≤ size ∧
      ∃ declared, target.registers.get? register = some declared ∧ size ≤ declared.size
  /-- It shares no storage with a reserved register. -/
  clear : ∀ other, reserved other → target.registers.intersects register other = false

/-- A candidate is right for its interval. -/
theorem Target.Reserves.suits {target : Target} {reserved : RegisterId → Prop} {catalog : Catalog}
    (reserves : target.Reserves reserved) (agreeing : target.Agreeing)
    (built : Catalog.build target = .ok catalog) {interval : Interval} {register : RegisterId}
    {place : BankRef} (candidate : (register, place) ∈ PlainScan.candidates catalog interval) :
    target.Suits reserved interval register := by
  obtain ⟨bank, found, admits, member⟩ := PlainScan.mem_candidates.mp candidate
  have drawn := Catalog.drawn_of_build reserves.reachable built found
  obtain ⟨usable, entry, isEntry, rfl, ⟨size, served, fits⟩, accepts⟩ :=
    drawn.exists_entry agreeing admits member
  obtain ⟨declared, inFile, -, small⟩ := reserves.reachable.size_le entry isEntry size served
  exact ⟨⟨entry, isEntry, rfl, accepts, size, served, fits, declared, inFile, small⟩,
    ((reserves.registers.isUsable_iff entry.register).mp usable).2⟩

namespace Allocator

variable {catalog : Catalog} {options : Options} {allocator : Allocator} {stackBase : Nat}
  {run : CompletedRun}

/-- In a completed run over a program, registers are taken from candidates alone. -/
theorem Reachable.suited_runFrom (built : catalog.Built)
    (reachable : Reachable catalog options allocator) {operations : List Operation}
    (done : allocator.runFrom operations stackBase = .ok run) :
    ∃ scan, PlainScan.Suited catalog (Liveness.ofOperations operations).intervals scan ∧
      scan.assignment = run.allocation.assignment := by
  obtain ⟨inner, completed, same⟩ := exists_runIntervals done
  obtain ⟨scan, placed, allocation⟩ := reachable.exists_scan built completed
  refine ⟨scan, PlainScan.suited_of_placeAll (Liveness.nodup_intervals operations) placed, ?_⟩
  rw [← same, allocation]
  rfl

/-- **Placement.**  Whatever register a value ends up with is one that the target offers for its
size and type, apart from all that was reserved. -/
theorem suits_of_reachable {target : Target} {reserved : RegisterId → Prop}
    (reserves : target.Reserves reserved) (agreeing : target.Agreeing)
    (built : Catalog.build target = .ok catalog)
    (reachable : Reachable catalog options allocator) :
    (∀ operations stackBase run, allocator.runFrom operations stackBase = .ok run →
      ∀ interval ∈ (Liveness.ofOperations operations).intervals, ∀ register,
        run.allocation.assignment.get? interval.temp = some (.register register) →
        target.Suits reserved interval register) ∧
    (∀ operations run, allocator.run operations = .ok run →
      ∀ interval ∈ (Liveness.ofOperations operations).intervals, ∀ register,
        run.allocation.assignment.get? interval.temp = some (.register register) →
        target.Suits reserved interval register) := by
  have ofProgram : ∀ operations stackBase run, allocator.runFrom operations stackBase = .ok run →
      ∀ interval ∈ (Liveness.ofOperations operations).intervals, ∀ register,
        run.allocation.assignment.get? interval.temp = some (.register register) →
        target.Suits reserved interval register := by
    intro operations stackBase run done interval member register inRegister
    obtain ⟨scan, suited, same⟩ :=
      reachable.suited_runFrom ⟨target, reserves.reachable, built⟩ done
    rw [← same] at inRegister
    obtain ⟨place, candidate⟩ := suited.placed interval member register inRegister
    exact reserves.suits agreeing built candidate
  exact ⟨ofProgram, fun operations run done => ofProgram operations _ run done⟩

end Allocator

namespace Target

/-- The nested target whose narrow register, and with it the first wide one, is taken out of
use. -/
def reduced : Target :=
  ⟨"small", ⟨RegisterFile.reserve (RegisterFile.ofBuilder .small).registers [⟨0⟩, ⟨1⟩],
    RegisterBuilder.small.byName⟩, Entry.nested⟩

theorem reserves_reduced :
    reduced.Reserves fun other => other = ⟨1⟩ ∨ RegisterBuilder.small.Flagged other := by
  have found : (RegisterFile.ofBuilder .small).lookup? "h0" = some ⟨1⟩ := by
    show RegisterBuilder.small.byName["h0"]? = some ⟨1⟩
    simp [RegisterBuilder.small, RegisterBuilder.add, RegisterBuilder.link,
      RegisterBuilder.addOverlap, RegisterBuilder.update, RegisterBuilder.nextId,
      RegisterBuilder.empty, Std.HashMap.getElem_insert]
  have made : Target.make "small" (.ofBuilder .small) Entry.nested
      = .ok ⟨"small", .ofBuilder .small, Entry.nested⟩ := rfl
  have disabled : (Target.mk "small" (.ofBuilder .small) Entry.nested).disable "h0"
      = .ok reduced := by
    rw [Target.disable, RegisterFile.disable_of_some found]
    rfl
  exact .disable (.make (.build RegisterBuilder.reachable_small) made) found disabled

end Target

namespace Allocator

/-- A narrow value that outlives a wide one. -/
def enclosing : List Operation :=
  let narrow : Temp := .ofType ⟨0⟩ .i32
  let wide : Temp := .ofType ⟨1⟩ .i64
  [⟨[], some narrow, none⟩, ⟨[], some wide, none⟩, ⟨[], none, some wide⟩, ⟨[narrow], none, none⟩]

/-- One wide register is left.  It is picked for the narrow value, and passes on to the wide
one. -/
theorem suits_enclosing :
    ∃ catalog, Catalog.build Target.reduced = .ok catalog ∧
      Target.reduced.Reserves (fun other => other = ⟨1⟩ ∨ RegisterBuilder.small.Flagged other) ∧
      Target.reduced.Agreeing ∧
      ∃ run, (ofCatalog catalog {}).runFrom enclosing 16 = .ok run ∧
        run.allocation.assignment.get? ⟨0⟩ = some (.stack 16) ∧
        run.allocation.assignment.get? ⟨1⟩ = some (.register ⟨2⟩) ∧
        Target.reduced.Suits (fun other => other = ⟨1⟩ ∨ RegisterBuilder.small.Flagged other)
          ⟨⟨1⟩, 1, 2, 8, .i64⟩ ⟨2⟩ := by
  have agreeing : Target.reduced.Agreeing := by
    refine Target.agreeing_of_builtin ?_
    simp [Target.reduced, Entry.nested, TypePredicate.builtin]
  have intervals : (Liveness.ofOperations enclosing).intervals
      = [⟨⟨0⟩, 0, 3, 4, .i32⟩, ⟨⟨1⟩, 1, 2, 8, .i64⟩] := by
    rw [Liveness.intervals_eq]
    rfl
  have built : Catalog.build Target.reduced = .ok (.filled .reduced) := Catalog.build_of_served rfl
  refine ⟨_, built, Target.reserves_reduced, agreeing, ?_⟩
  obtain ⟨run, done, narrow, wide⟩ :
      ∃ run, (ofCatalog (.filled .reduced) {}).runFrom enclosing 16 = .ok run ∧
        run.allocation.assignment.get? ⟨0⟩ = some (.stack 16) ∧
        run.allocation.assignment.get? ⟨1⟩ = some (.register ⟨2⟩) := by
    rw [runFrom_eq, intervals]
    exact ⟨_, rfl, rfl, rfl⟩
  refine ⟨run, done, narrow, wide, ?_⟩
  refine (suits_of_reachable Target.reserves_reduced agreeing built .fresh).1 enclosing 16 run done
    ⟨⟨1⟩, 1, 2, 8, .i64⟩ ?_ ⟨2⟩ wide
  rw [intervals]
  exact List.mem_cons_of_mem _ List.mem_cons_self

end Allocator

end LinearScan
