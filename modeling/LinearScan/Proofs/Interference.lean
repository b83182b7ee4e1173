import LinearScan.Proofs.Overflow
import LinearScan.Proofs.Plain.Crowd
import Mathlib.Data.List.Find

/-!
# Values that do not interfere

Integers and vectors usually live in registers that have nothing to do with each other.  One would
expect that the integers of a program get the registers that they would get if the vectors were not
there.  With eviction this is wrong: the holder that expires last may be a vector, and whether an
integer is evicted or not depends on that.  Without eviction it holds, for any two groups of
intervals with no storage in common (`Catalog.Independent`).

The scan of all intervals and the scan of one group run at different speeds.  Intervals of the other
group come in between, take registers, and **let holders expire earlier** than the scan of the group
alone would notice.  `PlainScan.Shadows` therefore compares the two scans from a position on: what
has ended before it may be a holder in one scan and none in the other.
-/

namespace LinearScan

/-- No register that one interval could get overlaps one that another interval could get. -/
def Catalog.Independent (catalog : Catalog) (a b : Interval) : Prop :=
  ∀ bank ∈ catalog.banks, bank.admits a.type a.size = true →
    ∀ other ∈ catalog.banks, other.admits b.type b.size = true →
      ∀ register ∈ bank.registers, ∀ taken ∈ other.registers,
        catalog.registers.intersects register taken = false

instance (catalog : Catalog) (a b : Interval) : Decidable (catalog.Independent a b) :=
  inferInstanceAs (Decidable (∀ bank ∈ catalog.banks, _ → ∀ other ∈ catalog.banks, _ →
    ∀ register ∈ bank.registers, ∀ taken ∈ other.registers, _))

namespace PlainScan

variable {catalog : Catalog} {options : Options} {scan scan' whole whole' alone alone' : PlainScan}
  {seq seq' position : Nat} {done intervals : List Interval} {interval a : Interval}
  {register : RegisterId} {inGroup : Interval → Bool}

/-- Candidates of independent intervals share no storage. -/
theorem intersects_of_independent {b : Interval} (independent : catalog.Independent a b)
    {taken : RegisterId} {place place' : BankRef}
    (candidate : (register, place) ∈ candidates catalog a)
    (candidate' : (taken, place') ∈ candidates catalog b) :
    catalog.registers.intersects register taken = false := by
  obtain ⟨bank, isBank, admits, member⟩ := Catalog.offers_iff.mpr ⟨place, candidate⟩
  obtain ⟨other, isOther, admits', member'⟩ := Catalog.offers_iff.mpr ⟨place', candidate'⟩
  exact independent bank isBank admits other isOther admits' register member taken member'

/-- Without eviction, an interval gets a clear register, or goes to the stack. -/
theorem Step.held_or_stacked (keeps : options.eviction = false) (allowed : options.allStack = false)
    (step : Step catalog options scan seq interval scan') :
    (∃ register bank,
      pick? catalog (scan.expire interval.start).held interval = some (register, bank) ∧
        scan' = (scan.expire interval.start).hold { interval, seq, register, bank }) ∨
      pick? catalog (scan.expire interval.start).held interval = none ∧
        scan' = (scan.expire interval.start).stacked interval := by
  cases step with
  | allStack only room =>
    rw [allowed] at only
    cases only
  | placed _ picked => exact Or.inl ⟨_, _, picked, rfl⟩
  | spilled _ blocked kept room => exact Or.inr ⟨blocked, rfl⟩
  | evicted _ blocked yields room =>
    have evicts := (victim?_eq_some yields).1
    rw [keeps] at evicts
    cases evicts

/-! ## Who holds what -/

/-- An interval holds a register. -/
def Holds (scan : PlainScan) (interval : Interval) (register : RegisterId) : Prop :=
  ∃ holder ∈ scan.held, holder.interval = interval ∧ holder.register = register

theorem holds_expire :
    (scan.expire position).Holds a register ↔ scan.Holds a register ∧ position ≤ a.stop := by
  constructor
  · rintro ⟨holder, member, rfl, rfl⟩
    obtain ⟨isHolder, alive⟩ := mem_held_expire.mp member
    exact ⟨⟨holder, isHolder, rfl, rfl⟩, alive⟩
  · rintro ⟨⟨holder, isHolder, rfl, rfl⟩, alive⟩
    exact ⟨holder, mem_held_expire.mpr ⟨isHolder, alive⟩, rfl, rfl⟩

theorem holds_hold {holder : Held} :
    (scan.hold holder).Holds a register ↔
      (holder.interval = a ∧ holder.register = register) ∨ scan.Holds a register := by
  simp [Holds, hold]

/-- A register is clear if whatever is held shares no storage with it. -/
theorem isClear_iff_holds {file : RegisterFile} :
    isClear file scan.held register = true ↔
      ∀ b taken, scan.Holds b taken → file.intersects taken register = false := by
  rw [isClear_iff]
  constructor
  · rintro clear b taken ⟨holder, isHolder, rfl, rfl⟩
    exact clear holder isHolder
  · intro clear holder isHolder
    exact clear _ _ ⟨holder, isHolder, rfl, rfl⟩

/-- Holders have candidates of their own. -/
theorem Housed.candidate_of_holds (housed : Housed catalog done [] scan)
    (holds : scan.Holds a register) :
    a ∈ done ∧ ∃ place, (register, place) ∈ candidates catalog a := by
  obtain ⟨holder, isHolder, rfl, rfl⟩ := holds
  have isDone : holder.interval ∈ done :=
    housed.parted.subset (List.mem_append_right _ (List.mem_map_of_mem isHolder))
  exact ⟨isDone, holder.bank, housed.offered holder isHolder⟩

/-! ## In step on a group -/

/-- **The scan of a group alone is the shadow of the scan of all intervals**, from a position on:
members of the group that have not ended hold the same registers in both scans. -/
structure Shadows (inGroup : Interval → Bool) (done : List Interval) (position : Nat)
    (whole alone : PlainScan) : Prop where
  only : ∀ a register, alone.Holds a register → inGroup a = true
  holds : ∀ a register, inGroup a = true → position ≤ a.stop →
    (whole.Holds a register ↔ alone.Holds a register)
  places : ∀ a ∈ done, inGroup a = true → ∀ register,
    whole.assignment.get? a.temp = some (.register register) ↔
      alone.assignment.get? a.temp = some (.register register)

theorem shadows_start (inGroup : Interval → Bool) (stackBase stackBase' : Nat) :
    Shadows inGroup [] 0 (start stackBase) (start stackBase') where
  only := by
    rintro a register ⟨holder, member, -⟩
    cases member
  holds := fun _ _ _ _ => Iff.rfl
  places := by simp

namespace Shadows

/-- Expiry in the scan of all intervals moves the comparison on. -/
theorem expire (shadows : Shadows inGroup done position whole alone) {next : Nat}
    (later : position ≤ next) : Shadows inGroup done next (whole.expire next) alone where
  only := shadows.only
  holds := by
    intro a register member alive
    rw [holds_expire, shadows.holds a register member (Nat.le_trans later alive)]
    exact and_iff_left alive
  places := shadows.places

/-- Expiry in the scan of the group follows. -/
theorem catchUp (shadows : Shadows inGroup done position whole alone) :
    Shadows inGroup done position whole (alone.expire position) where
  only := by
    intro a register held
    exact shadows.only a register (holds_expire.mp held).1
  holds := by
    intro a register member alive
    rw [shadows.holds a register member alive, holds_expire]
    exact (and_iff_left alive).symm
  places := shadows.places

/-- **Both scans find the same registers clear** for an interval of the group: what the other group
holds is out of its reach. -/
theorem isClear_eq (wellFormed : catalog.WellFormed)
    (shadows : Shadows inGroup done interval.start whole alone)
    (alive : ∀ a register, whole.Holds a register ∨ alone.Holds a register →
      interval.start ≤ a.stop)
    (housed : Housed catalog done [] whole)
    (independent : ∀ b ∈ done, inGroup b = false → catalog.Independent interval b)
    {place : BankRef} (candidate : (register, place) ∈ candidates catalog interval) :
    isClear catalog.registers whole.held register
      = isClear catalog.registers alone.held register := by
  rw [Bool.eq_iff_iff, isClear_iff_holds, isClear_iff_holds]
  constructor
  · intro clear b taken held
    exact clear b taken ((shadows.holds b taken (shadows.only b taken held)
      (alive b taken (Or.inr held))).mpr held)
  · intro clear b taken held
    cases member : inGroup b with
    | true =>
      exact clear b taken ((shadows.holds b taken member (alive b taken (Or.inl held))).mp held)
    | false =>
      obtain ⟨isDone, place', candidate'⟩ := housed.candidate_of_holds held
      rw [wellFormed.intersects_comm]
      exact intersects_of_independent (independent b isDone member) candidate candidate'

/-- Both scans pick the same register for an interval of the group. -/
theorem pick?_eq (wellFormed : catalog.WellFormed)
    (shadows : Shadows inGroup done position whole alone) (later : position ≤ interval.start)
    (housed : Housed catalog done [] whole)
    (independent : ∀ b ∈ done, inGroup b = false → catalog.Independent interval b) :
    pick? catalog (whole.expire interval.start).held interval
      = pick? catalog (alone.expire interval.start).held interval := by
  refine List.find?_congr fun candidate member => ?_
  refine (shadows.expire later).catchUp.isClear_eq wellFormed ?_ (housed.expire _) independent
    member
  rintro a register (held | held)
  · exact (holds_expire.mp held).2
  · exact (holds_expire.mp held).2

/-- A new interval of the other group is assigned a place. -/
theorem places_other (shadows : Shadows inGroup done position whole alone)
    (outside : inGroup interval = false) (fresh : ∀ a ∈ done, a.temp ≠ interval.temp)
    (place : Location) :
    ∀ a ∈ done ++ [interval], inGroup a = true → ∀ register,
      (whole.assignment.insert interval.temp place).get? a.temp = some (.register register) ↔
        alone.assignment.get? a.temp = some (.register register) := by
  intro a member inside register
  rcases get?_insert_cases (cover_append fresh) whole.assignment place member with
    ⟨rfl, -⟩ | ⟨⟨old, -⟩, same⟩
  · rw [outside] at inside
    cases inside
  · rw [same]
    exact shadows.places a old inside register

/-- A new interval of the group is assigned the same register in both scans, or none. -/
theorem places_member (shadows : Shadows inGroup done position whole alone)
    (fresh : ∀ a ∈ done, a.temp ≠ interval.temp) {place place' : Location}
    (agree : ∀ register, place = .register register ↔ place' = .register register) :
    ∀ a ∈ done ++ [interval], inGroup a = true → ∀ register,
      (whole.assignment.insert interval.temp place).get? a.temp = some (.register register) ↔
        (alone.assignment.insert interval.temp place').get? a.temp
          = some (.register register) := by
  intro a member inside register
  rw [Assignment.get?_insert, Assignment.get?_insert]
  split
  · simp [agree]
  · next differs =>
    rcases cover_append fresh a member with rfl | ⟨old, -⟩
    · exact absurd rfl differs
    · exact shadows.places a old inside register

/-- **One step of the other group** is no step of the group. -/
theorem step_other (keeps : options.eviction = false) (allowed : options.allStack = false)
    (shadows : Shadows inGroup done position whole alone) (later : position ≤ interval.start)
    (outside : inGroup interval = false) (fresh : ∀ a ∈ done, a.temp ≠ interval.temp)
    (step : Step catalog options whole seq interval whole') :
    Shadows inGroup (done ++ [interval]) interval.start whole' alone := by
  have expired := shadows.expire later
  rcases step.held_or_stacked keeps allowed with ⟨register, bank, -, rfl⟩ | ⟨-, rfl⟩
  · refine ⟨shadows.only, ?_, expired.places_other outside fresh _⟩
    intro a taken inside alive
    rw [holds_hold, ← expired.holds a taken inside alive]
    refine or_iff_right ?_
    rintro ⟨rfl, -⟩
    rw [outside] at inside
    cases inside
  · exact ⟨shadows.only, expired.holds, expired.places_other outside fresh _⟩

/-- **One step of the group** is taken alike by both scans. -/
theorem step_member (wellFormed : catalog.WellFormed) (keeps : options.eviction = false)
    (allowed : options.allStack = false) (shadows : Shadows inGroup done position whole alone)
    (later : position ≤ interval.start) (housed : Housed catalog done [] whole)
    (independent : ∀ b ∈ done, inGroup b = false → catalog.Independent interval b)
    (inside : inGroup interval = true) (fresh : ∀ a ∈ done, a.temp ≠ interval.temp)
    (step : Step catalog options whole seq interval whole')
    (step' : Step catalog options alone seq' interval alone') :
    Shadows inGroup (done ++ [interval]) interval.start whole' alone' := by
  have expired := (shadows.expire later).catchUp
  have same := shadows.pick?_eq wellFormed later housed independent
  rcases step.held_or_stacked keeps allowed with ⟨register, bank, picked, rfl⟩ | ⟨blocked, rfl⟩
  · rcases step'.held_or_stacked keeps allowed with
      ⟨register', bank', picked', rfl⟩ | ⟨blocked', rfl⟩
    · obtain ⟨rfl, rfl⟩ := Prod.mk.inj (Option.some.inj (picked.symm.trans (same.trans picked')))
      refine ⟨?_, ?_, expired.places_member fresh fun _ => Iff.rfl⟩
      · intro a taken held
        rcases holds_hold.mp held with ⟨rfl, -⟩ | old
        · exact inside
        · exact expired.only a taken old
      · intro a taken member alive
        rw [holds_hold, holds_hold, expired.holds a taken member alive]
    · cases picked.symm.trans (same.trans blocked')
  · rcases step'.held_or_stacked keeps allowed with ⟨register', bank', picked', rfl⟩ | ⟨-, rfl⟩
    · cases blocked.symm.trans (same.trans picked')
    · exact ⟨expired.only, expired.holds, expired.places_member fresh fun _ => by simp⟩

end Shadows

/-- **A whole run** and the run of a group alone. -/
theorem shadows_placeAll (wellFormed : catalog.WellFormed) (keeps : options.eviction = false)
    (allowed : options.allStack = false) (sorted : intervals.Pairwise (·.start ≤ ·.start))
    (distinct : (intervals.map Interval.temp).Nodup)
    (independent : ∀ a ∈ intervals, inGroup a = true → ∀ b ∈ intervals, inGroup b = false →
      catalog.Independent a b) {stackBase stackBase' : Nat}
    (completed : (start stackBase).placeAll catalog options 0 intervals = .ok whole)
    (completed' : (start stackBase').placeAll catalog options 0 (intervals.filter inGroup)
      = .ok alone) :
    ∃ position, Shadows inGroup intervals position whole alone := by
  suffices general : ∀ (rest done : List Interval) (position seq seq' : Nat)
      (scan scan' : PlainScan), done ++ rest = intervals → (∀ a ∈ rest, position ≤ a.start) →
      Housed catalog done [] scan → Shadows inGroup done position scan scan' →
      scan.placeAll catalog options seq rest = .ok whole →
      scan'.placeAll catalog options seq' (rest.filter inGroup) = .ok alone →
      ∃ position, Shadows inGroup intervals position whole alone from
    general intervals [] 0 0 0 _ _ rfl (fun _ _ => Nat.zero_le _) (housed_start catalog stackBase)
      (shadows_start inGroup stackBase stackBase') completed completed'
  intro rest
  induction rest with
  | nil =>
    intro done position seq seq' scan scan' isAll _ _ shadows completed completed'
    obtain rfl := Except.ok.inj completed
    obtain rfl := Except.ok.inj completed'
    rw [List.append_nil] at isAll
    exact ⟨position, isAll ▸ shadows⟩
  | cons interval rest ih =>
    intro done position seq seq' scan scan' isAll later housed shadows completed completed'
    obtain ⟨middle, placed, completed⟩ := Outcome.bind_eq_ok.mp completed
    have step := step_of_place placed
    rw [List.append_cons] at isAll
    obtain ⟨fresh, -⟩ := fresh_of_beginning distinct ⟨rest, isAll⟩
    have reached : position ≤ interval.start := later interval List.mem_cons_self
    have starts : ∀ a ∈ rest, interval.start ≤ a.start := by
      rw [← isAll, List.pairwise_append] at sorted
      exact sorted.2.2 interval (List.mem_append_right _ List.mem_cons_self)
    have housed' : Housed catalog (done ++ [interval]) [] middle := by
      rcases housed.step allowed step with ⟨housed, -⟩ | ⟨-, one, -, housed, -⟩
      · exact housed
      · exact housed.forget
    cases inside : inGroup interval with
    | true =>
      rw [List.filter_cons_of_pos inside] at completed'
      obtain ⟨middle', placed', completed'⟩ := Outcome.bind_eq_ok.mp completed'
      have apart : ∀ b ∈ done, inGroup b = false → catalog.Independent interval b := by
        intro b isDone
        exact independent interval (by simp [← isAll]) inside b (by simp [← isAll, isDone])
      exact ih _ _ _ _ _ _ isAll starts housed' (shadows.step_member wellFormed keeps allowed
        reached housed apart inside fresh step (step_of_place placed')) completed completed'
    | false =>
      rw [List.filter_cons_of_neg (by simp [inside])] at completed'
      exact ih _ _ _ _ _ _ isAll starts housed'
        (shadows.step_other keeps allowed reached inside fresh step) completed completed'

end PlainScan

/-- One wide register for integers, and one for vectors. -/
def Entry.split : List Entry :=
  [⟨⟨0⟩, [8], .integer⟩, ⟨⟨2⟩, [8], .sse⟩]

theorem Catalog.built_split : (Catalog.small Entry.split).Built :=
  built_small rfl rfl

namespace Allocator

variable {catalog : Catalog} {options : Options} {allocator allocator' : Allocator}
  {intervals : List Interval} {inGroup : Interval → Bool} {stackBase stackBase' : Nat}

/-- **No interference.**  Without eviction, the intervals of a group that has no storage in common
with the other intervals get the registers that they get in a run of their own: the same ones, and
none where they would get none. -/
theorem registers_of_independent (built : catalog.Built)
    (reachable : Reachable catalog options allocator)
    (reachable' : Reachable catalog options allocator') (keeps : options.eviction = false)
    (allowed : options.allStack = false) (sorted : intervals.Pairwise (·.start ≤ ·.start))
    (distinct : (intervals.map Interval.temp).Nodup)
    (independent : ∀ a ∈ intervals, inGroup a = true → ∀ b ∈ intervals, inGroup b = false →
      catalog.Independent a b)
    (fits : FitsFrame (allocator.runIntervals intervals stackBase))
    (fits' : FitsFrame (allocator'.runIntervals (intervals.filter inGroup) stackBase')) :
    ∃ whole alone, allocator.runIntervals intervals stackBase = .ok whole ∧
      allocator'.runIntervals (intervals.filter inGroup) stackBase' = .ok alone ∧
      ∀ a ∈ intervals, inGroup a = true → ∀ register,
        whole.allocation.assignment.get? a.temp = some (.register register) ↔
          alone.allocation.assignment.get? a.temp = some (.register register) := by
  obtain ⟨whole, done⟩ := reachable.exists_of_fitsFrame built sorted fits
  obtain ⟨alone, done'⟩ := reachable'.exists_of_fitsFrame built (sorted.filter _) fits'
  obtain ⟨scan, placed, same⟩ := reachable.exists_scan built done
  obtain ⟨scan', placed', same'⟩ := reachable'.exists_scan built done'
  obtain ⟨position, shadows⟩ := PlainScan.shadows_placeAll built.wellFormed keeps allowed sorted
    distinct independent placed placed'
  refine ⟨whole, alone, done, done', ?_⟩
  rw [same, same']
  exact shadows.places

/-- Integers and vectors by turns, with one value of each kind too many. -/
def mixed : List Interval :=
  [⟨⟨0⟩, 0, 9, 8, .i64⟩, ⟨⟨1⟩, 1, 4, 8, .f64⟩, ⟨⟨2⟩, 2, 8, 8, .f64⟩, ⟨⟨3⟩, 5, 7, 8, .i64⟩,
    ⟨⟨4⟩, 6, 8, 8, .f64⟩]

/-- Two vectors have the one register in turn, and the third is on the stack, with and without the
integers. -/
theorem registers_of_independent_mixed :
    (Catalog.small Entry.split).Built ∧ mixed.Pairwise (·.start ≤ ·.start) ∧
      (mixed.map Interval.temp).Nodup ∧
      ∃ whole alone,
        (ofCatalog (.small Entry.split) { eviction := false }).runIntervals mixed 0 = .ok whole ∧
        (ofCatalog (.small Entry.split) { eviction := false }).runIntervals
          (mixed.filter (·.type = .f64)) 32 = .ok alone ∧
        (∀ a ∈ mixed, decide (a.type = .f64) = true → ∀ register,
          whole.allocation.assignment.get? a.temp = some (.register register) ↔
            alone.allocation.assignment.get? a.temp = some (.register register)) ∧
        alone.allocation.assignment.entries =
          [(⟨1⟩, .register ⟨2⟩), (⟨2⟩, .stack 32), (⟨4⟩, .register ⟨2⟩)] := by
  have sorted : mixed.Pairwise (·.start ≤ ·.start) := by decide
  have distinct : (mixed.map Interval.temp).Nodup := by decide
  have independent : ∀ a ∈ mixed, decide (a.type = .f64) = true → ∀ b ∈ mixed,
      decide (b.type = .f64) = false → (Catalog.small Entry.split).Independent a b := by decide
  obtain ⟨whole, done⟩ : ∃ whole,
      (ofCatalog (.small Entry.split) { eviction := false }).runIntervals mixed 0 = .ok whole :=
    ⟨_, rfl⟩
  obtain ⟨alone, done', places⟩ : ∃ alone,
      (ofCatalog (.small Entry.split) { eviction := false }).runIntervals
        (mixed.filter (·.type = .f64)) 32 = .ok alone ∧
      alone.allocation.assignment.entries =
        [(⟨1⟩, .register ⟨2⟩), (⟨2⟩, .stack 32), (⟨4⟩, .register ⟨2⟩)] := ⟨_, rfl, rfl⟩
  obtain ⟨whole', alone', isWhole, isAlone, same⟩ := registers_of_independent Catalog.built_split
    .fresh .fresh rfl rfl sorted distinct independent (fitsFrame_of_ok done) (fitsFrame_of_ok done')
  obtain rfl := Except.ok.inj (done'.symm.trans isAlone)
  exact ⟨Catalog.built_split, sorted, distinct, whole', alone, isWhole, isAlone, same, places⟩

end Allocator

end LinearScan
