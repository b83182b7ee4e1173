import LinearScan.Proofs.Assignment
import LinearScan.Proofs.Plain.Scan
import Mathlib.Data.List.Nodup

/-!
# No two live values share storage

What a scan is for: temps that are live at one position get places that do not overlap.
`ConflictFree` says so of an assignment, for registers and for slots of the spill area.

It holds after every step, but a step alone cannot show it.  `PlainScan.Sound` is the
invariant that can: holders have the registers they are assigned, no two of them overlap,
and **a temp in a register that is not among the holders ended before the current position**.
So whoever overlaps the incoming interval and lives in a register is a holder, and clear of
the holders is clear of them all.  When a holder is evicted its register is as clear as it
was, because the holders were apart before.

Slots are simpler.  All of them lie below the cursor, and a new one starts there.
-/

namespace LinearScan

/-- Two values, each of the given size, may live in their places at one time. -/
def Location.Apart (file : RegisterFile) : Location → Nat → Location → Nat → Prop
  | .register a, _, .register b, _ => file.intersects a b = false
  | .stack offset, size, .stack offset', size' => offset + size ≤ offset' ∨ offset' + size' ≤ offset
  | _, _, _, _ => True

/-- Being apart is symmetric if overlap is. -/
theorem Location.Apart.symm {file : RegisterFile} {place place' : Location} {size size' : Nat}
    (intersects_comm : ∀ a b, file.intersects a b = file.intersects b a)
    (apart : place.Apart file size place' size') : place'.Apart file size' place size := by
  cases place with
  | register a =>
    cases place' with
    | register b => exact (intersects_comm b a).trans apart
    | stack offset' => trivial
  | stack offset =>
    cases place' with
    | register b => trivial
    | stack offset' => exact Or.symm apart

/-- Temps whose intervals overlap live apart. -/
def ConflictFree (file : RegisterFile) (intervals : List Interval) (assignment : Assignment) :
    Prop :=
  ∀ a ∈ intervals, ∀ b ∈ intervals, a.temp ≠ b.temp → a.overlaps b = true →
    ∀ place place', assignment.get? a.temp = some place → assignment.get? b.temp = some place' →
      place.Apart file a.size place' b.size

/-- Where one interval is assigned, the others keep their places. -/
theorem get?_insert_cases {done done' : List Interval} {interval : Interval}
    (cover : ∀ a ∈ done', a = interval ∨ a ∈ done ∧ a.temp ≠ interval.temp)
    (assignment : Assignment) (place : Location) {a : Interval} (member : a ∈ done') :
    a = interval ∧ (assignment.insert interval.temp place).get? a.temp = some place ∨
      (a ∈ done ∧ a.temp ≠ interval.temp) ∧
        (assignment.insert interval.temp place).get? a.temp = assignment.get? a.temp := by
  rw [Assignment.get?_insert]
  rcases cover a member with rfl | ⟨old, other⟩
  · exact Or.inl ⟨rfl, if_pos rfl⟩
  · exact Or.inr ⟨⟨old, other⟩, if_neg other⟩

/-- A place that is apart from all that is live beside it may be assigned. -/
theorem ConflictFree.insert {file : RegisterFile} {done done' : List Interval}
    {assignment : Assignment} {interval : Interval} {place : Location}
    (intersects_comm : ∀ a b, file.intersects a b = file.intersects b a)
    (free : ConflictFree file done assignment)
    (cover : ∀ a ∈ done', a = interval ∨ a ∈ done ∧ a.temp ≠ interval.temp)
    (apart : ∀ a ∈ done, a.temp ≠ interval.temp → a.overlaps interval = true →
      ∀ place', assignment.get? a.temp = some place' →
        place'.Apart file a.size place interval.size) :
    ConflictFree file done' (assignment.insert interval.temp place) := by
  intro a memberA b memberB differ overlap placeA placeB atA atB
  rcases get?_insert_cases cover assignment place memberA with ⟨rfl, here⟩ | ⟨⟨oldA, otherA⟩, sameA⟩
  · rcases get?_insert_cases cover assignment place memberB with ⟨rfl, -⟩ | ⟨⟨oldB, otherB⟩, sameB⟩
    · exact absurd rfl differ
    · obtain rfl := Option.some.inj (here.symm.trans atA)
      rw [Interval.overlaps_comm] at overlap
      exact (apart b oldB otherB overlap placeB (sameB.symm.trans atB)).symm intersects_comm
  · have oldA' := sameA.symm.trans atA
    rcases get?_insert_cases cover assignment place memberB with ⟨rfl, here⟩ | ⟨⟨oldB, -⟩, sameB⟩
    · obtain rfl := Option.some.inj (here.symm.trans atB)
      exact apart a oldA otherA overlap placeA oldA'
    · exact free a oldA b oldB differ overlap placeA placeB oldA' (sameB.symm.trans atB)

namespace PlainScan

variable {catalog : Catalog} {options : Options} {scan scan' : PlainScan} {seq position : Nat}
  {done done' : List Interval} {interval : Interval}

/-- **The invariant of a scan** that has placed some intervals and is at a position. -/
structure Sound (file : RegisterFile) (done : List Interval) (position : Nat) (scan : PlainScan) :
    Prop where
  /-- Every interval has its place. -/
  covered : ∀ a ∈ done, ∃ place, scan.assignment.get? a.temp = some place
  /-- Holders hold what they are assigned. -/
  bound : ∀ holder ∈ scan.held, holder.interval ∈ done ∧
    scan.assignment.get? holder.interval.temp = some (.register holder.register)
  /-- Holders do not share storage. -/
  apart : scan.held.Pairwise fun a b => file.intersects a.register b.register = false
  /-- Who lives in a register and has not ended is a holder. -/
  live : ∀ a ∈ done, ∀ register, scan.assignment.get? a.temp = some (.register register) →
    position ≤ a.stop → ∃ holder ∈ scan.held, holder.interval = a ∧ holder.register = register
  /-- Slots lie below the cursor. -/
  below : ∀ a ∈ done, ∀ offset, scan.assignment.get? a.temp = some (.stack offset) →
    offset + a.size ≤ scan.cursor
  conflictFree : ConflictFree file done scan.assignment

theorem sound_start (file : RegisterFile) (stackBase : Nat) :
    Sound file [] 0 (start stackBase) := by
  refine ⟨?_, ?_, List.Pairwise.nil, ?_, ?_, ?_⟩ <;> (intro a member; cases member)

/-- Expiry moves a scan on to a later position. -/
theorem Sound.expire {file : RegisterFile} (sound : Sound file done position scan)
    {next : Nat} (later : position ≤ next) : Sound file done next (scan.expire next) where
  covered := sound.covered
  bound := by
    intro holder member
    exact sound.bound holder (List.mem_filter.mp member).1
  apart := sound.apart.filter _
  live := by
    intro a member register inRegister alive
    obtain ⟨holder, isHolder, rfl, rfl⟩ :=
      sound.live a member register inRegister (Nat.le_trans later alive)
    exact ⟨holder, List.mem_filter.mpr ⟨isHolder, decide_eq_true alive⟩, rfl, rfl⟩
  below := sound.below
  conflictFree := sound.conflictFree

/-- Behind an interval that is new, the intervals are the new one and the old ones. -/
theorem cover_append (fresh : ∀ a ∈ done, a.temp ≠ interval.temp) :
    ∀ a ∈ done ++ [interval], a = interval ∨ a ∈ done ∧ a.temp ≠ interval.temp := by
  intro a member
  rcases List.mem_append.mp member with old | new
  · exact Or.inr ⟨old, fresh a old⟩
  · exact Or.inl (List.mem_singleton.mp new)

/-- **Going to the stack.**  The interval is a new one, or one of those placed before that has
just lost its register; either way no holder is left with its temp. -/
theorem Sound.stacked {file : RegisterFile}
    (intersects_comm : ∀ a b, file.intersects a b = file.intersects b a)
    (sound : Sound file done position scan)
    (cover : ∀ a ∈ done', a = interval ∨ a ∈ done ∧ a.temp ≠ interval.temp)
    (grown : done ⊆ done') {held : List Held} {evictions : Nat} (fewer : held.Sublist scan.held)
    (leaves : ∀ holder ∈ held, holder.interval.temp ≠ interval.temp)
    (stays : ∀ holder ∈ scan.held, holder.interval.temp ≠ interval.temp → holder ∈ held) :
    Sound file done' position ({ scan with held, evictions }.stacked interval) where
  covered := by
    intro a member
    rcases get?_insert_cases cover scan.assignment (.stack scan.cursor) member with
      ⟨-, here⟩ | ⟨⟨old, -⟩, same⟩
    · exact ⟨_, here⟩
    · obtain ⟨place, placed⟩ := sound.covered a old
      exact ⟨place, same.trans placed⟩
  bound := by
    intro holder member
    obtain ⟨old, inRegister⟩ := sound.bound holder (fewer.subset member)
    refine ⟨grown old, ?_⟩
    rw [PlainScan.stacked, Assignment.get?_insert, if_neg (leaves holder member)]
    exact inRegister
  apart := sound.apart.sublist fewer
  live := by
    intro a member register inRegister alive
    rcases get?_insert_cases cover scan.assignment (.stack scan.cursor) member with
      ⟨-, here⟩ | ⟨⟨old, other⟩, same⟩
    · cases here.symm.trans inRegister
    · obtain ⟨holder, isHolder, rfl, rfl⟩ :=
        sound.live a old register (same.symm.trans inRegister) alive
      exact ⟨holder, stays holder isHolder other, rfl, rfl⟩
  below := by
    intro a member offset onStack
    rcases get?_insert_cases cover scan.assignment (.stack scan.cursor) member with
      ⟨rfl, here⟩ | ⟨⟨old, -⟩, same⟩
    · cases here.symm.trans onStack
      exact Nat.le_refl _
    · exact Nat.le_trans (sound.below a old offset (same.symm.trans onStack))
        (Nat.le_add_right _ _)
  conflictFree := by
    refine sound.conflictFree.insert intersects_comm cover ?_
    intro a old other overlap place atPlace
    cases place with
    | register register => trivial
    | stack offset => exact Or.inl (sound.below a old offset atPlace)

/-- **Going to a register** that shares no storage with the holders. -/
theorem Sound.hold {file : RegisterFile}
    (intersects_comm : ∀ a b, file.intersects a b = file.intersects b a) (holder : Held)
    (sound : Sound file done holder.interval.start scan)
    (fresh : ∀ a ∈ done, a.temp ≠ holder.interval.temp)
    (clear : ∀ other ∈ scan.held, file.intersects other.register holder.register = false) :
    Sound file (done ++ [holder.interval]) holder.interval.start (scan.hold holder) := by
  have cover := cover_append fresh
  refine ⟨?_, ?_, ?_, ?_, ?_, ?_⟩
  · intro a member
    rcases get?_insert_cases cover scan.assignment (.register holder.register) member with
      ⟨-, here⟩ | ⟨⟨old, -⟩, same⟩
    · exact ⟨_, here⟩
    · obtain ⟨place, placed⟩ := sound.covered a old
      exact ⟨place, same.trans placed⟩
  · refine List.forall_mem_cons.mpr ⟨⟨?_, ?_⟩, ?_⟩
    · exact List.mem_append_right _ List.mem_cons_self
    · rw [PlainScan.hold, Assignment.get?_insert, if_pos rfl]
    · intro other isHolder
      obtain ⟨old, inRegister⟩ := sound.bound other isHolder
      refine ⟨List.mem_append_left _ old, ?_⟩
      rw [PlainScan.hold, Assignment.get?_insert, if_neg (fresh _ old)]
      exact inRegister
  · refine List.pairwise_cons.mpr ⟨?_, sound.apart⟩
    intro other isHolder
    rw [intersects_comm]
    exact clear other isHolder
  · intro a member register inRegister alive
    rcases get?_insert_cases cover scan.assignment (.register holder.register) member with
      ⟨rfl, here⟩ | ⟨⟨old, -⟩, same⟩
    · cases here.symm.trans inRegister
      exact ⟨holder, List.mem_cons_self, rfl, rfl⟩
    · obtain ⟨one, isHolder, holds⟩ :=
        sound.live a old register (same.symm.trans inRegister) alive
      exact ⟨one, List.mem_cons_of_mem _ isHolder, holds⟩
  · intro a member offset onStack
    rcases get?_insert_cases cover scan.assignment (.register holder.register) member with
      ⟨-, here⟩ | ⟨⟨old, -⟩, same⟩
    · cases here.symm.trans onStack
    · exact sound.below a old offset (same.symm.trans onStack)
  · refine sound.conflictFree.insert intersects_comm cover ?_
    intro a old other overlap place atPlace
    cases place with
    | stack offset => trivial
    | register register =>
      -- Overlapping the incoming interval, `a` has not ended, so it is a holder.
      have alive : holder.interval.start ≤ a.stop := by
        simp only [Interval.overlaps, Bool.and_eq_true, decide_eq_true_eq] at overlap
        exact overlap.2
      obtain ⟨one, isHolder, -, rfl⟩ := sound.live a old register atPlace alive
      exact clear one isHolder

/-- A new interval goes to the stack. -/
theorem Sound.spill {file : RegisterFile}
    (intersects_comm : ∀ a b, file.intersects a b = file.intersects b a)
    (sound : Sound file done position scan) (fresh : ∀ a ∈ done, a.temp ≠ interval.temp) :
    Sound file (done ++ [interval]) position (scan.stacked interval) :=
  sound.stacked intersects_comm (cover_append fresh) (List.subset_append_left _ _)
    (List.Sublist.refl _) (fun holder member => fresh _ (sound.bound holder member).1)
    (fun _ member _ => member)

/-- The register of one holder shares no storage with those of the others. -/
theorem Sound.apart_erase {file : RegisterFile}
    (intersects_comm : ∀ a b, file.intersects a b = file.intersects b a)
    (sound : Sound file done position scan) {victim : Held} (isHolder : victim ∈ scan.held) :
    ∀ other ∈ scan.held.erase victim,
      file.intersects other.register victim.register = false := by
  have front := (List.perm_cons_erase isHolder).pairwise sound.apart
    (fun apart => (intersects_comm _ _).trans apart)
  intro other member
  rw [intersects_comm]
  exact List.rel_of_pairwise_cons front member

/-- A holder goes to the stack, and leaves a register that shares no storage with those of
the other holders. -/
theorem Sound.evict {file : RegisterFile}
    (intersects_comm : ∀ a b, file.intersects a b = file.intersects b a)
    (sound : Sound file done position scan)
    (distinct : ∀ a ∈ done, ∀ b ∈ done, a.temp = b.temp → a = b) {victim : Held}
    (isHolder : victim ∈ scan.held) :
    Sound file done position ((scan.release victim).stacked victim.interval) := by
  obtain ⟨victimPlaced, victimBound⟩ := sound.bound victim isHolder
  refine sound.stacked intersects_comm ?_ (List.Subset.refl _) List.erase_sublist ?_ ?_
  · intro a member
    by_cases same : a.temp = victim.interval.temp
    · exact Or.inl (distinct a member _ victimPlaced same)
    · exact Or.inr ⟨member, same⟩
  · -- One temp has one register, and no other holder can have the victim's.
    intro other member same
    have inRegister := (sound.bound other (List.mem_of_mem_erase member)).2
    rw [same, victimBound] at inRegister
    have sameRegister : victim.register = other.register :=
      Location.register.inj (Option.some.inj inRegister)
    have apart := sound.apart_erase intersects_comm isHolder other member
    exact RegisterFile.ne_of_not_intersects apart sameRegister.symm
  · intro other member differs
    refine (List.mem_erase_of_ne ?_).mpr member
    rintro rfl
    exact differs rfl

/-- **One step** keeps the invariant, at the start of the interval at the latest. -/
theorem Sound.step (wellFormed : catalog.WellFormed)
    (sound : Sound catalog.registers done position scan) (later : position ≤ interval.start)
    (fresh : ∀ a ∈ done, a.temp ≠ interval.temp)
    (distinct : ∀ a ∈ done, ∀ b ∈ done, a.temp = b.temp → a = b)
    (step : Step catalog options scan seq interval scan') :
    ∃ position' ≤ interval.start,
      Sound catalog.registers (done ++ [interval]) position' scan' := by
  have symm := wellFormed.intersects_comm
  have expired := sound.expire later
  cases step with
  | allStack only room => exact ⟨position, later, sound.spill symm fresh⟩
  | @placed _ register bank picked =>
    obtain ⟨-, clear⟩ := pick?_eq_some picked
    exact ⟨interval.start, Nat.le_refl _,
      Sound.hold symm ⟨interval, seq, register, bank⟩ expired fresh clear⟩
  | spilled allowed blocked kept room =>
    exact ⟨interval.start, Nat.le_refl _, expired.spill symm fresh⟩
  | @evicted _ _ victim yields room =>
    obtain ⟨-, latest, -, -⟩ := victim?_eq_some yields
    have isHolder := latest?_mem latest
    have evicted := expired.evict symm distinct isHolder
    exact ⟨interval.start, Nat.le_refl _,
      Sound.hold symm ⟨interval, seq, victim.register, victim.bank⟩ evicted fresh
        (expired.apart_erase symm isHolder)⟩

/-- Among distinct temps, the one that comes next is new, and the ones before tell intervals
apart. -/
theorem fresh_of_beginning {intervals : List Interval}
    (distinct : (intervals.map Interval.temp).Nodup)
    (beginning : done ++ [interval] <+: intervals) :
    (∀ a ∈ done, a.temp ≠ interval.temp) ∧
      ∀ a ∈ done, ∀ b ∈ done, a.temp = b.temp → a = b := by
  have temps := distinct.sublist (beginning.sublist.map Interval.temp)
  rw [List.map_append, List.nodup_append] at temps
  obtain ⟨temps, -, fresh⟩ := temps
  refine ⟨?_, ?_⟩
  · intro a member
    exact fresh _ (List.mem_map_of_mem member) _ List.mem_cons_self
  · intro a memberA b memberB
    exact List.inj_on_of_nodup_map temps memberA memberB

/-- **A whole run** over sorted intervals of distinct temps keeps the invariant. -/
theorem sound_of_placeAll (wellFormed : catalog.WellFormed) {intervals : List Interval}
    (sorted : intervals.Pairwise (·.start ≤ ·.start))
    (distinct : (intervals.map Interval.temp).Nodup) {stackBase : Nat}
    (completed : (start stackBase).placeAll catalog options 0 intervals = .ok scan) :
    ∃ position, Sound catalog.registers intervals position scan := by
  refine placeAll_sorted_induction (motive := Sound catalog.registers) sorted ?_
    (sound_start catalog.registers stackBase) completed
  intro done interval position scan scan' beginning later sound step
  obtain ⟨fresh, apart⟩ := fresh_of_beginning distinct beginning
  exact sound.step wellFormed later fresh apart step

end PlainScan

end LinearScan
