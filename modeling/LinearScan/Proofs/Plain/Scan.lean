import LinearScan.Options
import LinearScan.Allocator
import LinearScan.Proofs.Bank.Catalog

/-!
# A plain scan

The allocator keeps a free flag per bank and register, an index of bank sizes and an ordered
active set.  All of that serves speed alone.  This module says what is computed: the scan
over a bare list of the intervals that hold a register.

* `PlainScan.candidates` — the registers that could hold an interval, over all banks and in
  order of preference
* `PlainScan.latest?` — the holder with the largest pair of end and place in the scan
* `PlainScan.place`, `PlainScan.run` — the scan itself

Nothing is kept in any order, no flag says what is free, and no bank is skipped because of
its size.  `PlainScan.Step` says once, case by case, what placing an interval can do;
`PlainScan.placeAll_induction` turns what a step keeps into what a run keeps.  Theorems about
allocations are proved of plain scans, and carried over to allocators by the refinement.
-/

namespace LinearScan

/-! ## The order of expiry -/

namespace Held

variable {a b c : Held}

/-- The order of expiry, spelled out. -/
theorem before_iff :
    a.before b = true ↔
      a.interval.stop < b.interval.stop ∨
        a.interval.stop = b.interval.stop ∧ a.seq < b.seq := by
  simp [before]

/-- What does not expire before another entry ends behind it, or ties. -/
theorem before_eq_false_iff :
    a.before b = false ↔
      b.interval.stop < a.interval.stop ∨
        b.interval.stop = a.interval.stop ∧ b.seq ≤ a.seq := by
  rw [← Bool.not_eq_true, before_iff]
  omega

/-- What expires earlier ends no later. -/
theorem stop_le_of_before (earlier : a.before b = true) :
    a.interval.stop ≤ b.interval.stop := by
  rw [before_iff] at earlier
  omega

theorem before_trans (first : a.before b = true) (second : b.before c = true) :
    a.before c = true := by
  rw [before_iff] at first second ⊢
  omega

theorem before_asymm (earlier : a.before b = true) : b.before a = false := by
  rw [before_iff] at earlier
  rw [before_eq_false_iff]
  omega

theorem not_before_trans (first : a.before b = false) (second : b.before c = false) :
    a.before c = false := by
  rw [before_eq_false_iff] at first second ⊢
  omega

/-- Entries with different places in the scan do not tie. -/
theorem before_of_not_before (apart : a.seq ≠ b.seq) (notBefore : a.before b = false) :
    b.before a = true := by
  rw [before_eq_false_iff] at notBefore
  rw [before_iff]
  omega

end Held

/-! ## Candidates -/

namespace Catalog

/-- Every bank with its place, smallest size first and then in order of preference. -/
def bankPlaces (catalog : Catalog) : List (BankRef × Bank) :=
  catalog.classes.zipIdx.flatMap fun (sizeClass, sizeIndex) =>
    sizeClass.banks.zipIdx.map fun (bank, bankIndex) => (⟨sizeIndex, bankIndex⟩, bank)

/-- A bank is listed with a place exactly if it is found there. -/
theorem mem_bankPlaces {catalog : Catalog} {place : BankRef} {bank : Bank} :
    (place, bank) ∈ catalog.bankPlaces ↔ catalog.bank? place = some bank := by
  obtain ⟨sizeIndex, bankIndex⟩ := place
  simp only [bankPlaces, List.mem_flatMap, List.mem_map, Prod.exists, Prod.mk.injEq,
    BankRef.mk.injEq, List.mem_zipIdx_iff_getElem?, bank?, Option.bind_eq_bind,
    Option.bind_eq_some_iff]
  constructor
  · rintro ⟨sizeClass, _, atSize, found, _, atBank, ⟨rfl, rfl⟩, rfl⟩
    exact ⟨sizeClass, atSize, atBank⟩
  · rintro ⟨sizeClass, atSize, atBank⟩
    exact ⟨sizeClass, sizeIndex, atSize, bank, bankIndex, atBank, ⟨rfl, rfl⟩, rfl⟩

end Catalog

/-- The state of a plain scan. -/
structure PlainScan where
  /-- The intervals that hold a register, in no particular order. -/
  held : List Held
  stackBase : Nat
  /-- Where the next spill slot starts. -/
  cursor : Nat
  assignment : Assignment
  spills : Nat
  evictions : Nat

namespace PlainScan

/-- Nothing is placed yet. -/
def start (stackBase : Nat) : PlainScan where
  held := []
  stackBase
  cursor := stackBase
  assignment := .empty
  spills := 0
  evictions := 0

/-- The registers that could hold an interval, each with the bank it is in: over all banks
that are large enough and take the type, in order of preference. -/
def candidates (catalog : Catalog) (interval : Interval) : List (RegisterId × BankRef) :=
  (catalog.bankPlaces.filter fun (_, bank) => bank.admits interval.type interval.size).flatMap
    fun (place, bank) => bank.registers.map fun register => (register, place)

/-- Whether a register shares storage with none that is held. -/
def isClear (file : RegisterFile) (held : List Held) (register : RegisterId) : Bool :=
  held.all fun holder => !file.intersects holder.register register

/-- The first candidate that shares storage with no held register. -/
def pick? (catalog : Catalog) (held : List Held) (interval : Interval) :
    Option (RegisterId × BankRef) :=
  (candidates catalog interval).find? fun candidate =>
    isClear catalog.registers held candidate.1

/-- The holder that expires last: the one with the largest end, and among these the one
that came last. -/
def latest? : List Held → Option Held
  | [] => none
  | holder :: rest =>
    match latest? rest with
    | none => some holder
    | some other => if holder.before other then some other else some holder

/-- The holder that has to yield to an interval for which no register is clear: the one that
expires last, if it outlives the interval and its bank admits the interval. -/
def victim? (catalog : Catalog) (options : Options) (held : List Held) (interval : Interval) :
    Option Held :=
  if options.eviction then
    (latest? held).filter fun holder =>
      interval.stop < holder.interval.stop &&
        (catalog.bank? holder.bank).any (·.admits interval.type interval.size)
  else none

/-! ## Updates -/

/-- Drops the holders that ended before a position. -/
def expire (scan : PlainScan) (position : Nat) : PlainScan :=
  { scan with held := scan.held.filter fun holder => position ≤ holder.interval.stop }

/-- Binds an interval to the register it holds. -/
def hold (scan : PlainScan) (holder : Held) : PlainScan :=
  { scan with
    held := holder :: scan.held
    assignment := scan.assignment.insert holder.interval.temp (.register holder.register) }

/-- Takes a holder out of its register. -/
def release (scan : PlainScan) (holder : Held) : PlainScan :=
  { scan with held := scan.held.erase holder, evictions := scan.evictions + 1 }

/-- Gives an interval the next slot of the spill area. -/
def stacked (scan : PlainScan) (interval : Interval) : PlainScan :=
  { scan with
    cursor := scan.cursor + interval.size
    assignment := scan.assignment.insert interval.temp (.stack scan.cursor)
    spills := scan.spills + 1 }

/-- Gives an interval the next slot of the spill area, if the frame has room for it. -/
def toStack (scan : PlainScan) (interval : Interval) : Except Fault PlainScan :=
  if maxFrame < scan.cursor + interval.size then
    .error (.frameOverflow scan.cursor interval.size)
  else .ok (scan.stacked interval)

/-- Places the interval with the given place in the scan. -/
def place (catalog : Catalog) (options : Options) (scan : PlainScan) (seq : Nat)
    (interval : Interval) : Except Fault PlainScan :=
  if options.allStack then scan.toStack interval
  else
    let scan := scan.expire interval.start
    match pick? catalog scan.held interval with
    | some (register, bank) => .ok (scan.hold { interval, seq, register, bank })
    | none =>
      match victim? catalog options scan.held interval with
      | some victim => do
        let scan ← (scan.release victim).toStack victim.interval
        return scan.hold { interval, seq, register := victim.register, bank := victim.bank }
      | none => scan.toStack interval

/-- Places intervals in order, the first of which has the given place in the scan. -/
def placeAll (catalog : Catalog) (options : Options) (scan : PlainScan) (seq : Nat) :
    List Interval → Except Fault PlainScan
  | [] => .ok scan
  | interval :: rest => do
    let scan ← scan.place catalog options seq interval
    scan.placeAll catalog options (seq + 1) rest

/-- The result of a scan that has placed all its intervals. -/
def allocation (scan : PlainScan) (file : RegisterFile) : Allocation where
  assignment := scan.assignment
  stackBase := scan.stackBase
  frameSize := scan.cursor
  spills := scan.spills
  evictions := scan.evictions
  calleeSaved := scan.assignment.registers.filter fun id => (file.get? id).any (·.calleeSaved)
  diagnostics := []

/-- Allocates intervals in a frame of which the given number of bytes are reserved. -/
def run (catalog : Catalog) (options : Options) (intervals : List Interval) (stackBase : Nat) :
    Except Fault Allocation := do
  let scan ← (start stackBase).placeAll catalog options 0 intervals
  return scan.allocation catalog.registers

/-! ## What the parts find -/

variable {catalog : Catalog} {options : Options} {held : List Held} {interval : Interval}

/-- The holders that are left are those that did not end before the position. -/
theorem mem_held_expire {scan : PlainScan} {position : Nat} {holder : Held} :
    holder ∈ (scan.expire position).held ↔
      holder ∈ scan.held ∧ position ≤ holder.interval.stop := by
  simp [expire]

/-- The candidates are the registers of the banks that admit an interval. -/
theorem mem_candidates {register : RegisterId} {place : BankRef} :
    (register, place) ∈ candidates catalog interval ↔
      ∃ bank, catalog.bank? place = some bank ∧
        bank.admits interval.type interval.size = true ∧ register ∈ bank.registers := by
  simp only [candidates, List.mem_flatMap, List.mem_filter, List.mem_map, Prod.exists,
    Prod.mk.injEq, Catalog.mem_bankPlaces]
  constructor
  · rintro ⟨_, bank, ⟨found, admits⟩, _, member, rfl, rfl⟩
    exact ⟨bank, found, admits, member⟩
  · rintro ⟨bank, found, admits, member⟩
    exact ⟨place, bank, ⟨found, admits⟩, register, member, rfl, rfl⟩

/-- A register is clear if no held one shares storage with it. -/
theorem isClear_iff {file : RegisterFile} {register : RegisterId} :
    isClear file held register = true ↔
      ∀ holder ∈ held, file.intersects holder.register register = false := by
  simp [isClear]

/-- What is picked is a clear register of a bank that admits the interval. -/
theorem pick?_eq_some {register : RegisterId} {place : BankRef}
    (picked : pick? catalog held interval = some (register, place)) :
    (∃ bank, catalog.bank? place = some bank ∧
      bank.admits interval.type interval.size = true ∧ register ∈ bank.registers) ∧
      ∀ holder ∈ held, catalog.registers.intersects holder.register register = false := by
  unfold pick? at picked
  have clear := List.find?_some picked
  exact ⟨mem_candidates.mp (List.mem_of_find?_eq_some picked), isClear_iff.mp clear⟩

/-- Nothing is picked only if every candidate is blocked by a holder. -/
theorem pick?_eq_none (nothing : pick? catalog held interval = none) {register : RegisterId}
    {place : BankRef} {bank : Bank} (found : catalog.bank? place = some bank)
    (admits : bank.admits interval.type interval.size = true)
    (member : register ∈ bank.registers) :
    ∃ holder ∈ held, catalog.registers.intersects holder.register register = true := by
  have blocked := List.find?_eq_none.mp nothing (register, place)
    (mem_candidates.mpr ⟨bank, found, admits, member⟩)
  simpa [isClear] using blocked

/-- No holder expires last exactly if there is none. -/
theorem latest?_eq_none_iff : latest? held = none ↔ held = [] := by
  cases held with
  | nil => simp [latest?]
  | cons holder rest =>
    unfold latest?
    split
    · simp
    · split <;> simp

/-- The holder that expires last is one of the holders. -/
theorem latest?_mem {holder : Held} (found : latest? held = some holder) : holder ∈ held := by
  induction held with
  | nil => cases found
  | cons first rest ih =>
    unfold latest? at found
    split at found
    · obtain rfl := Option.some.inj found
      exact List.mem_cons_self
    · next other later =>
      split at found
      · obtain rfl := Option.some.inj found
        exact List.mem_cons_of_mem _ (ih later)
      · obtain rfl := Option.some.inj found
        exact List.mem_cons_self

/-- No holder expires behind the one that expires last. -/
theorem latest?_not_before {holder : Held} (found : latest? held = some holder) :
    ∀ other ∈ held, holder.before other = false := by
  induction held generalizing holder with
  | nil => cases found
  | cons first rest ih =>
    have irreflexive : first.before first = false := by
      rw [Held.before_eq_false_iff]
      exact Or.inr ⟨rfl, Nat.le_refl _⟩
    unfold latest? at found
    split at found
    · next nothing =>
      obtain rfl := Option.some.inj found
      rw [latest?_eq_none_iff.mp nothing]
      exact List.forall_mem_singleton.mpr irreflexive
    · next other later =>
      split at found
      · next before =>
        obtain rfl := Option.some.inj found
        exact List.forall_mem_cons.mpr ⟨Held.before_asymm before, ih later⟩
      · next notBefore =>
        obtain rfl := Option.some.inj found
        refine List.forall_mem_cons.mpr ⟨irreflexive, ?_⟩
        intro one member
        exact Held.not_before_trans (Bool.eq_false_iff.mpr notBefore) (ih later one member)

/-- No holder outlives the one that expires last. -/
theorem latest?_stop_le {holder other : Held} (found : latest? held = some holder)
    (member : other ∈ held) : other.interval.stop ≤ holder.interval.stop := by
  have notBefore := Held.before_eq_false_iff.mp (latest?_not_before found other member)
  omega

/-- A holder that has to yield is the one that expires last, outlives the interval, and its
bank admits the interval. -/
theorem victim?_eq_some {victim : Held}
    (found : victim? catalog options held interval = some victim) :
    options.eviction = true ∧ latest? held = some victim ∧
      interval.stop < victim.interval.stop ∧
      ∃ bank, catalog.bank? victim.bank = some bank ∧
        bank.admits interval.type interval.size = true := by
  unfold victim? at found
  split at found
  · next evicts =>
    obtain ⟨latest, yields⟩ := Option.filter_eq_some_iff.mp found
    simp only [Bool.and_eq_true, decide_eq_true_eq, Option.any_eq_true_iff_get] at yields
    obtain ⟨outlives, known, admits⟩ := yields
    exact ⟨evicts, latest, outlives, _, (Option.some_get known).symm, admits⟩
  · cases found

/-- With eviction on and all banks admitting an interval, no holder has to yield only if none
outlives the interval. -/
theorem stop_le_of_victim?_eq_none (evicts : options.eviction = true)
    (kept : victim? catalog options held interval = none)
    (admits : ∀ holder ∈ held, ∃ bank, catalog.bank? holder.bank = some bank ∧
      bank.admits interval.type interval.size = true) :
    ∀ holder ∈ held, holder.interval.stop ≤ interval.stop := by
  intro holder isHolder
  rw [victim?, if_pos evicts] at kept
  cases found : latest? held with
  | none =>
    rw [latest?_eq_none_iff.mp found] at isHolder
    cases isHolder
  | some latest =>
    obtain ⟨bank, atBank, admitted⟩ := admits latest (latest?_mem found)
    have ends : latest.interval.stop ≤ interval.stop := by
      rw [found, Option.filter_some, atBank] at kept
      simpa [admitted] using kept
    exact Nat.le_trans (latest?_stop_le found isHolder) ends

/-! ## Steps and runs -/

/-- **All that placing an interval can do.**  Every case holds the guards under which it
comes about, so that what is to be shown of a step is shown of four updates. -/
inductive Step (catalog : Catalog) (options : Options) (scan : PlainScan) (seq : Nat)
    (interval : Interval) : PlainScan → Prop
  /-- Everything goes to the stack. -/
  | allStack (only : options.allStack = true)
      (room : scan.cursor + interval.size ≤ maxFrame) :
      Step catalog options scan seq interval (scan.stacked interval)
  /-- A register is clear. -/
  | placed (allowed : options.allStack = false) {register : RegisterId} {bank : BankRef}
      (picked : pick? catalog (scan.expire interval.start).held interval = some (register, bank)) :
      Step catalog options scan seq interval
        ((scan.expire interval.start).hold { interval, seq, register, bank })
  /-- No register is clear, and no holder has to yield. -/
  | spilled (allowed : options.allStack = false)
      (blocked : pick? catalog (scan.expire interval.start).held interval = none)
      (kept : victim? catalog options (scan.expire interval.start).held interval = none)
      (room : scan.cursor + interval.size ≤ maxFrame) :
      Step catalog options scan seq interval ((scan.expire interval.start).stacked interval)
  /-- No register is clear, and a holder yields its own. -/
  | evicted (allowed : options.allStack = false)
      (blocked : pick? catalog (scan.expire interval.start).held interval = none) {victim : Held}
      (yields :
        victim? catalog options (scan.expire interval.start).held interval = some victim)
      (room : scan.cursor + victim.interval.size ≤ maxFrame) :
      Step catalog options scan seq interval
        ((((scan.expire interval.start).release victim).stacked victim.interval).hold
          { interval, seq, register := victim.register, bank := victim.bank })

variable {scan scan' : PlainScan} {seq : Nat}

/-- The stack takes an interval exactly if the frame has room for it. -/
theorem toStack_eq_ok_iff :
    scan.toStack interval = .ok scan' ↔
      scan.cursor + interval.size ≤ maxFrame ∧ scan' = scan.stacked interval := by
  unfold toStack
  split
  · next full => simp [Nat.not_le.mpr full]
  · next room => simp [Nat.not_lt.mp room, eq_comm]

/-- Placing an interval does one of the four. -/
theorem step_of_place (done : scan.place catalog options seq interval = .ok scan') :
    Step catalog options scan seq interval scan' := by
  unfold place at done
  split at done
  · next only =>
    obtain ⟨room, rfl⟩ := toStack_eq_ok_iff.mp done
    exact .allStack only room
  · next notOnly =>
    have allowed : options.allStack = false := Bool.eq_false_iff.mpr notOnly
    dsimp only at done
    split at done
    · next register bank picked =>
      obtain rfl := Except.ok.inj done
      exact .placed allowed picked
    · next blocked =>
      split at done
      · next victim yields =>
        obtain ⟨middle, onStack, done⟩ := Outcome.bind_eq_ok.mp done
        obtain ⟨room, rfl⟩ := toStack_eq_ok_iff.mp onStack
        obtain rfl := Outcome.pure_eq_ok.mp done
        exact .evicted allowed blocked yields room
      · next kept =>
        obtain ⟨room, rfl⟩ := toStack_eq_ok_iff.mp done
        exact .spilled allowed blocked kept room

/-- **Induction over a run.**  The motive speaks of the intervals placed so far; a step
knows that what has been placed and what it places are the beginning of all intervals. -/
theorem placeAll_induction {motive : List Interval → PlainScan → Prop}
    (intervals : List Interval)
    (step : ∀ done interval scan scan', done ++ [interval] <+: intervals → motive done scan →
      Step catalog options scan done.length interval scan' → motive (done ++ [interval]) scan')
    (initial : motive [] scan)
    (completed : scan.placeAll catalog options 0 intervals = .ok scan') :
    motive intervals scan' := by
  refine Outcome.numbered_induction (fun _ _ => rfl) (fun _ _ _ _ => rfl) intervals ?_ initial
    completed
  intro done interval scan scan' beginning holds placed
  exact step done interval scan scan' beginning holds (step_of_place placed)

/-- **Induction over a run with sorted intervals.**  The motive also speaks of a position; no
step starts before it, and a step moves it on to the start of its interval at most. -/
theorem placeAll_sorted_induction {motive : List Interval → Nat → PlainScan → Prop}
    {intervals : List Interval} (sorted : intervals.Pairwise (·.start ≤ ·.start))
    (step : ∀ done interval position scan scan', done ++ [interval] <+: intervals →
      position ≤ interval.start → motive done position scan →
      Step catalog options scan done.length interval scan' →
      ∃ position' ≤ interval.start, motive (done ++ [interval]) position' scan')
    (initial : motive [] 0 scan)
    (completed : scan.placeAll catalog options 0 intervals = .ok scan') :
    ∃ position, motive intervals position scan' := by
  suffices holds : ∃ position, motive intervals position scan' ∧
      ∀ next, (∀ a ∈ intervals, a.start ≤ next) → position ≤ next by
    obtain ⟨position, holds, -⟩ := holds
    exact ⟨position, holds⟩
  -- The position is no later than any start that may still come.
  refine placeAll_induction (motive := fun done scan => ∃ position, motive done position scan ∧
    ∀ next, (∀ a ∈ done, a.start ≤ next) → position ≤ next) intervals ?_ ?_ completed
  · rintro done interval scan scan' beginning ⟨position, holds, reached⟩ stepped
    obtain ⟨-, -, starts⟩ := List.pairwise_append.mp (sorted.sublist beginning.sublist)
    have later : position ≤ interval.start :=
      reached _ fun a member => starts a member interval List.mem_cons_self
    obtain ⟨position', early, holds'⟩ :=
      step done interval position scan scan' beginning later holds stepped
    refine ⟨position', holds', ?_⟩
    intro next bounds
    exact Nat.le_trans early (bounds interval (List.mem_append_right _ List.mem_cons_self))
  · exact ⟨0, initial, fun _ _ => Nat.zero_le _⟩

end PlainScan

end LinearScan
