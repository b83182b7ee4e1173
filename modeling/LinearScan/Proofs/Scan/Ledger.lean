import LinearScan.Proofs.Plain.Storage
import LinearScan.Proofs.Scan.Refinement
import Mathlib.Algebra.GroupWithZero.Nat

/-!
# The books of a scan

A scan keeps its accounts in several places: the assignment, which a temp may enter twice, two
counters, the cursor of the spill area, and the log.  `ScanState.Ledger` is the invariant that
holds them together.  It takes the slots from the log, in the order in which they were given
out, and says that they lie side by side up to the cursor, that each belongs to one temp on the
stack, and that they are as many as the spills that were counted.

**No temp gets a second slot.**  Who goes to the stack is either new, or held a register until
now, and the assignment tells: a temp that has a slot is on the stack in the assignment, while
holders are in their registers.

None of this depends on the catalog or on the free flags.  `ScanState.Move` therefore describes
a step up to suppliers and active set, and no assumption on the catalog is made.
-/

namespace LinearScan

open Outcome

/-! ## Slots -/

/-- A slot of the spill area. -/
structure Slot where
  interval : Interval
  offset : Nat
deriving DecidableEq

namespace Slot

/-- The temp in a slot, with its offset. -/
def entry (slot : Slot) : TempId × Nat :=
  (slot.interval.temp, slot.offset)

/-- Slots that lie side by side, in this order, from one offset up to another. -/
def Tile (first : Nat) : List Slot → Nat → Prop
  | [], last => first = last
  | slot :: rest, last => slot.offset = first ∧ Tile (first + slot.interval.size) rest last

/-- A slot that starts where the last one ends continues the row. -/
theorem Tile.concat {slots : List Slot} :
    ∀ {first last : Nat}, Tile first slots last → ∀ interval : Interval,
      Tile first (slots ++ [⟨interval, last⟩]) (last + interval.size) := by
  induction slots with
  | nil =>
    rintro first last rfl interval
    exact ⟨rfl, rfl⟩
  | cons slot rest ih =>
    rintro first last ⟨starts, tiled⟩ interval
    exact ⟨starts, ih tiled interval⟩

/-- A row of slots is as long as its slots together. -/
theorem Tile.last_eq {slots : List Slot} :
    ∀ {first last : Nat}, Tile first slots last →
      last = first + (slots.map (·.interval.size)).sum := by
  induction slots with
  | nil =>
    rintro first last rfl
    rfl
  | cons slot rest ih =>
    rintro first last ⟨-, tiled⟩
    rw [ih tiled, List.map_cons, List.sum_cons, Nat.add_assoc]

end Slot

/-- The slot that a record is about. -/
def Event.slot? : Event → Option Slot
  | spilled interval offset => some ⟨interval, offset⟩
  | _ => none

/-- The slots in a log, in the order in which they were given out. -/
def slots (events : Array Event) : List Slot :=
  events.toList.filterMap Event.slot?

@[simp] theorem slots_empty : slots #[] = [] := rfl

@[simp] theorem slots_push (events : Array Event) (event : Event) :
    slots (events.push event) = slots events ++ event.slot?.toList := by
  cases found : event.slot? <;> simp [slots, found]

@[simp] theorem slots_append (events events' : Array Event) :
    slots (events ++ events') = slots events ++ slots events' := by
  simp [slots]

namespace ScanState

variable {catalog : Catalog} {options : Options} {state state' : ScanState} {seq : Nat}
  {interval : Interval} {done done' : List Interval} {stackBase : Nat}

/-! ## What a step does to the books -/

/-- A holder leaves its register, and the log says so. -/
def released (state : ScanState) (victim : Held) (name : String) (incoming : Interval) :
    ScanState :=
  { state.log (.evicted victim.interval name incoming) with evictions := state.evictions + 1 }

/-- **All that placing an interval can do to the books.**  Flags change in ways that are left
open here, and so does who expires. -/
inductive Move (file : RegisterFile) (options : Options) (state : ScanState) (seq : Nat)
    (interval : Interval) : ScanState → Prop
  | stacked {suppliers : List (List Supplier)} {active : ActiveSet}
      (fewer : active.entries.Sublist state.active.entries) :
      Move file options state seq interval ({ state with suppliers, active }.stacked interval)
  | bound {suppliers : List (List Supplier)} {active : ActiveSet}
      (fewer : active.entries.Sublist state.active.entries) {register : RegisterId}
      (bank : BankRef) {name : String} (named : file.name register = .ok name) :
      Move file options state seq interval
        ({ state with suppliers, active }.bound { interval, seq, register, bank } name)
  | evicted {suppliers : List (List Supplier)} {active : ActiveSet} {victim : Held}
      (fewer : (active.entries ++ [victim]).Sublist state.active.entries) {name : String}
      (named : file.name victim.register = .ok name) (evicts : options.eviction = true)
      (allowed : options.allStack = false) :
      Move file options state seq interval
        ((({ state with suppliers, active }.released victim name interval).stacked
          victim.interval).bound
            { interval, seq, register := victim.register, bank := victim.bank } name)

/-- Handing a register back changes a flag. -/
theorem eq_of_giveBack {holder : Held} (done : state.giveBack holder = .ok state') :
    ∃ suppliers, state' = { state with suppliers } := by
  unfold giveBack at done
  split at done
  · cases done
  · split at done
    · cases done
    · obtain rfl := Except.ok.inj done
      exact ⟨_, rfl⟩

/-- Expiry changes flags and drops active entries. -/
theorem eq_of_expire {position : Nat} (done : state.expire position = .ok state') :
    ∃ suppliers active, state' = { state with suppliers, active } ∧
      active.entries.Sublist state.active.entries := by
  obtain ⟨suppliers, rfl⟩ : ∃ suppliers, state' =
      { state with suppliers, active := (state.active.expireBefore position).2 } := by
    refine foldlM_induction (motive := fun state' => ∃ suppliers, state' =
      { state with suppliers, active := (state.active.expireBefore position).2 }) ?_
      ⟨state.suppliers, rfl⟩ done
    rintro _ holder middle - ⟨suppliers, rfl⟩ handedBack
    obtain ⟨suppliers', rfl⟩ := eq_of_giveBack handedBack
    exact ⟨suppliers', rfl⟩
  exact ⟨suppliers, _, rfl, List.dropWhile_sublist _⟩

/-- A slot is given out only if there is room for it. -/
theorem eq_of_assignStack (done : state.assignStack interval = .ok state') :
    state' = state.stacked interval := by
  rw [assignStack_eq] at done
  split at done
  · cases done
  · exact (Except.ok.inj done).symm

/-- A register is bound under its name. -/
theorem eq_of_activate {file : RegisterFile} {register : RegisterId} {bank : BankRef}
    (done : state.activate file seq interval register bank = .ok state') :
    ∃ name, file.name register = .ok name ∧
      state' = state.bound { interval, seq, register, bank } name := by
  cases named : file.name register with
  | error fault =>
    rw [activate, named] at done
    cases done
  | ok name =>
    rw [activate_eq named] at done
    exact ⟨name, rfl, (Except.ok.inj done).symm⟩

/-- An eviction releases a register, and binds it again. -/
theorem eq_of_evict {file : RegisterFile} {victim : Held}
    (done : state.evict file seq victim interval = .ok state') :
    ∃ name, file.name victim.register = .ok name ∧ state' =
      ((({ state with active := state.active.dropLast }.released victim name interval).stacked
        victim.interval).bound
          { interval, seq, register := victim.register, bank := victim.bank } name) := by
  unfold evict at done
  split at done
  · cases done
  · next name named =>
    obtain ⟨middle, onStack, done⟩ := bind_eq_ok.mp done
    obtain rfl := eq_of_assignStack onStack
    obtain ⟨name', named', rfl⟩ := eq_of_activate done
    obtain rfl := Except.ok.inj (named.symm.trans named')
    exact ⟨name, named, rfl⟩

/-- With no register free, an interval goes to the stack or a holder does. -/
theorem move_of_spill {file : RegisterFile} (allowed : options.allStack = false)
    (done : state.spill file options.eviction seq interval = .ok state') :
    Move file options state seq interval state' := by
  have stacked : state.assignStack interval = .ok state' →
      Move file options state seq interval state' := by
    intro done
    obtain rfl := eq_of_assignStack done
    exact .stacked (List.Sublist.refl _)
  unfold spill at done
  split at done
  · next evicts =>
    split at done
    · exact stacked done
    · next victim last =>
      split at done
      · cases done
      · split at done
        · obtain ⟨name, named, rfl⟩ := eq_of_evict done
          have split : state.active.dropLast.entries ++ [victim] = state.active.entries :=
            List.dropLast_append_getLast? victim (Option.mem_def.mpr last)
          have fewer : (state.active.dropLast.entries ++ [victim]).Sublist state.active.entries :=
            split ▸ List.Sublist.refl _
          exact .evicted fewer named evicts allowed
        · exact stacked done
  · exact stacked done

/-- What is done behind an expiry is done by the step as a whole. -/
theorem Move.of_fewer {file : RegisterFile} {suppliers : List (List Supplier)}
    {active : ActiveSet}
    (fewer : active.entries.Sublist state.active.entries)
    (move : Move file options { state with suppliers, active } seq interval state') :
    Move file options state seq interval state' := by
  cases move with
  | stacked fewer' => exact .stacked (fewer'.trans fewer)
  | bound fewer' bank named => exact .bound (fewer'.trans fewer) bank named
  | evicted fewer' named evicts allowed => exact .evicted (fewer'.trans fewer) named evicts allowed

/-- Placing an interval does one of the three. -/
theorem move_of_place (done : state.place catalog options seq interval = .ok state') :
    Move catalog.registers options state seq interval state' := by
  unfold place at done
  split at done
  · obtain rfl := eq_of_assignStack done
    exact .stacked (List.Sublist.refl _)
  · next notOnly =>
    have allowed : options.allStack = false := Bool.eq_false_iff.mpr notOnly
    obtain ⟨middle, expired, done⟩ := bind_eq_ok.mp done
    obtain ⟨suppliers, active, rfl, fewer⟩ := eq_of_expire expired
    obtain ⟨found?, -, done⟩ := bind_eq_ok.mp done
    cases found? with
    | some found =>
      obtain ⟨name, named, rfl⟩ := eq_of_activate done
      exact .bound fewer found.bank named
    | none => exact (move_of_spill allowed done).of_fewer fewer

/-! ## The invariant -/

/-- **The books agree**, after some intervals have been placed. -/
structure Ledger (options : Options) (stackBase : Nat) (done : List Interval) (state : ScanState) :
    Prop where
  base : state.stackBase = stackBase
  ascending : state.assignment.Ascending
  /-- The temps of the intervals are those that have a place. -/
  covered : ∀ temp, state.assignment.get? temp ≠ none ↔ ∃ a ∈ done, a.temp = temp
  /-- Holders are assigned registers. -/
  inRegister : ∀ holder ∈ state.active.entries, holder.interval ∈ done ∧
    ∃ register, state.assignment.get? holder.interval.temp = some (.register register)
  /-- No temp holds two registers. -/
  single : (state.active.entries.map (·.interval.temp)).Nodup
  owned : ∀ slot ∈ slots state.events, slot.interval ∈ done
  /-- No temp has two slots. -/
  distinct : ((slots state.events).map (·.interval.temp)).Nodup
  /-- Who has a slot is on the stack, and nobody else is. -/
  onStack : ∀ temp offset, state.assignment.get? temp = some (.stack offset) ↔
    ∃ slot ∈ slots state.events, slot.entry = (temp, offset)
  tiled : Slot.Tile stackBase (slots state.events) state.cursor
  spills : state.spills = (slots state.events).length
  evictions : state.evictions ≤ state.spills
  /-- Without eviction, or with registers out of use, nobody is evicted. -/
  quiet : options.eviction = false ∨ options.allStack = true → state.evictions = 0

/-- The books are empty at first. -/
theorem ledger_reset (options : Options) (state : ScanState) (stackBase : Nat) :
    Ledger options stackBase [] (state.reset stackBase) where
  base := rfl
  ascending := List.Pairwise.nil
  covered := by simp [reset, Assignment.empty, Assignment.get?]
  inRegister := by simp [reset, ActiveSet.empty]
  single := List.nodup_nil
  owned := by simp [reset]
  distinct := by simp [reset]
  onStack := by simp [reset, Assignment.empty, Assignment.get?]
  tiled := rfl
  spills := rfl
  evictions := Nat.le_refl _
  quiet := fun _ => rfl

/-- Who expires is out of the active set, and the books stay as they are. -/
theorem Ledger.fewer (ledger : Ledger options stackBase done state)
    {suppliers : List (List Supplier)} {active : ActiveSet}
    (fewer : active.entries.Sublist state.active.entries) :
    Ledger options stackBase done { state with suppliers, active } :=
  { ledger with
    inRegister := fun holder member => ledger.inRegister holder (fewer.subset member)
    single := ledger.single.sublist (fewer.map _) }

/-- A temp of none of the intervals has no place. -/
theorem Ledger.get?_eq_none (ledger : Ledger options stackBase done state) {temp : TempId}
    (fresh : ∀ a ∈ done, a.temp ≠ temp) : state.assignment.get? temp = none := by
  rw [← not_ne_iff, ledger.covered]
  rintro ⟨a, member, same⟩
  exact fresh a member same

/-- Who is evicted is not among those that stay. -/
theorem Ledger.ne_victim (ledger : Ledger options stackBase done state) {active : ActiveSet}
    {victim : Held} (fewer : (active.entries ++ [victim]).Sublist state.active.entries) :
    ∀ holder ∈ active.entries, holder.interval.temp ≠ victim.interval.temp := by
  have single := ledger.single.sublist (fewer.map (·.interval.temp))
  rw [List.map_append, List.nodup_append] at single
  intro holder member
  exact single.2.2 _ (List.mem_map_of_mem member) _ List.mem_cons_self

/-- **A slot is given out** to an interval that has none, and whose temp holds no register. -/
theorem Ledger.stacked (ledger : Ledger options stackBase done state)
    (grown : ∀ a, a ∈ done' ↔ a ∈ done ∨ a = interval)
    (homeless : ∀ offset, state.assignment.get? interval.temp ≠ some (.stack offset))
    (leaves : ∀ holder ∈ state.active.entries, holder.interval.temp ≠ interval.temp) :
    Ledger options stackBase done' (state.stacked interval) := by
  have events : slots (state.stacked interval).events
      = slots state.events ++ [⟨interval, state.cursor⟩] := by
    simp [ScanState.stacked, log, Event.slot?]
  have new : ∀ slot ∈ slots state.events, slot.interval.temp ≠ interval.temp := by
    intro slot member same
    refine homeless slot.offset ((ledger.onStack _ _).mpr ⟨slot, member, ?_⟩)
    rw [Slot.entry, same]
  refine ⟨ledger.base, ledger.ascending.insert _ _, ?_, ?_, ledger.single, ?_, ?_, ?_, ?_, ?_,
    ?_, ?_⟩
  · intro temp
    rw [ScanState.stacked, Assignment.get?_insert]
    split
    · next same =>
      subst same
      simp [grown]
    · next other =>
      rw [ledger.covered temp]
      simp [grown, or_and_right, exists_or, Ne.symm other]
  · intro holder member
    obtain ⟨old, register, held⟩ := ledger.inRegister holder member
    refine ⟨(grown _).mpr (Or.inl old), register, ?_⟩
    rw [ScanState.stacked, Assignment.get?_insert, if_neg (leaves holder member)]
    exact held
  · rw [events]
    intro slot member
    rcases List.mem_append.mp member with old | last
    · exact (grown _).mpr (Or.inl (ledger.owned slot old))
    · obtain rfl := List.mem_singleton.mp last
      exact (grown _).mpr (Or.inr rfl)
  · rw [events, List.map_append, List.nodup_append]
    refine ⟨ledger.distinct, List.nodup_singleton _, ?_⟩
    intro temp member temp' member'
    obtain ⟨slot, isSlot, rfl⟩ := List.mem_map.mp member
    obtain rfl := List.mem_singleton.mp member'
    exact new slot isSlot
  · intro temp offset
    rw [events, ScanState.stacked, Assignment.get?_insert]
    split
    · next same =>
      subst same
      constructor
      · intro here
        cases here
        exact ⟨_, List.mem_append_right _ List.mem_cons_self, rfl⟩
      · rintro ⟨slot, member, entry⟩
        rcases List.mem_append.mp member with old | last
        · exact absurd (congrArg Prod.fst entry) (new slot old)
        · obtain rfl := List.mem_singleton.mp last
          rw [show offset = state.cursor from (congrArg Prod.snd entry).symm]
    · next other =>
      rw [ledger.onStack temp offset]
      simp [Slot.entry, Ne.symm other, or_and_right, exists_or]
  · rw [events]
    exact ledger.tiled.concat interval
  · rw [events, List.length_append, ← ledger.spills]
    rfl
  · exact Nat.le_succ_of_le ledger.evictions
  · exact ledger.quiet

/-- **A register is bound** to an interval of a new temp. -/
theorem Ledger.bound (ledger : Ledger options stackBase done state) (holder : Held) (name : String)
    (fresh : ∀ a ∈ done, a.temp ≠ holder.interval.temp) :
    Ledger options stackBase (done ++ [holder.interval]) (state.bound holder name) := by
  have events : slots (state.bound holder name).events = slots state.events := by
    simp [ScanState.bound, log, Event.slot?]
  have nowhere := ledger.get?_eq_none fresh
  obtain ⟨others, fewer, inserted⟩ :=
    ActiveSet.exists_insertEntry_perm state.active.entries holder
  refine ⟨ledger.base, ledger.ascending.insert _ _, ?_, ?_, ?_, ?_, ?_, ?_, ?_, ?_,
    ledger.evictions, ledger.quiet⟩
  · intro temp
    rw [ScanState.bound, Assignment.get?_insert]
    split
    · next same => simp [same]
    · next other =>
      rw [ledger.covered temp]
      simp [or_and_right, exists_or, Ne.symm other]
  · intro one member
    rcases List.mem_cons.mp (inserted.mem_iff.mp member) with rfl | old
    · refine ⟨List.mem_append_right _ List.mem_cons_self, one.register, ?_⟩
      rw [ScanState.bound, Assignment.get?_insert, if_pos rfl]
    · obtain ⟨isDone, register, held⟩ := ledger.inRegister one (fewer.subset old)
      refine ⟨List.mem_append_left _ isDone, register, ?_⟩
      rw [ScanState.bound, Assignment.get?_insert, if_neg (fresh _ isDone)]
      exact held
  · have temps := (inserted.map (·.interval.temp)).nodup_iff.mpr (by
      refine List.nodup_cons.mpr ⟨?_, ledger.single.sublist (fewer.map _)⟩
      intro member
      obtain ⟨one, isHolder, same⟩ := List.mem_map.mp member
      exact fresh _ (ledger.inRegister one (fewer.subset isHolder)).1 same)
    exact temps
  · rw [events]
    intro slot member
    exact List.mem_append_left _ (ledger.owned slot member)
  · rw [events]
    exact ledger.distinct
  · intro temp offset
    rw [events, ← ledger.onStack temp offset, ScanState.bound, Assignment.get?_insert]
    split
    · next same => simp [same, nowhere]
    · exact Iff.rfl
  · rw [events]
    exact ledger.tiled
  · rw [events]
    exact ledger.spills

/-- **A holder is evicted**: it gets a slot, and is counted twice. -/
theorem Ledger.evicted (ledger : Ledger options stackBase done state) {victim : Held}
    {active : ActiveSet} (fewer : (active.entries ++ [victim]).Sublist state.active.entries)
    (name : String)
    (evicts : options.eviction = true) (allowed : options.allStack = false)
    {suppliers : List (List Supplier)} :
    Ledger options stackBase done
      (({ state with suppliers, active }.released victim name interval).stacked
        victim.interval) := by
  obtain ⟨isDone, register, held⟩ := ledger.inRegister victim
    (fewer.subset (List.mem_append_right _ List.mem_cons_self))
  have rest : Ledger options stackBase done { state with suppliers, active } :=
    ledger.fewer ((List.sublist_append_left active.entries [victim]).trans fewer)
  have stacked : Ledger options stackBase done
      ({ state with suppliers, active }.stacked victim.interval) := by
    refine rest.stacked ?_ ?_ ?_
    · intro a
      exact ⟨Or.inl, fun | .inl old => old | .inr same => same ▸ isDone⟩
    · intro offset onStack
      cases held.symm.trans onStack
    · exact ledger.ne_victim fewer
  have events : slots (({ state with suppliers, active }.released victim name interval).stacked
      victim.interval).events =
        slots ({ state with suppliers, active }.stacked victim.interval).events := by
    simp [ScanState.stacked, released, log, Event.slot?]
  refine ⟨stacked.base, stacked.ascending, stacked.covered, stacked.inRegister, stacked.single,
    ?_, ?_, ?_, ?_, ?_, ?_, ?_⟩
  · rw [events]
    exact stacked.owned
  · rw [events]
    exact stacked.distinct
  · rw [events]
    exact stacked.onStack
  · rw [events]
    exact stacked.tiled
  · rw [events]
    exact stacked.spills
  · exact Nat.succ_le_succ ledger.evictions
  · rintro (off | only)
    · rw [evicts] at off
      cases off
    · rw [allowed] at only
      cases only

/-- **One step** keeps the books in order. -/
theorem Ledger.move {file : RegisterFile} (ledger : Ledger options stackBase done state)
    (fresh : ∀ a ∈ done, a.temp ≠ interval.temp)
    (move : Move file options state seq interval state') :
    Ledger options stackBase (done ++ [interval]) state' := by
  cases move with
  | stacked fewer =>
    refine (ledger.fewer fewer).stacked (by simp) ?_ ?_
    · intro offset onStack
      cases (ledger.get?_eq_none fresh).symm.trans onStack
    · intro holder member
      exact fresh _ (ledger.inRegister holder (fewer.subset member)).1
  | @bound _ _ fewer register bank name named =>
    exact (ledger.fewer fewer).bound ⟨interval, seq, register, bank⟩ name fresh
  | @evicted _ _ victim fewer name named evicts allowed =>
    exact (ledger.evicted fewer name evicts allowed).bound
      ⟨interval, seq, victim.register, victim.bank⟩ name fresh

/-- **A whole run** over intervals of distinct temps keeps the books in order. -/
theorem ledger_of_placeAll {intervals : List Interval}
    (distinct : (intervals.map Interval.temp).Nodup) (before : ScanState)
    (completed : (before.reset stackBase).placeAll catalog options 0 intervals = .ok state) :
    Ledger options stackBase intervals state := by
  refine numbered_induction (fun _ _ => rfl) (fun _ _ _ _ => rfl) intervals ?_
    (ledger_reset options before stackBase) completed
  intro done interval state state' beginning ledger placed
  obtain ⟨fresh, -⟩ := PlainScan.fresh_of_beginning distinct beginning
  exact ledger.move fresh (move_of_place placed)

/-! ## Registers of the result -/

/-- The registers that temps live in all have names. -/
def AllNamed (file : RegisterFile) (assignment : Assignment) : Prop :=
  ∀ entry ∈ assignment.entries, ∀ register, entry.2 = .register register →
    ∃ name, file.name register = .ok name

/-- A slot needs no name. -/
theorem AllNamed.stack {file : RegisterFile} {assignment : Assignment}
    (named : AllNamed file assignment) (temp : TempId) (offset : Nat) :
    AllNamed file (assignment.insert temp (.stack offset)) := by
  intro entry member register here
  rcases Assignment.mem_of_mem_insertEntry member with rfl | old
  · cases here
  · exact named entry old register here

/-- A register with a name may be assigned. -/
theorem AllNamed.register {file : RegisterFile} {assignment : Assignment}
    (named : AllNamed file assignment) (temp : TempId) {id : RegisterId} {name : String}
    (isNamed : file.name id = .ok name) :
    AllNamed file (assignment.insert temp (.register id)) := by
  intro entry member register here
  rcases Assignment.mem_of_mem_insertEntry member with rfl | old
  · cases here
    exact ⟨name, isNamed⟩
  · exact named entry old register here

/-- **One step** assigns no register that has no name. -/
theorem AllNamed.move {file : RegisterFile} (named : AllNamed file state.assignment)
    (move : Move file options state seq interval state') : AllNamed file state'.assignment := by
  cases move with
  | stacked fewer => exact named.stack _ _
  | bound fewer bank isNamed => exact named.register _ isNamed
  | evicted fewer isNamed evicts allowed => exact (named.stack _ _).register _ isNamed

/-- **A whole run** assigns no register that has no name. -/
theorem allNamed_of_placeAll {intervals : List Interval} (before : ScanState)
    (completed : (before.reset stackBase).placeAll catalog options 0 intervals = .ok state) :
    AllNamed catalog.registers state.assignment := by
  refine numbered_induction (motive := fun _ state => AllNamed catalog.registers state.assignment)
    (fun _ _ => rfl) (fun _ _ _ _ => rfl) intervals ?_ ?_ completed
  · intro done interval state state' _ named placed
    exact named.move (move_of_place placed)
  · intro entry member
    cases member

/-- Registers with names are in the file, so it can be asked which of them are callee-saved. -/
theorem calleeSaved_eq {file : RegisterFile} (named : AllNamed file state.assignment) :
    state.calleeSaved file = .ok (state.assignment.registers.filter fun id =>
      (file.get? id).any (·.calleeSaved)) := by
  refine filterM_eq_ok ?_
  intro id member
  obtain ⟨entry, isEntry, inRegister⟩ := Assignment.mem_registers.mp member
  obtain ⟨name, isNamed⟩ := named entry isEntry id inRegister
  obtain ⟨register, found⟩ := RegisterFile.exists_get_of_name isNamed
  rw [found, RegisterFile.get_eq_ok_iff.mp found]
  rfl

end ScanState

end LinearScan
