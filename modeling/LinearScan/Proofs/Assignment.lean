import LinearScan.Allocation
import Mathlib.Data.List.Nodup

/-!
# Assignments as maps

An assignment is kept as a list in ascending order of its temps.  Looking a temp up sees
none of that: the last location that was said of a temp is the one that is found, whatever
the list looked like before.

The order is what makes the list itself a fair account.  It holds each temp once, with the
location that is found for it (`Ascending.get?_eq_some_iff`), so that counting its entries is
counting temps.
-/

namespace LinearScan

/-- The offset of a location on the stack. -/
def Location.offset? : Location → Option Nat
  | register _ => none
  | stack offset => some offset

namespace Assignment

variable {temp other : TempId} {location : Location}

/-- Among pairs, the inserted one is found first, and all others are found as before. -/
theorem find?_insertEntry (entries : List (TempId × Location)) :
    (insertEntry temp location entries).find? (fun entry => entry.1 == other) =
      if other = temp then some (temp, location)
      else entries.find? fun entry => entry.1 == other := by
  induction entries with
  | nil =>
    by_cases same : other = temp
    · simp [insertEntry, same]
    · simp [insertEntry, same, Ne.symm same]
  | cons entry rest ih =>
    unfold insertEntry
    by_cases same : other = temp
    · subst same
      split
      · simp
      · split
        · simp
        · next differs =>
          have behind : (entry.1 == other) = false := by simpa using Ne.symm differs
          rw [List.find?_cons, behind, ih, if_pos rfl, if_pos rfl]
    · have apart : (temp == other) = false := by simpa using Ne.symm same
      rw [if_neg same] at ih ⊢
      split
      · rw [List.find?_cons, apart]
      · split
        · next equal => rw [List.find?_cons, List.find?_cons, apart, ← equal, apart]
        · rw [List.find?_cons, List.find?_cons, ih]

/-- **Looking up what was said**: the new location of the temp, and of any other temp what
was said before. -/
@[simp] theorem get?_insert (assignment : Assignment) :
    (assignment.insert temp location).get? other =
      if other = temp then some location else assignment.get? other := by
  rw [get?, insert, find?_insertEntry]
  by_cases same : other = temp
  · simp [same]
  · simp [same, get?]

/-! ## The order of the entries -/

/-- Each temp once, in ascending order. -/
def Ascending (assignment : Assignment) : Prop :=
  assignment.entries.Pairwise (·.1.index < ·.1.index)

/-- Insertion brings in nothing but the new pair. -/
theorem mem_of_mem_insertEntry {entries : List (TempId × Location)} {entry : TempId × Location}
    (member : entry ∈ insertEntry temp location entries) :
    entry = (temp, location) ∨ entry ∈ entries := by
  induction entries with
  | nil => exact Or.inl (List.mem_singleton.mp member)
  | cons first rest ih =>
    unfold insertEntry at member
    split at member
    · exact List.mem_cons.mp member
    · split at member
      · exact (List.mem_cons.mp member).imp_right (List.mem_cons_of_mem _)
      · rcases List.mem_cons.mp member with rfl | later
        · exact Or.inr List.mem_cons_self
        · exact (ih later).imp_right (List.mem_cons_of_mem _)

/-- Insertion keeps the order. -/
theorem Ascending.insert {assignment : Assignment} (ascending : assignment.Ascending)
    (temp : TempId) (location : Location) : (assignment.insert temp location).Ascending := by
  obtain ⟨entries⟩ := assignment
  show (insertEntry temp location entries).Pairwise (·.1.index < ·.1.index)
  change entries.Pairwise (·.1.index < ·.1.index) at ascending
  induction entries with
  | nil => exact List.pairwise_singleton _ _
  | cons first rest ih =>
    obtain ⟨below, ascendingRest⟩ := List.pairwise_cons.mp ascending
    unfold insertEntry
    split
    · next less =>
      refine List.pairwise_cons.mpr ⟨List.forall_mem_cons.mpr ⟨less, ?_⟩, ascending⟩
      intro entry member
      exact Nat.lt_trans less (below entry member)
    · next notLess =>
      split
      · next same =>
        refine List.pairwise_cons.mpr ⟨?_, ascendingRest⟩
        rw [same]
        exact below
      · next differs =>
        have above : first.1.index < temp.index := by
          have apart : temp.index ≠ first.1.index := by
            intro equal
            obtain ⟨⟨index⟩, place⟩ := first
            obtain rfl : temp.index = index := equal
            exact differs rfl
          omega
        refine List.pairwise_cons.mpr ⟨?_, ih ascendingRest⟩
        intro entry member
        rcases mem_of_mem_insertEntry member with rfl | old
        · exact above
        · exact below entry old

/-- No temp is listed twice. -/
theorem Ascending.nodup_temps {assignment : Assignment} (ascending : assignment.Ascending) :
    (assignment.entries.map Prod.fst).Nodup :=
  List.pairwise_map.mpr (ascending.imp fun less same => Nat.ne_of_lt less (congrArg _ same))

/-- **The list holds what is found.** -/
theorem Ascending.get?_eq_some_iff {assignment : Assignment} (ascending : assignment.Ascending) :
    assignment.get? temp = some location ↔ (temp, location) ∈ assignment.entries := by
  unfold get?
  rw [Option.map_eq_some_iff]
  constructor
  · rintro ⟨entry, found, rfl⟩
    have same := List.find?_some found
    rw [beq_iff_eq] at same
    rw [← same]
    exact List.mem_of_find?_eq_some found
  · intro member
    cases found : assignment.entries.find? fun entry => entry.1 == temp with
    | none => exact absurd (List.find?_eq_none.mp found _ member) (by simp)
    | some entry =>
      have same := List.find?_some found
      rw [beq_iff_eq] at same
      have equal := List.inj_on_of_nodup_map ascending.nodup_temps
        (List.mem_of_find?_eq_some found) member same
      exact ⟨entry, rfl, congrArg Prod.snd equal⟩

/-! ## Registers that temps live in -/

/-- A register is listed exactly if a temp lives in it. -/
theorem mem_registers {assignment : Assignment} {register : RegisterId} :
    register ∈ assignment.registers ↔
      ∃ entry ∈ assignment.entries, entry.2 = .register register := by
  have inserted : ∀ (ids chosen : List RegisterId),
      register ∈ ids.foldl (fun ids id => RegisterId.insert id ids) chosen ↔
        register ∈ ids ∨ register ∈ chosen := by
    intro ids
    induction ids with
    | nil => simp
    | cons id rest ih =>
      intro chosen
      rw [List.foldl_cons, ih, RegisterId.mem_insert, List.mem_cons, or_left_comm, or_assoc]
  have isRegister : ∀ place : Location, place.register? = some register ↔
      place = .register register := by
    intro place
    cases place <;> simp [Location.register?]
  rw [registers, inserted]
  simp only [List.mem_filterMap, List.not_mem_nil, or_false, isRegister]

/-! ## Temps on the stack -/

/-- The temps that live on the stack, each with its offset. -/
def onStack (assignment : Assignment) : List (TempId × Nat) :=
  assignment.entries.filterMap fun entry => entry.2.offset?.map (entry.1, ·)

/-- A temp is listed with the offset where it is found. -/
theorem Ascending.mem_onStack {assignment : Assignment} (ascending : assignment.Ascending)
    {offset : Nat} :
    (temp, offset) ∈ assignment.onStack ↔ assignment.get? temp = some (.stack offset) := by
  rw [ascending.get?_eq_some_iff]
  simp only [onStack, List.mem_filterMap, Option.map_eq_some_iff, Prod.mk.injEq, Prod.exists]
  constructor
  · rintro ⟨_, place, member, _, atOffset, rfl, rfl⟩
    cases place with
    | register register => cases atOffset
    | stack offset => exact Option.some.inj atOffset ▸ member
  · intro member
    exact ⟨temp, _, member, offset, rfl, rfl, rfl⟩

/-- No temp is listed twice. -/
theorem Ascending.nodup_onStack {assignment : Assignment} (ascending : assignment.Ascending) :
    assignment.onStack.Nodup := by
  refine List.Nodup.filterMap ?_ (List.Nodup.of_map _ ascending.nodup_temps)
  rintro ⟨temp, place⟩ ⟨temp', place'⟩ ⟨temp'', offset⟩ first second
  cases place with
  | register register => cases first
  | stack offset =>
    cases place' with
    | register register => cases second
    | stack offset' =>
      cases first
      cases second
      rfl

end Assignment

end LinearScan
