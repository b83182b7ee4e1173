import LinearScan.Proofs.Register.Overlap
import Mathlib.Data.List.Sort

/-!
# Register files are in order

A register carries its own id, its file indexes it by name, and its overlap set is a list.
None of these can be chosen freely in a file that can be made: an id is the place of its
register, no name is given twice, the index of names is the one that the registers spell out,
and an overlap set is ascending.

So a file is determined by the sizes, flags and names of its registers and by who overlaps
whom (`Register.Orderly`).  Everything after a declaration updates a register in place, and
`Register.Orderly.modify` says once what such an update has to leave alone.
-/

namespace LinearScan

/-- Lists that ascend strictly are told apart by their members. -/
theorem eq_of_ascending {α : Type} {key : α → Nat} {xs ys : List α}
    (ascending : xs.Pairwise (key · < key ·)) (ascending' : ys.Pairwise (key · < key ·))
    (same : ∀ a, a ∈ xs ↔ a ∈ ys) : xs = ys := by
  have : Std.Irrefl fun a b : α => key a < key b := ⟨fun a => Nat.lt_irrefl (key a)⟩
  have : Std.Antisymm fun a b : α => key a < key b :=
    ⟨fun _ _ less greater => absurd greater (Nat.lt_asymm less)⟩
  exact ascending.eq_of_mem_iff ascending' same

namespace Register

/-- The names of registers, each with its id. -/
def keys (registers : Array Register) : List (String × RegisterId) :=
  registers.toList.map fun register => (register.name, register.id)

theorem keys_push (registers : Array Register) (register : Register) :
    keys (registers.push register) = keys registers ++ [(register.name, register.id)] := by
  simp [keys]

/-- An update that keeps the name and the id of a register keeps those of all. -/
theorem keys_modify {change : Register → Register}
    (sameKey : ∀ register, ((change register).name, (change register).id) =
      (register.name, register.id)) (registers : Array Register) (index : Nat) :
    keys (registers.modify index change) = keys registers := by
  refine List.ext_getElem? fun place => ?_
  simp only [keys, List.getElem?_map, Array.getElem?_toList, Array.getElem?_modify]
  split
  · next here =>
    rw [Option.map_map]
    exact congrArg (Option.map · registers[place]?) (funext sameKey)
  · rfl

/-- What stands at a place after an update stood there before it, up to the update. -/
theorem exists_of_getElem?_modify {registers : Array Register} {change : Register → Register}
    {index place : Nat} {register : Register}
    (found : (registers.modify index change)[place]? = some register) :
    ∃ old, registers[place]? = some old ∧ (register = change old ∨ register = old) := by
  rw [Array.getElem?_modify] at found
  split at found
  · obtain ⟨old, atPlace, rfl⟩ := Option.map_eq_some_iff.mp found
    exact ⟨old, atPlace, Or.inl rfl⟩
  · exact ⟨register, found, Or.inr rfl⟩

/-- **Registers in order**, with an index of their names. -/
structure Orderly (registers : Array Register) (byName : Std.HashMap String RegisterId) :
    Prop where
  id_eq : ∀ (place : Nat) (register : Register),
    registers[place]? = some register → register.id = ⟨place⟩
  index : byName = .ofList (keys registers)
  distinct : ((keys registers).map Prod.fst).Nodup
  ascending : ∀ (place : Nat) (register : Register),
    registers[place]? = some register → register.overlaps.Pairwise (·.index < ·.index)

namespace Orderly

variable {registers : Array Register} {byName : Std.HashMap String RegisterId}

/-- A register of a new name may be added at the end. -/
theorem push (orderly : Orderly registers byName) {register : Register}
    (fresh : byName.contains register.name = false) (atEnd : register.id = ⟨registers.size⟩)
    (ascending : register.overlaps.Pairwise (·.index < ·.index)) :
    Orderly (registers.push register) (byName.insert register.name register.id) where
  id_eq place other found := by
    rw [Array.getElem?_push] at found
    split at found
    · next last =>
      obtain rfl := Option.some.inj found
      rw [atEnd, last]
    · exact orderly.id_eq place other found
  index := by
    rw [keys_push, Std.HashMap.ofList_eq_insertMany_empty, Std.HashMap.insertMany_append,
      ← Std.HashMap.ofList_eq_insertMany_empty, ← orderly.index,
      Std.HashMap.insertMany_list_singleton]
  distinct := by
    have absent : register.name ∉ (keys registers).map Prod.fst := by
      rw [orderly.index, Std.HashMap.contains_ofList] at fresh
      simpa using fresh
    rw [keys_push, List.map_append, List.nodup_append]
    refine ⟨orderly.distinct, by simp, ?_⟩
    rintro name member other isNew rfl
    obtain rfl : name = register.name := by simpa using isNew
    exact absent member
  ascending place other found := by
    rw [Array.getElem?_push] at found
    split at found
    · obtain rfl := Option.some.inj found
      exact ascending
    · exact orderly.ascending place other found

/-- **A register may be updated in place** as long as its name, its id and the order of its
overlap set are left alone. -/
theorem modify (orderly : Orderly registers byName) {change : Register → Register}
    (sameKey : ∀ register, ((change register).name, (change register).id) =
      (register.name, register.id))
    (ascending : ∀ register : Register, register.overlaps.Pairwise (·.index < ·.index) →
      (change register).overlaps.Pairwise (·.index < ·.index)) (index : Nat) :
    Orderly (registers.modify index change) byName := by
  refine ⟨?_, ?_, ?_, ?_⟩
  · intro place register found
    obtain ⟨old, atPlace, rfl | rfl⟩ := exists_of_getElem?_modify found
    · rw [(Prod.mk.inj (sameKey old)).2]
      exact orderly.id_eq place old atPlace
    · exact orderly.id_eq place register atPlace
  · rw [keys_modify sameKey]
    exact orderly.index
  · rw [keys_modify sameKey]
    exact orderly.distinct
  · intro place register found
    obtain ⟨old, atPlace, rfl | rfl⟩ := exists_of_getElem?_modify found
    · exact ascending old (orderly.ascending place old atPlace)
    · exact orderly.ascending place register atPlace

/-- Taking registers out of allocation leaves them in order. -/
theorem reserve (ids : List RegisterId) :
    ∀ {registers : Array Register}, Orderly registers byName →
      Orderly (RegisterFile.reserve registers ids) byName := by
  induction ids with
  | nil => exact fun orderly => orderly
  | cons id rest ih =>
    intro registers orderly
    rw [RegisterFile.reserve, List.foldl_cons]
    refine ih (orderly.modify ?_ ?_ id.index)
    · exact fun _ => rfl
    · exact fun _ ascending => ascending

/-- Registers of one name are one. -/
theorem eq_of_name_eq (orderly : Orderly registers byName) {id id' : RegisterId}
    {register register' : Register} (found : registers[id.index]? = some register)
    (found' : registers[id'.index]? = some register') (same : register.name = register'.name) :
    id = id' := by
  have named : ∀ {place : Nat} {register : Register}, registers[place]? = some register →
      ((keys registers).map Prod.fst)[place]? = some register.name := by
    intro place register found
    simp [keys, found]
  have inFile := (List.getElem?_eq_some_iff.mp (named found)).1
  have samePlace : id.index = id'.index := by
    refine (List.getElem?_inj inFile orderly.distinct).mp ?_
    rw [named found, named found', same]
  cases id
  cases id'
  exact congrArg RegisterId.mk samePlace

/-- **The index of names** leads to the registers that carry them. -/
theorem getElem?_byName (orderly : Orderly registers byName) {name : String} {id : RegisterId} :
    byName[name]? = some id ↔
      ∃ register, registers[id.index]? = some register ∧ register.name = name := by
  have isKey : ∀ {place : Nat} {register : Register}, registers[place]? = some register →
      (register.name, (⟨place⟩ : RegisterId)) ∈ keys registers := by
    intro place register found
    rw [← orderly.id_eq place register found]
    exact List.mem_map_of_mem (Array.mem_toList_iff.mpr (Array.mem_of_getElem? found))
  have apart : (keys registers).Pairwise fun a b => (a.1 == b.1) = false := by
    refine (List.pairwise_map.mp orderly.distinct).imp ?_
    intro a b differ
    exact beq_eq_false_iff_ne.mpr differ
  constructor
  · intro found
    have known : name ∈ (keys registers).map Prod.fst := by
      by_contra unknown
      rw [orderly.index, Std.HashMap.getElem?_ofList_of_contains_eq_false (by simpa using unknown)]
        at found
      cases found
    obtain ⟨⟨_, id'⟩, member, rfl⟩ := List.mem_map.mp known
    obtain ⟨register, inFile, same⟩ := List.mem_map.mp member
    obtain ⟨place, atPlace⟩ := Array.mem_iff_getElem?.mp (Array.mem_toList_iff.mp inFile)
    rw [orderly.index, Std.HashMap.getElem?_ofList_of_mem (beq_iff_eq.mpr rfl) apart member] at found
    obtain rfl := Option.some.inj found
    obtain ⟨rfl, rfl⟩ := Prod.mk.inj same
    rw [orderly.id_eq place register atPlace]
    exact ⟨register, atPlace, rfl⟩
  · rintro ⟨register, found, rfl⟩
    rw [orderly.index]
    exact Std.HashMap.getElem?_ofList_of_mem (beq_iff_eq.mpr rfl) apart (isKey found)

end Orderly

end Register

namespace RegisterBuilder

/-- A builder whose registers are in order. -/
def Orderly (builder : RegisterBuilder) : Prop :=
  Register.Orderly builder.registers builder.byName

variable {builder : RegisterBuilder}

/-- Updating a register in place. -/
theorem Orderly.update (orderly : builder.Orderly) {change : Register → Register}
    (sameKey : ∀ register, ((change register).name, (change register).id) =
      (register.name, register.id))
    (ascending : ∀ register : Register, register.overlaps.Pairwise (·.index < ·.index) →
      (change register).overlaps.Pairwise (·.index < ·.index)) (id : RegisterId) :
    (builder.update id change).Orderly :=
  orderly.modify sameKey ascending id.index

/-- Extending an overlap set. -/
theorem Orderly.addOverlap (orderly : builder.Orderly) (id other : RegisterId) :
    (builder.addOverlap id other).Orderly := by
  rw [RegisterBuilder.addOverlap]
  refine orderly.update ?_ ?_ id
  · exact fun _ => rfl
  · exact fun _ ascending => RegisterId.pairwise_insert other ascending

/-- A builder that can be reached has its registers in order. -/
theorem Reachable.orderly (reachable : builder.Reachable) : builder.Orderly := by
  refine Reachable.induction ?_ ?_ ?_ ?_ reachable
  · exact ⟨by simp [RegisterBuilder.empty], rfl, by simp [RegisterBuilder.empty, Register.keys],
      by simp [RegisterBuilder.empty]⟩
  · intro builder name size storage calleeSaved accepted ih
    obtain ⟨-, fresh, -⟩ := refusal?_eq_none_iff.mp accepted
    exact ih.push fresh rfl (List.pairwise_singleton _ _)
  · intro builder a b _ _ ih
    exact (ih.addOverlap a b).addOverlap b a
  · intro builder id usable _ ih
    rw [flag]
    refine ih.update ?_ ?_ id
    · exact fun _ => rfl
    · exact fun _ ascending => ascending

end RegisterBuilder

/-- **A file that can be reached has its registers in order.** -/
theorem RegisterFile.Reachable.orderly {file : RegisterFile} (reachable : file.Reachable) :
    Register.Orderly file.registers file.byName := by
  induction reachable with
  | build built => exact built.orderly.reserve _
  | disable _ done ih =>
    obtain ⟨ids, rfl⟩ := eq_reserve_of_disable done
    exact ih.reserve ids

end LinearScan
