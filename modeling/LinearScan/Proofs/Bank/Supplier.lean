import LinearScan.Bank.Supplier
import LinearScan.Proofs.Outcome
import Mathlib.Data.List.FinRange
import Mathlib.Data.List.Nodup

/-!
# Suppliers as sets of free registers

A supplier finds the flag of a register by place in one direction and by search in the
other.  Both agree because a bank holds no register twice; from here on only
`Supplier.isFree` is visible, and flags and places are not.

* `mark` — changes the flag of one register
* `nextM_eq`, `next?_eq` — taking a register is first fit over the bank, then marking it taken
* `giveBack_eq` — returning a register that was taken succeeds, and marks it free
* `giveBack_eq_error_iff` — returning a register that is free is the only fault

Both operations are equations rather than inclusions, so that a whole scan can be rewritten
with them.
-/

namespace LinearScan

namespace Supplier

variable {supplier : Supplier} {register other : RegisterId}
  {slot : Fin supplier.bank.registers.length}

/-! ## Places and flags -/

/-- The search for a register finds the one place it is at. -/
theorem slot?_eq_some_iff (nodup : supplier.bank.registers.Nodup) :
    supplier.slot? register = some slot ↔ supplier.bank.registers.get slot = register := by
  rw [slot?, List.findFinIdx?_eq_some_iff]
  constructor
  · rintro ⟨here, -⟩
    exact beq_iff_eq.mp here
  · intro here
    refine ⟨beq_iff_eq.mpr here, ?_⟩
    intro earlier before same
    exact absurd ((List.nodup_iff_injective_get.mp nodup) ((beq_iff_eq.mp same).trans here.symm))
      (Fin.ne_of_lt before)

/-- A register outside of the bank has no place. -/
theorem slot?_eq_none_iff :
    supplier.slot? register = none ↔ register ∉ supplier.bank.registers := by
  rw [slot?, List.findFinIdx?_eq_none_iff]
  constructor
  · intro differs member
    exact differs register member (beq_iff_eq.mpr rfl)
  · intro notMember other member same
    exact notMember (beq_iff_eq.mp same ▸ member)

/-- A register of the bank has its place. -/
theorem exists_slot (nodup : supplier.bank.registers.Nodup)
    (member : register ∈ supplier.bank.registers) :
    ∃ slot, supplier.slot? register = some slot ∧ supplier.bank.registers.get slot = register := by
  obtain ⟨slot, here⟩ := List.get_of_mem member
  exact ⟨slot, (slot?_eq_some_iff nodup).mpr here, here⟩

/-- The flag at a place says whether the register there is free. -/
theorem flag_eq (nodup : supplier.bank.registers.Nodup)
    (slot : Fin supplier.bank.registers.length) :
    supplier.flag slot = supplier.isFree (supplier.bank.registers.get slot) := by
  rw [isFree, (slot?_eq_some_iff nodup).mpr rfl]

/-- Before the first register is taken, all of a bank's registers are free. -/
theorem isFree_ofBank {bank : Bank} (nodup : bank.registers.Nodup)
    (member : register ∈ bank.registers) : (ofBank bank).isFree register = true := by
  obtain ⟨slot, found, -⟩ := @exists_slot (ofBank bank) register nodup member
  rw [isFree, found]
  simp [flag, ofBank]

/-- The flags are read off place by place or register by register. -/
theorem free_eq (nodup : supplier.bank.registers.Nodup) :
    supplier.free = supplier.bank.registers.map supplier.isFree := by
  apply List.ext_getElem
  · rw [List.length_map, supplier.length_free]
  · intro place inFlags inMap
    have inside : place < supplier.bank.registers.length := supplier.length_free ▸ inFlags
    rw [List.getElem_map]
    exact flag_eq nodup ⟨place, inside⟩

/-- The flag at a place is that of the register there. -/
theorem getElem?_free (nodup : supplier.bank.registers.Nodup) {place : Nat}
    (found : supplier.bank.registers[place]? = some register) :
    supplier.free[place]? = some (supplier.isFree register) := by
  rw [free_eq nodup, List.getElem?_map, found, Option.map_some]

/-! ## Changing one flag -/

/-- Changes the flag of one register. -/
def mark (supplier : Supplier) (register : RegisterId) (free : Bool) : Supplier :=
  match supplier.slot? register with
  | some slot => supplier.setFlag slot free
  | none => supplier

@[simp] theorem bank_mark (supplier : Supplier) (register : RegisterId) (free : Bool) :
    (supplier.mark register free).bank = supplier.bank := by
  unfold mark
  split <;> rfl

/-- The register at a place is marked by changing the flag there. -/
theorem mark_get (nodup : supplier.bank.registers.Nodup)
    (slot : Fin supplier.bank.registers.length) (free : Bool) :
    supplier.mark (supplier.bank.registers.get slot) free = supplier.setFlag slot free := by
  rw [mark, (slot?_eq_some_iff nodup).mpr rfl]

/-- Changing a flag changes that flag alone. -/
theorem isFree_mark (nodup : supplier.bank.registers.Nodup)
    (member : register ∈ supplier.bank.registers) (free : Bool) :
    (supplier.mark register free).isFree other =
      if other = register then free else supplier.isFree other := by
  obtain ⟨slot, -, rfl⟩ := exists_slot nodup member
  rw [mark_get nodup]
  by_cases inBank : other ∈ supplier.bank.registers
  · obtain ⟨place, -, rfl⟩ := exists_slot nodup inBank
    -- The bank is the same, so a register is found at the same place.
    have changed : (supplier.free.set slot free)[place.val]? =
        some ((supplier.setFlag slot free).isFree (supplier.bank.registers.get place)) :=
      @getElem?_free (supplier.setFlag slot free) _ nodup _ (List.getElem?_eq_getElem _)
    have inside : slot.val < supplier.free.length := supplier.length_free.symm ▸ slot.isLt
    rw [List.getElem?_set] at changed
    by_cases same : place = slot
    · subst same
      rw [if_pos rfl, if_pos inside] at changed
      rw [if_pos rfl]
      exact (Option.some.inj changed).symm
    · have apart := (List.nodup_iff_injective_get.mp nodup).ne same
      rw [if_neg fun equal => same (Fin.ext equal.symm),
        getElem?_free nodup (List.getElem?_eq_getElem place.isLt)] at changed
      rw [if_neg apart, ← Option.some.inj changed]
      rfl
  · have nowhere : (supplier.setFlag slot free).slot? other = none := slot?_eq_none_iff.mpr inBank
    have differs : other ≠ supplier.bank.registers.get slot := by
      rintro rfl
      exact inBank (List.get_mem _ _)
    rw [isFree, nowhere, if_neg differs, isFree, slot?_eq_none_iff.mpr inBank]

/-! ## Taking and returning -/

/-- The first place with a property is that of the first register with it. -/
theorem find?_finRange (registers : List RegisterId) (suits : RegisterId → Bool) :
    ((List.finRange registers.length).find? (suits ∘ registers.get)).map registers.get =
      registers.find? suits := by
  rw [← List.find?_map, List.map_get_finRange]

/-- **Taking a register** is first fit over the registers that are free and admissible, if the
test is a plain one on the registers of the bank. -/
theorem nextM_eq {m : Type → Type} [Monad m] [LawfulMonad m]
    (nodup : supplier.bank.registers.Nodup) {test : RegisterId → m Bool}
    {admissible : RegisterId → Bool}
    (passes : ∀ register ∈ supplier.bank.registers, test register = pure (admissible register)) :
    supplier.nextM test = pure ((supplier.bank.registers.find? fun register =>
      supplier.isFree register && admissible register).map fun register =>
        (register, supplier.mark register false)) := by
  let suits : RegisterId → Bool := fun register => supplier.isFree register && admissible register
  have search : ((List.finRange supplier.bank.registers.length).findM? fun slot =>
      if supplier.flag slot then test (supplier.bank.registers.get slot) else pure false)
        = pure ((List.finRange supplier.bank.registers.length).find?
          (suits ∘ supplier.bank.registers.get)) := by
    refine Outcome.findM?_eq_pure ?_
    rintro slot -
    rw [passes _ (List.get_mem _ _), flag_eq nodup]
    show _ = pure (supplier.isFree (supplier.bank.registers.get slot) && _)
    cases supplier.isFree (supplier.bank.registers.get slot) with
    | true => rfl
    | false => rfl
  rw [nextM, search, pure_bind, ← find?_finRange, Option.map_map]
  refine congrArg pure (congrArg (Option.map · _) (funext fun slot => ?_))
  rw [Function.comp_apply, mark_get nodup]

/-- Taking a register with a plain test is first fit. -/
theorem next?_eq (nodup : supplier.bank.registers.Nodup) (admissible : RegisterId → Bool) :
    supplier.next? admissible =
      (supplier.bank.registers.find? fun register =>
        supplier.isFree register && admissible register).map fun register =>
          (register, supplier.mark register false) := by
  rw [next?, nextM_eq nodup fun _ _ => rfl]
  rfl

/-- **Returning a register** that is taken marks it free. -/
theorem giveBack_eq (member : register ∈ supplier.bank.registers)
    (taken : supplier.isFree register = false) :
    supplier.giveBack register = .ok (supplier.mark register true) := by
  unfold giveBack mark
  cases found : supplier.slot? register with
  | none => exact absurd member (slot?_eq_none_iff.mp found)
  | some slot => simp [taken]

/-- Registers of other banks are ignored. -/
theorem giveBack_of_notMem (foreign : register ∉ supplier.bank.registers) :
    supplier.giveBack register = .ok supplier := by
  rw [giveBack, slot?_eq_none_iff.mpr foreign]

/-- **Returning a register fails** exactly if it is a register of the bank and free. -/
theorem giveBack_eq_error_iff {fault : Fault} :
    supplier.giveBack register = .error fault ↔
      register ∈ supplier.bank.registers ∧ supplier.isFree register = true ∧
        fault = .returnedTwice register := by
  by_cases member : register ∈ supplier.bank.registers
  · cases free : supplier.isFree register with
    | false => simp [giveBack_eq member free]
    | true =>
      unfold giveBack
      cases found : supplier.slot? register with
      | none => exact absurd member (slot?_eq_none_iff.mp found)
      | some slot => simp [free, member, eq_comm]
  · simp [giveBack_of_notMem member, member]

/-- A return of a register of the bank that does not fail is that of a register that was taken. -/
theorem eq_mark_of_giveBack {after : Supplier} (member : register ∈ supplier.bank.registers)
    (returned : supplier.giveBack register = .ok after) :
    supplier.isFree register = false ∧ after = supplier.mark register true := by
  cases free : supplier.isFree register with
  | false =>
    rw [giveBack_eq member free] at returned
    exact ⟨rfl, (Except.ok.inj returned).symm⟩
  | true =>
    rw [giveBack_eq_error_iff.mpr ⟨member, free, rfl⟩] at returned
    cases returned

/-- A reset supplier is a fresh one. -/
theorem reset_eq (supplier : Supplier) : supplier.reset = ofBank supplier.bank := by
  unfold reset ofBank
  congr 1
  rw [List.map_const', List.map_const', supplier.length_free]

end Supplier

end LinearScan
