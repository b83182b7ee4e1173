import LinearScan.Proofs.Register.Overlap
import Mathlib.Logic.Basic

/-!
# Which registers stay usable

A register is reserved in one of two ways: it is flagged when its file is frozen, or it is
named in a call that disables it.  `RegisterFile.Reserves` follows a file through the calls
and keeps the registers that were reserved; the flags in the file are not consulted.

`RegisterFile.Reserves.isUsable_iff` compares the two: a register is usable exactly if it
shares storage with none that was reserved.  Overlap is not transitive, so it matters that
reserving reaches the overlaps of what is named and stops there.  It also matters that every
register overlaps itself (`RegisterBuilder.Reachable.linked_self`), because disabling a
register walks its overlap set and does not touch the register apart from that.
-/

namespace LinearScan

/-! ## Overlap sets contain their owner -/

namespace RegisterBuilder

open Register (Linked)

variable {builder : RegisterBuilder} {a b id : RegisterId}

@[simp] theorem size_registers_link (builder : RegisterBuilder) (a b : RegisterId) :
    (builder.link a b).registers.size = builder.registers.size := by
  simp [link, addOverlap, update]

@[simp] theorem size_registers_flag (builder : RegisterBuilder) (id : RegisterId) (usable : Bool) :
    (builder.flag id usable).registers.size = builder.registers.size := by
  simp [flag, update]

/-- Every declared register overlaps itself. -/
theorem Reachable.linked_self (reachable : builder.Reachable) :
    ∀ a : RegisterId, a.index < builder.registers.size → Linked builder.registers a a := by
  refine Reachable.induction (motive := fun builder =>
    ∀ a : RegisterId, a.index < builder.registers.size → Linked builder.registers a a)
    ?_ ?_ ?_ ?_ reachable
  · intro a declared
    simp [RegisterBuilder.empty] at declared
  · intro builder name size storage calleeSaved _ ih a declared
    rw [linked_add]
    rw [add, Array.size_push] at declared
    rcases Nat.lt_succ_iff_lt_or_eq.mp declared with old | new
    · exact Or.inr (ih a old)
    · have isNext : a = builder.nextId := by
        cases a
        exact congrArg RegisterId.mk new
      exact Or.inl ⟨isNext, isNext⟩
  · intro builder x y declaredX declaredY ih a declared
    rw [size_registers_link] at declared
    rw [linked_link declaredX declaredY]
    exact Or.inr (Or.inr (ih a declared))
  · intro builder x usable _ ih a declared
    rw [size_registers_flag] at declared
    rw [linked_flag]
    exact ih a declared

/-- A declared register that is flagged as not to be handed out. -/
def Flagged (builder : RegisterBuilder) (id : RegisterId) : Prop :=
  ∃ register, builder.registers[id.index]? = some register ∧ register.usable = false

end RegisterBuilder

/-! ## Reserving -/

namespace RegisterFile

open Register (Linked)

variable {file file' : RegisterFile} {reserved : RegisterId → Prop} {id other : RegisterId}

/-- Reserving registers clears their flags and changes nothing else. -/
theorem getElem?_reserve (ids : List RegisterId) :
    ∀ (registers : Array Register) (index : Nat),
      (reserve registers ids)[index]? =
        registers[index]?.map fun register =>
          if ⟨index⟩ ∈ ids then { register with usable := false } else register := by
  induction ids with
  | nil =>
    intro registers index
    simp [reserve]
  | cons first rest ih =>
    intro registers index
    have step : reserve registers (first :: rest) = reserve (registers.modify first.index
        fun register => { register with usable := false }) rest := rfl
    have here : first.index = index ↔ (⟨index⟩ : RegisterId) = first := by
      cases first
      simp [eq_comm]
    rw [step, ih, Array.getElem?_modify]
    cases registers[index]? with
    | none => simp
    | some register =>
      by_cases isFirst : (⟨index⟩ : RegisterId) = first
      · simp [here, isFirst]
      · simp [here, isFirst]

/-- A register is usable if it is in the file and its flag says so. -/
theorem isUsable_iff_exists :
    file.isUsable id = true ↔
      ∃ register, file.registers[id.index]? = some register ∧ register.usable = true := by
  unfold isUsable get?
  cases file.registers[id.index]? <;> simp

/-- What is reserved is no longer usable, and all else is as usable as before. -/
theorem isUsable_reserve (file : RegisterFile) {ids : List RegisterId} :
    (RegisterFile.mk (reserve file.registers ids) file.byName).isUsable id = true ↔
      file.isUsable id = true ∧ id ∉ ids := by
  simp only [isUsable_iff_exists, getElem?_reserve]
  cases file.registers[id.index]? with
  | none => simp
  | some register =>
    by_cases member : id ∈ ids
    · simp [member]
    · simp [member]

/-- Reserving registers is no change to who shares storage. -/
theorem intersects_reserve (file : RegisterFile) {ids : List RegisterId} :
    (RegisterFile.mk (reserve file.registers ids) file.byName).intersects id other =
      file.intersects id other := by
  rw [Bool.eq_iff_iff, intersects_iff, intersects_iff, linked_reserve]

/-- Every register of a file overlaps itself. -/
theorem Reachable.linked_self (reachable : file.Reachable) (inFile : id.index < file.size) :
    Linked file.registers id id := by
  induction reachable with
  | build built =>
    rw [ofBuilder, linked_reserve]
    rw [size, ofBuilder, size_reserve] at inFile
    exact built.linked_self id inFile
  | disable _ done ih =>
    obtain ⟨ids, rfl⟩ := eq_reserve_of_disable done
    rw [linked_reserve]
    rw [size, size_reserve] at inFile
    exact ih inFile

/-- Names lead to registers of the file. -/
theorem Reachable.lookup?_lt (reachable : file.Reachable) {name : String}
    (found : file.lookup? name = some id) : id.index < file.size := by
  induction reachable with
  | build built =>
    rw [size, ofBuilder, size_reserve]
    exact built.lookup?_lt name id found
  | disable _ done ih =>
    obtain ⟨ids, rfl⟩ := eq_reserve_of_disable done
    rw [size, size_reserve]
    exact ih found

/-- What shares storage with a register of the file is in its overlap set, and so is the register
itself. -/
theorem Reachable.linked_iff_intersects (reachable : file.Reachable)
    (inFile : other.index < file.size) :
    Linked file.registers other id ↔ file.intersects id other = true := by
  rw [intersects_iff]
  constructor
  · exact fun linked => Or.inr (reachable.linked_symm linked)
  · rintro (rfl | linked)
    · exact reachable.linked_self inFile
    · exact reachable.linked_symm linked

/-- The registers that a call to disable reserves are those in the overlap set of the one that
is named. -/
theorem exists_reserve_of_disable {name : String} (found : file.lookup? name = some id)
    (done : file.disable name = .ok file') :
    ∃ ids, file' = ⟨reserve file.registers ids, file.byName⟩ ∧
      ∀ other, other ∈ ids ↔ Linked file.registers id other := by
  rw [disable_of_some found] at done
  refine ⟨_, (Except.ok.inj done).symm, ?_⟩
  intro other
  show other ∈ ((file.registers[id.index]?).map (·.overlaps)).getD [] ↔ _
  unfold Linked
  cases file.registers[id.index]? with
  | none => simp
  | some register => simp

/-- **The registers that calls have reserved**: those flagged when the file was frozen, and
those named in a call that disables them. -/
inductive Reserves : RegisterFile → (RegisterId → Prop) → Prop
  | build {builder : RegisterBuilder} :
      builder.Reachable → Reserves (.ofBuilder builder) builder.Flagged
  | disable {file file' : RegisterFile} {reserved : RegisterId → Prop} {name : String}
      {id : RegisterId} :
      Reserves file reserved → file.lookup? name = some id → file.disable name = .ok file' →
      Reserves file' fun other => other = id ∨ reserved other

/-- Keeping track of what is reserved is no condition on a file. -/
theorem Reserves.reachable (reserves : file.Reserves reserved) : file.Reachable := by
  induction reserves with
  | build built => exact .build built
  | disable _ _ done ih => exact ih.disable done

/-- Freezing a builder reserves what shares storage with a flagged register. -/
theorem isUsable_ofBuilder {builder : RegisterBuilder} (built : builder.Reachable) :
    (ofBuilder builder).isUsable id = true ↔ id.index < (ofBuilder builder).size ∧
      ∀ other, builder.Flagged other → (ofBuilder builder).intersects id other = false := by
  have reserved : ∀ id, id ∈ (builder.registers.toList.filter (!·.usable)).flatMap (·.overlaps) ↔
      ∃ other, builder.Flagged other ∧ Linked builder.registers other id := by
    intro id
    simp only [List.mem_flatMap, List.mem_filter, Array.mem_toList_iff, Array.mem_iff_getElem?,
      Bool.not_eq_true']
    constructor
    · rintro ⟨register, ⟨⟨index, found⟩, flagged⟩, member⟩
      exact ⟨⟨index⟩, ⟨register, found, flagged⟩, register, found, member⟩
    · rintro ⟨other, ⟨register, found, flagged⟩, register', found', member⟩
      obtain rfl := Option.some.inj (found.symm.trans found')
      exact ⟨register, ⟨⟨_, found⟩, flagged⟩, member⟩
  show (RegisterFile.mk (reserve builder.registers _) builder.byName).isUsable id = true ↔ _
  rw [isUsable_reserve ⟨builder.registers, builder.byName⟩, reserved, size, ofBuilder,
    size_reserve]
  simp only [intersects_reserve ⟨builder.registers, builder.byName⟩]
  constructor
  · rintro ⟨usable, clear⟩
    obtain ⟨register, found, isUsable⟩ := isUsable_iff_exists.mp usable
    refine ⟨(Array.getElem?_eq_some_iff.mp found).1, ?_⟩
    intro other flagged
    rw [← Bool.not_eq_true, intersects_iff]
    rintro (rfl | linked)
    · obtain ⟨register', found', isFlagged⟩ := flagged
      obtain rfl := Option.some.inj (found.symm.trans found')
      rw [isUsable] at isFlagged
      cases isFlagged
    · exact clear ⟨other, flagged, built.linked_symm id other linked⟩
  · rintro ⟨inFile, clear⟩
    refine ⟨?_, ?_⟩
    · -- A register that is flagged itself would share storage with a flagged one.
      refine isUsable_iff_exists.mpr ⟨_, Array.getElem?_eq_getElem inFile, ?_⟩
      cases flag : builder.registers[id.index].usable with
      | true => rfl
      | false =>
        have shares := clear id ⟨_, Array.getElem?_eq_getElem inFile, flag⟩
        rw [intersects_self] at shares
        cases shares
    · rintro ⟨other, flagged, linked⟩
      have shares := clear other flagged
      rw [← Bool.not_eq_true, intersects_iff] at shares
      exact shares (Or.inr (built.linked_symm other id linked))

/-- **A register is usable exactly if it shares storage with none that was reserved.** -/
theorem Reserves.isUsable_iff (reserves : file.Reserves reserved) (id : RegisterId) :
    file.isUsable id = true ↔
      id.index < file.size ∧ ∀ other, reserved other → file.intersects id other = false := by
  induction reserves with
  | build built => exact isUsable_ofBuilder built
  | @disable file file' reserved name named before found done ih =>
    have reachable := before.reachable
    obtain ⟨ids, rfl, overlaps⟩ := exists_reserve_of_disable found done
    have shares : id ∉ ids ↔ file.intersects id named = false := by
      rw [overlaps, reachable.linked_iff_intersects (reachable.lookup?_lt found),
        Bool.not_eq_true]
    have size : (RegisterFile.mk (reserve file.registers ids) file.byName).size = file.size :=
      size_reserve ids
    rw [isUsable_reserve, ih, shares, size]
    simp only [intersects_reserve, forall_eq_or_imp]
    rw [and_assoc, and_comm (a := ∀ other, reserved other → file.intersects id other = false)]

end RegisterFile

end LinearScan
