import LinearScan.Proofs.Outcome
import LinearScan.Register.File

/-!
# Shared storage is mutual

Every guarantee of an allocation rests on `RegisterFile.intersects` being symmetric: the
scan asks whether a *held* register overlaps a candidate, and never the other way round.
Nothing in the type of a register file says so.  It holds of the files that can be made,
because each call on a builder records an overlap on both sides.

`RegisterBuilder.Reachable` and `RegisterFile.Reachable` say which builders and files
those are, one constructor per call.  `Register.Linked` is the raw relation "the overlap
set of `a` lists `b`"; each call has one lemma that says what it does to that relation,
and symmetry follows by induction over the calls (`RegisterFile.Reachable.intersects_comm`).

A builder also keeps an index of names.  What matters here is only that the index never
leads outside of the file (`RegisterBuilder.Reachable.lookup?_lt`), so that links found by
name are links between declared registers.
-/

namespace LinearScan

/-! ## Overlap sets -/

namespace Register

/-- The overlap set of the first register lists the second. -/
def Linked (registers : Array Register) (a b : RegisterId) : Prop :=
  ∃ register, registers[a.index]? = some register ∧ b ∈ register.overlaps

/-- A register behind the others brings its own overlap set and leaves theirs alone. -/
theorem linked_push {registers : Array Register} {register : Register} {a b : RegisterId} :
    Linked (registers.push register) a b ↔
      a.index = registers.size ∧ b ∈ register.overlaps ∨ Linked registers a b := by
  unfold Linked
  rw [Array.getElem?_push]
  by_cases last : a.index = registers.size
  · simp [last]
  · simp [last]

/-- Whatever leaves overlap sets alone leaves the links alone. -/
theorem linked_modify {registers : Array Register} {index : Nat} {change : Register → Register}
    (same : ∀ register, (change register).overlaps = register.overlaps) {a b : RegisterId} :
    Linked (registers.modify index change) a b ↔ Linked registers a b := by
  unfold Linked
  rw [Array.getElem?_modify]
  by_cases here : index = a.index
  · cases found : registers[a.index]? with
    | none => simp [here]
    | some register => simp [here, same]
  · simp [here]

end Register

/-! ## Calls on a builder -/

namespace RegisterBuilder

open Register (Linked)

variable {builder builder' : RegisterBuilder} {a b id other : RegisterId}

/-- A new register is linked to itself alone. -/
theorem linked_add {name : String} {size : Nat} {storage : StorageClass} {calleeSaved : Bool} :
    Linked (builder.add name size storage calleeSaved).registers a b ↔
      a = builder.nextId ∧ b = builder.nextId ∨ Linked builder.registers a b := by
  rw [add, Register.linked_push, List.mem_singleton]
  have sameId : a.index = builder.registers.size ↔ a = builder.nextId := by
    cases a
    simp [nextId]
  rw [sameId]

/-- One direction of a link is exactly that. -/
theorem linked_addOverlap (declared : id.index < builder.registers.size) :
    Linked (builder.addOverlap id other).registers a b ↔
      a = id ∧ b = other ∨ Linked builder.registers a b := by
  have sameId : id.index = a.index ↔ a = id := by
    cases a
    cases id
    simp [eq_comm]
  simp only [addOverlap, update, Linked, Array.getElem?_modify, sameId]
  by_cases here : a = id
  · subst here
    rw [Array.getElem?_eq_getElem declared]
    simp
  · simp [here]

/-- A link goes both ways, and is the only one that is added. -/
theorem linked_link (declared : id.index < builder.registers.size)
    (otherDeclared : other.index < builder.registers.size) :
    Linked (builder.link id other).registers a b ↔
      a = id ∧ b = other ∨ a = other ∧ b = id ∨ Linked builder.registers a b := by
  have stillDeclared : other.index < (builder.addOverlap id other).registers.size := by
    simpa [addOverlap, update] using otherDeclared
  rw [link, linked_addOverlap stillDeclared, linked_addOverlap declared]
  exact or_left_comm

/-- A flag is no link. -/
theorem linked_flag {usable : Bool} :
    Linked (builder.flag id usable).registers a b ↔ Linked builder.registers a b := by
  apply Register.linked_modify
  intro register
  rfl

/-- A declaration is accepted if its size is not zero, its name is new and an id is left. -/
theorem refusal?_eq_none_iff {name : String} {size : Nat} :
    builder.refusal? name size = none ↔
      0 < size ∧ builder.byName.contains name = false ∧ builder.registers.size < capacity := by
  unfold refusal?
  split
  · next zero => simp [zero]
  · next sized =>
    split
    · next known => simp [known]
    · next unknown => simp [Nat.pos_of_ne_zero sized, unknown]

section

variable {name : String} {size : Nat} {storage : StorageClass} {calleeSaved : Bool}

/-- A declaration that is refused is answered with the reason, and the builder stays. -/
theorem run_declareM_of_some {error : RegisterError}
    (refused : builder.refusal? name size = some error) :
    (declareM name size storage calleeSaved).run builder = .error error builder := by
  simp [declareM, refused]

/-- A declaration that is accepted is answered with the next id. -/
theorem run_declareM_of_none (accepted : builder.refusal? name size = none) :
    (declareM name size storage calleeSaved).run builder =
      .ok builder.nextId (builder.add name size storage calleeSaved) := by
  simp [declareM, accepted]

theorem declare_of_none (accepted : builder.refusal? name size = none) :
    builder.declare name size storage calleeSaved =
      .ok (builder.nextId, builder.add name size storage calleeSaved) :=
  Request.answer_eq_ok_iff.mpr (run_declareM_of_none accepted)

/-- The builder behind a declaration. -/
theorem leaves_declareM : (declareM name size storage calleeSaved).leaves builder =
    if builder.refusal? name size = none then builder.add name size storage calleeSaved
    else builder := by
  cases reason : builder.refusal? name size with
  | none => exact Request.leaves_of_run_ok (run_declareM_of_none reason)
  | some error => exact Request.leaves_of_run_error (run_declareM_of_some reason)

/-- **A declaration that is refused leaves the builder as it was.** -/
theorem leaves_declareM_of_error {error : RegisterError}
    (refused : builder.declare name size storage calleeSaved = .error error) :
    (declareM name size storage calleeSaved).leaves builder = builder := by
  rw [leaves_declareM]
  refine if_neg fun accepted => ?_
  rw [declare_of_none accepted] at refused
  cases refused

end

/-- A declaration that is accepted adds its register at the next id. -/
theorem eq_add_of_declare {name : String} {size : Nat} {storage : StorageClass}
    {calleeSaved : Bool}
    (done : builder.declare name size storage calleeSaved = .ok (id, builder')) :
    builder.refusal? name size = none ∧ id = builder.nextId ∧
      builder' = builder.add name size storage calleeSaved := by
  have answered := Request.answer_eq_ok_iff.mp done
  cases reason : builder.refusal? name size with
  | some error =>
    rw [run_declareM_of_some reason] at answered
    cases answered
  | none =>
    rw [run_declareM_of_none reason] at answered
    cases answered
    exact ⟨rfl, rfl, rfl⟩

/-- An id passes the check exactly if it was declared. -/
theorem require_eq_ok_iff : builder.require id = .ok () ↔ id.index < builder.registers.size := by
  unfold require
  split <;> simp_all

/-- Two registers that are recorded as sharing storage are declared, and get linked. -/
theorem eq_link_of_aliasPair (done : builder.aliasPair a b = .ok builder') :
    a.index < builder.registers.size ∧ b.index < builder.registers.size ∧
      builder' = builder.link a b := by
  obtain ⟨⟨⟩, first, done⟩ := Outcome.bind_eq_ok.mp done
  obtain ⟨⟨⟩, second, done⟩ := Outcome.bind_eq_ok.mp done
  exact ⟨require_eq_ok_iff.mp first, require_eq_ok_iff.mp second,
    (Outcome.pure_eq_ok.mp done).symm⟩

/-- Two declared registers can be linked. -/
theorem aliasPair_eq (declared : a.index < builder.registers.size)
    (otherDeclared : b.index < builder.registers.size) :
    builder.aliasPair a b = .ok (builder.link a b) := by
  rw [aliasPair, require_eq_ok_iff.mpr declared, require_eq_ok_iff.mpr otherDeclared]
  rfl

/-- The flag of a declared register can be set. -/
theorem setUsable_eq (declared : id.index < builder.registers.size) (usable : Bool) :
    builder.setUsable id usable = .ok (builder.flag id usable) := by
  rw [setUsable, require_eq_ok_iff.mpr declared]
  rfl

/-- A register whose flag is set is declared. -/
theorem eq_flag_of_setUsable {usable : Bool} (done : builder.setUsable id usable = .ok builder') :
    id.index < builder.registers.size ∧ builder' = builder.flag id usable := by
  obtain ⟨⟨⟩, declared, done⟩ := Outcome.bind_eq_ok.mp done
  exact ⟨require_eq_ok_iff.mp declared, (Outcome.pure_eq_ok.mp done).symm⟩

/-- What aliasing a pair keeps, aliasing a group keeps. -/
theorem aliasGroup_induction {motive : RegisterBuilder → Prop}
    (pair : ∀ {builder builder' : RegisterBuilder} {a b : RegisterId}, motive builder →
      builder.aliasPair a b = .ok builder' → motive builder') (ids : List RegisterId) :
    ∀ {builder builder' : RegisterBuilder}, motive builder →
      builder.aliasGroup ids = .ok builder' → motive builder' := by
  induction ids with
  | nil =>
    intro builder builder' holds done
    obtain rfl := Outcome.pure_eq_ok.mp done
    exact holds
  | cons id rest ih =>
    intro builder builder' holds done
    rw [aliasGroup] at done
    obtain ⟨middle, first, others⟩ := Outcome.bind_eq_ok.mp done
    -- The first id is paired with all that follow, then those among themselves.
    exact ih (Outcome.foldlM_induction (fun _ => pair) holds first) others

/-! ## Builders that calls lead to -/

/-- The builders that calls on an empty one lead to.  A call that fails leaves the builder
as it was, so only those that succeed appear. -/
inductive Reachable : RegisterBuilder → Prop
  | empty : Reachable .empty
  | declare {builder builder' : RegisterBuilder} {name : String} {size : Nat}
      {storage : StorageClass} {calleeSaved : Bool} {id : RegisterId} :
      Reachable builder →
      builder.declare name size storage calleeSaved = .ok (id, builder') → Reachable builder'
  | aliasPair {builder builder' : RegisterBuilder} {a b : RegisterId} :
      Reachable builder → builder.aliasPair a b = .ok builder' → Reachable builder'
  | aliasGroup {builder builder' : RegisterBuilder} {ids : List RegisterId} :
      Reachable builder → builder.aliasGroup ids = .ok builder' → Reachable builder'
  | setUsable {builder builder' : RegisterBuilder} {id : RegisterId} {usable : Bool} :
      Reachable builder → builder.setUsable id usable = .ok builder' → Reachable builder'

/-- **Induction over the calls.**  What holds of the empty builder and is kept by adding a
register, by linking two declared ones and by setting the flag of one holds of every
builder that can be reached. -/
theorem Reachable.induction {motive : RegisterBuilder → Prop} (empty : motive .empty)
    (add : ∀ builder name size storage calleeSaved, builder.refusal? name size = none →
      motive builder → motive (builder.add name size storage calleeSaved))
    (link : ∀ builder a b, a.index < builder.registers.size → b.index < builder.registers.size →
      motive builder → motive (builder.link a b))
    (flag : ∀ builder id usable, id.index < builder.registers.size →
      motive builder → motive (builder.flag id usable))
    (reachable : builder.Reachable) : motive builder := by
  have pair : ∀ {builder builder' : RegisterBuilder} {a b : RegisterId}, motive builder →
      builder.aliasPair a b = .ok builder' → motive builder' := by
    intro builder builder' a b holds done
    obtain ⟨declared, otherDeclared, rfl⟩ := eq_link_of_aliasPair done
    exact link builder a b declared otherDeclared holds
  induction reachable with
  | empty => exact empty
  | declare _ done ih =>
    obtain ⟨accepted, -, rfl⟩ := eq_add_of_declare done
    exact add _ _ _ _ _ accepted ih
  | aliasPair _ done ih => exact pair ih done
  | aliasGroup _ done ih => exact aliasGroup_induction pair _ ih done
  | setUsable _ done ih =>
    obtain ⟨declared, rfl⟩ := eq_flag_of_setUsable done
    exact flag _ _ _ declared ih

/-- **Links are mutual** in every builder that can be reached. -/
theorem Reachable.linked_symm (reachable : builder.Reachable) :
    ∀ a b, Linked builder.registers a b → Linked builder.registers b a := by
  refine Reachable.induction (motive := fun builder =>
    ∀ a b, Linked builder.registers a b → Linked builder.registers b a) ?_ ?_ ?_ ?_ reachable
  · rintro a b ⟨register, found, -⟩
    simp [RegisterBuilder.empty] at found
  · intro builder name size storage calleeSaved _ ih a b linked
    rw [linked_add] at linked ⊢
    exact linked.imp And.symm (ih a b)
  · intro builder x y declared otherDeclared ih a b linked
    rw [linked_link declared otherDeclared] at linked ⊢
    rcases linked with ⟨rfl, rfl⟩ | ⟨rfl, rfl⟩ | old
    · exact Or.inr (Or.inl ⟨rfl, rfl⟩)
    · exact Or.inl ⟨rfl, rfl⟩
    · exact Or.inr (Or.inr (ih a b old))
  · intro builder id usable _ ih a b linked
    rw [linked_flag] at linked ⊢
    exact ih a b linked

/-- The index of names never leads outside of the file. -/
theorem Reachable.lookup?_lt (reachable : builder.Reachable) :
    ∀ name id, builder.lookup? name = some id → id.index < builder.registers.size := by
  refine Reachable.induction (motive := fun builder => ∀ name id,
    builder.lookup? name = some id → id.index < builder.registers.size) ?_ ?_ ?_ ?_ reachable
  · intro name id found
    simp [lookup?, RegisterBuilder.empty] at found
  · intro builder newName size storage calleeSaved _ ih name id found
    simp only [lookup?, add, Std.HashMap.getElem?_insert, Array.size_push] at found ⊢
    split at found
    · obtain rfl := Option.some.inj found
      exact Nat.lt_succ_self _
    · exact Nat.lt_succ_of_lt (ih name id found)
  · intro builder a b _ _ ih name id found
    simpa [link, addOverlap, update] using ih name id found
  · intro builder id usable _ ih name other found
    simpa [flag, update] using ih name other found

end RegisterBuilder

/-! ## Files that calls lead to -/

namespace RegisterFile

open Register (Linked)

variable {file file' : RegisterFile} {a b : RegisterId}

/-- Two registers intersect if they are one or linked. -/
theorem intersects_iff : file.intersects a b = true ↔ a = b ∨ Linked file.registers a b := by
  unfold intersects intersectsChecked get get? Linked
  by_cases same : a = b
  · simp [same]
  · cases found : file.registers[a.index]? with
    | none => simp [same, Except.map]
    | some register => simp [same, Except.map]

theorem get_eq_ok_iff {register : Register} :
    file.get a = .ok register ↔ file.get? a = some register := by
  unfold get
  cases file.get? a with
  | none => simp
  | some found => simp

/-- Asking a register of the file who shares its storage meets no fault. -/
theorem intersectsChecked_of_get {register : Register} (found : file.get a = .ok register)
    (b : RegisterId) : file.intersectsChecked a b = .ok (file.intersects a b) := by
  unfold intersects
  cases asked : file.intersectsChecked a b with
  | ok shares => rfl
  | error fault =>
    unfold intersectsChecked at asked
    split at asked
    · cases asked
    · rw [found] at asked
      cases asked

/-- A register with a name is in the file. -/
theorem exists_get_of_name {name : String} (named : file.name a = .ok name) :
    ∃ register, file.get a = .ok register := by
  unfold RegisterFile.name at named
  cases found : file.get a with
  | ok register => exact ⟨register, rfl⟩
  | error fault =>
    rw [found] at named
    cases named

/-- Taking registers out of allocation is no change to the links. -/
theorem linked_reserve (ids : List RegisterId) :
    ∀ {registers : Array Register},
      Linked (reserve registers ids) a b ↔ Linked registers a b := by
  induction ids with
  | nil => intro registers; rfl
  | cons id rest ih =>
    intro registers
    rw [reserve, List.foldl_cons]
    refine ih.trans (Register.linked_modify ?_)
    intro register
    rfl

/-- What is taken out of allocation is still in the file. -/
theorem size_reserve (ids : List RegisterId) :
    ∀ {registers : Array Register}, (reserve registers ids).size = registers.size := by
  induction ids with
  | nil => intro registers; rfl
  | cons id rest ih =>
    intro registers
    rw [reserve, List.foldl_cons]
    exact ih.trans Array.size_modify

/-- The files that calls lead to: freezing a builder, then taking registers out of
allocation any number of times. -/
inductive Reachable : RegisterFile → Prop
  | build {builder : RegisterBuilder} : builder.Reachable → Reachable (.ofBuilder builder)
  | disable {file file' : RegisterFile} {name : String} :
      Reachable file → file.disable name = .ok file' → Reachable file'

section

variable {name : String} {id : RegisterId}

/-- A name that is unknown is answered with an error, and the file stays. -/
theorem run_disableM_of_none (unknown : file.lookup? name = none) :
    (disableM name).run file = .error (.disableUnknown name) file := by
  simp [disableM, unknown]

/-- A name that is known reserves the overlap set of its register. -/
theorem run_disableM_of_some (found : file.lookup? name = some id) :
    (disableM name).run file = .ok ()
      ⟨reserve file.registers (((file.get? id).map (·.overlaps)).getD []), file.byName⟩ := by
  simp [disableM, found]

theorem disable_of_none (unknown : file.lookup? name = none) :
    file.disable name = .error (.disableUnknown name) := by
  rw [disable, Request.answer_eq_error_iff.mpr ⟨file, run_disableM_of_none unknown⟩]
  rfl

theorem disable_of_some (found : file.lookup? name = some id) :
    file.disable name =
      .ok ⟨reserve file.registers (((file.get? id).map (·.overlaps)).getD []), file.byName⟩ := by
  rw [disable, Request.answer_eq_ok_iff.mpr (run_disableM_of_some found)]
  rfl

/-- **A name that cannot be disabled leaves the file as it was.** -/
theorem leaves_disableM_of_error {error : RegisterError}
    (refused : file.disable name = .error error) : (disableM name).leaves file = file := by
  cases found : file.lookup? name with
  | none => exact Request.leaves_of_run_error (run_disableM_of_none found)
  | some id =>
    rw [disable_of_some found] at refused
    cases refused

/-- A register that is disabled leaves the file that is handed on. -/
theorem leaves_disableM_of_ok (done : file.disable name = .ok file') :
    (disableM name).leaves file = file' := by
  cases found : file.lookup? name with
  | none =>
    rw [disable_of_none found] at done
    cases done
  | some id =>
    rw [disable_of_some found] at done
    obtain rfl := Except.ok.inj done
    exact Request.leaves_of_run_ok (run_disableM_of_some found)

end

/-- Disabling reserves some registers and changes nothing else. -/
theorem eq_reserve_of_disable {name : String} (done : file.disable name = .ok file') :
    ∃ ids, file' = { file with registers := reserve file.registers ids } := by
  cases found : file.lookup? name with
  | none =>
    rw [disable_of_none found] at done
    cases done
  | some id =>
    rw [disable_of_some found] at done
    exact ⟨_, (Except.ok.inj done).symm⟩

/-- Links are mutual in every file that can be reached. -/
theorem Reachable.linked_symm (reachable : file.Reachable)
    (linked : Linked file.registers a b) : Linked file.registers b a := by
  induction reachable with
  | build built =>
    rw [ofBuilder, linked_reserve] at linked ⊢
    exact built.linked_symm a b linked
  | disable _ done ih =>
    obtain ⟨ids, rfl⟩ := eq_reserve_of_disable done
    rw [linked_reserve] at linked ⊢
    exact ih linked

/-- **Sharing storage is symmetric** in every file that can be reached. -/
theorem Reachable.intersects_comm (reachable : file.Reachable) (a b : RegisterId) :
    file.intersects a b = file.intersects b a := by
  rw [Bool.eq_iff_iff, intersects_iff, intersects_iff]
  constructor
  · rintro (rfl | linked)
    · exact Or.inl rfl
    · exact Or.inr (reachable.linked_symm linked)
  · rintro (rfl | linked)
    · exact Or.inl rfl
    · exact Or.inr (reachable.linked_symm linked)

/-- A register shares storage with itself. -/
@[simp] theorem intersects_self (file : RegisterFile) (a : RegisterId) :
    file.intersects a a = true :=
  intersects_iff.mpr (Or.inl rfl)

/-- Registers that share no storage are different ones. -/
theorem ne_of_not_intersects (apart : file.intersects a b = false) : a ≠ b := by
  rintro rfl
  rw [intersects_self] at apart
  cases apart

end RegisterFile

end LinearScan
