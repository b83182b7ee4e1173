import LinearScan.Proofs.Register.Orderly
import LinearScan.Proofs.Register.Reserved

/-!
# Register files, call by call

A register file comes about in two phases: calls on a builder, in any order and some of them
refused, and then calls that disable registers, some of them under names that do not exist.  The
calls are data here (`RegisterBuilder.Call`), so that a file can be compared with the calls that
led to it: which names they declare (`RegisterBuilder.Call.extend`) and which registers they say
share storage (`RegisterBuilder.Call.Aliases`) is read off the calls alone.

`RegisterFile.Coherent` is the comparison.  Its last field says that two registers share storage
exactly if some call said so: nothing is inferred, and nothing is forgotten, neither by later
declarations nor when registers are disabled.  The step lemmas are `RegisterBuilder.linked_on` and
`RegisterBuilder.Reachable.allNames_on`.  A group is a pair for every two of its members, whatever
their order, and listing a register twice links it to itself, which it is anyway.
-/

namespace LinearScan

open Outcome

open Register (Linked)

/-! ## Names and sizes -/

namespace Register

/-- The names of registers, in the order of their ids. -/
def allNames (registers : Array Register) : List String :=
  registers.toList.map (·.name)

@[simp] theorem length_allNames (registers : Array Register) :
    (allNames registers).length = registers.size := by
  simp [allNames]

theorem map_fst_keys (registers : Array Register) :
    (keys registers).map Prod.fst = allNames registers := by
  rw [keys, List.map_map]
  rfl

/-- An update that keeps the name and the id of a register keeps all names. -/
theorem allNames_modify {change : Register → Register}
    (sameKey : ∀ register, ((change register).name, (change register).id) =
      (register.name, register.id)) (registers : Array Register) (index : Nat) :
    allNames (registers.modify index change) = allNames registers := by
  rw [← map_fst_keys, keys_modify sameKey, map_fst_keys]

/-- Taking registers out of allocation is no change to their names. -/
theorem allNames_reserve (ids : List RegisterId) :
    ∀ registers : Array Register,
      allNames (RegisterFile.reserve registers ids) = allNames registers := by
  induction ids with
  | nil => exact fun _ => rfl
  | cons id rest ih =>
    intro registers
    rw [RegisterFile.reserve, List.foldl_cons, ← RegisterFile.reserve, ih]
    refine allNames_modify ?_ registers id.index
    exact fun _ => rfl

/-- The index of names knows the names of the registers. -/
theorem Orderly.contains_byName {registers : Array Register}
    {byName : Std.HashMap String RegisterId} (orderly : Orderly registers byName) (name : String) :
    byName.contains name = true ↔ name ∈ allNames registers := by
  rw [orderly.index, Std.HashMap.contains_ofList, map_fst_keys, List.contains_iff_mem]

/-- No register is of size zero. -/
def Sized (registers : Array Register) : Prop :=
  ∀ (place : Nat) (register : Register), registers[place]? = some register → 0 < register.size

/-- A register may be updated in place as long as its size is left alone. -/
theorem Sized.modify {registers : Array Register} (sized : Sized registers)
    {change : Register → Register} (sameSize : ∀ register, (change register).size = register.size)
    (index : Nat) : Sized (registers.modify index change) := by
  intro place register found
  obtain ⟨old, atPlace, rfl | rfl⟩ := exists_of_getElem?_modify found
  · rw [sameSize]
    exact sized place old atPlace
  · exact sized place register atPlace

/-- Taking registers out of allocation is no change to their sizes. -/
theorem Sized.reserve (ids : List RegisterId) :
    ∀ {registers : Array Register}, Sized registers →
      Sized (RegisterFile.reserve registers ids) := by
  induction ids with
  | nil => exact fun sized => sized
  | cons id rest ih =>
    intro registers sized
    rw [RegisterFile.reserve, List.foldl_cons]
    refine ih (sized.modify ?_ id.index)
    exact fun _ => rfl

end Register

/-! ## Calls on a builder -/

namespace RegisterBuilder

variable {builder builder' : RegisterBuilder} {a b id : RegisterId}

/-- A call on a builder. -/
inductive Call where
  | declare (name : String) (size : Nat) (storage : StorageClass) (calleeSaved : Bool)
  | aliasPair (a b : RegisterId)
  | aliasGroup (ids : List RegisterId)
  | setUsable (id : RegisterId) (usable : Bool)

namespace Call

/-- The ids that a call names. -/
def ids : Call → List RegisterId
  | declare .. => []
  | aliasPair a b => [a, b]
  | aliasGroup ids => ids
  | setUsable id _ => [id]

/-- A call says that two registers share storage. -/
def Aliases (a b : RegisterId) : Call → Prop
  | declare .. => False
  | aliasPair x y => x = a ∧ y = b ∨ x = b ∧ y = a
  | aliasGroup ids => a ∈ ids ∧ b ∈ ids
  | setUsable .. => False

/-- The names that are declared behind a call, where `names` are declared before it.  A declaration
counts if its size is not zero, its name is new and an id is left. -/
def extend (names : List String) : Call → List String
  | declare name size _ _ =>
    if size = 0 ∨ name ∈ names ∨ capacity ≤ names.length then names else names ++ [name]
  | aliasPair .. => names
  | aliasGroup .. => names
  | setUsable .. => names

/-- The builder that a call leaves, which is no fault of a declaration that is refused. -/
def on (builder : RegisterBuilder) : Call → Except Fault RegisterBuilder
  | declare name size storage calleeSaved =>
    .ok ((declareM name size storage calleeSaved).leaves builder)
  | aliasPair a b => builder.aliasPair a b
  | aliasGroup ids => builder.aliasGroup ids
  | setUsable id usable => builder.setUsable id usable

end Call

/-- The builder behind calls made one after the other. -/
def afterAll (builder : RegisterBuilder) (calls : List Call) : Except Fault RegisterBuilder :=
  calls.foldlM (fun builder call => call.on builder) builder

/-- Each call names only ids that are declared by the time it is made, where `names` are declared
before the first. -/
def OnDeclared (names : List String) : List Call → Prop
  | [] => True
  | call :: rest => (∀ id ∈ call.ids, id.index < names.length) ∧ OnDeclared (call.extend names) rest

/-- A declaration is accepted, or it is refused and nothing changes. -/
theorem on_declare_cases {name : String} {size : Nat} {storage : StorageClass} {calleeSaved : Bool}
    (done : (Call.declare name size storage calleeSaved).on builder = .ok builder') :
    (∃ id, builder.declare name size storage calleeSaved = .ok (id, builder')) ∨
      (∃ error, builder.declare name size storage calleeSaved = .error error) ∧
        builder' = builder := by
  obtain rfl := Except.ok.inj done
  cases made : builder.declare name size storage calleeSaved with
  | ok result =>
    obtain ⟨id, declared⟩ := result
    rw [Request.leaves_of_run_ok (Request.answer_eq_ok_iff.mp made)]
    exact Or.inl ⟨id, rfl⟩
  | error error => exact Or.inr ⟨⟨error, rfl⟩, leaves_declareM_of_error made⟩

/-- Calls lead from builders that can be reached to such builders. -/
theorem Reachable.on (reachable : builder.Reachable) {call : Call}
    (done : call.on builder = .ok builder') : builder'.Reachable := by
  cases call with
  | declare name size storage calleeSaved =>
    rcases on_declare_cases done with ⟨id, declared⟩ | ⟨-, rfl⟩
    · exact reachable.declare declared
    · exact reachable
  | aliasPair a b => exact reachable.aliasPair done
  | aliasGroup ids => exact reachable.aliasGroup done
  | setUsable id usable => exact reachable.setUsable done

/-- A declaration that is refused is as good as not made, whatever is called after it. -/
theorem afterAll_refused {calls : List Call} (done : builder.afterAll calls = .ok builder')
    {name : String} {size : Nat} {storage : StorageClass} {calleeSaved : Bool}
    {error : RegisterError}
    (refused : builder'.declare name size storage calleeSaved = .error error) (more : List Call) :
    builder.afterAll (calls ++ .declare name size storage calleeSaved :: more) =
      builder'.afterAll more := by
  have kept : (Call.declare name size storage calleeSaved).on builder' = .ok builder' := by
    rw [Call.on, leaves_declareM_of_error refused]
  calc builder.afterAll (calls ++ .declare name size storage calleeSaved :: more)
      = builder.afterAll calls >>= fun builder =>
          (Call.declare name size storage calleeSaved).on builder >>= fun builder =>
            builder.afterAll more := by
        simp only [afterAll, List.foldlM_append, List.foldlM_cons]
    _ = builder'.afterAll more := by
        rw [done]
        exact congrArg (· >>= fun builder => builder.afterAll more) kept

/-! ## Bounds -/

/-- A builder has no more registers than there are ids. -/
theorem Reachable.size_le (reachable : builder.Reachable) :
    builder.registers.size ≤ capacity := by
  refine Reachable.induction (motive := fun builder => builder.registers.size ≤ capacity)
    ?_ ?_ ?_ ?_ reachable
  · exact Nat.zero_le _
  · intro builder name size storage calleeSaved accepted _
    rw [add, Array.size_push]
    exact (refusal?_eq_none_iff.mp accepted).2.2
  · intro builder a b _ _ ih
    rwa [size_registers_link]
  · intro builder id usable _ ih
    rwa [size_registers_flag]

/-- Extending an overlap set is no change to the sizes. -/
theorem sized_addOverlap (sized : Register.Sized builder.registers) (id other : RegisterId) :
    Register.Sized (builder.addOverlap id other).registers := by
  rw [addOverlap, update]
  refine sized.modify ?_ id.index
  exact fun _ => rfl

/-- No register of a builder is of size zero. -/
theorem Reachable.sized (reachable : builder.Reachable) : Register.Sized builder.registers := by
  refine Reachable.induction (motive := fun builder => Register.Sized builder.registers)
    ?_ ?_ ?_ ?_ reachable
  · intro place register found
    simp [RegisterBuilder.empty] at found
  · intro builder name size storage calleeSaved accepted ih place register found
    rw [add, Array.getElem?_push] at found
    split at found
    · obtain rfl := Option.some.inj found
      exact (refusal?_eq_none_iff.mp accepted).1
    · exact ih place register found
  · intro builder a b _ _ ih
    exact sized_addOverlap (sized_addOverlap ih a b) b a
  · intro builder id usable _ ih
    rw [flag, update]
    refine ih.modify ?_ id.index
    exact fun _ => rfl

/-! ## Names and calls -/

/-- Extending an overlap set is no change to the names. -/
theorem allNames_addOverlap (builder : RegisterBuilder) (id other : RegisterId) :
    Register.allNames (builder.addOverlap id other).registers
      = Register.allNames builder.registers := by
  refine Register.allNames_modify ?_ builder.registers id.index
  exact fun _ => rfl

/-- Linking registers is no change to the names. -/
theorem allNames_link (builder : RegisterBuilder) (a b : RegisterId) :
    Register.allNames (builder.link a b).registers = Register.allNames builder.registers := by
  rw [link, allNames_addOverlap, allNames_addOverlap]

/-- A declaration is accepted exactly if it counts. -/
theorem Reachable.refusal?_eq_none_iff_extend (reachable : builder.Reachable) {name : String}
    {size : Nat} :
    builder.refusal? name size = none ↔ ¬ (size = 0 ∨ name ∈ Register.allNames builder.registers ∨
      capacity ≤ (Register.allNames builder.registers).length) := by
  rw [refusal?_eq_none_iff, ← reachable.orderly.contains_byName, Register.length_allNames]
  simp [Nat.pos_iff_ne_zero]

/-- **What a call does to the names**: it adds that of a declaration that counts. -/
theorem Reachable.allNames_on (reachable : builder.Reachable) {call : Call}
    (done : call.on builder = .ok builder') :
    Register.allNames builder'.registers = call.extend (Register.allNames builder.registers) := by
  cases call with
  | declare name size storage calleeSaved =>
    rw [Call.extend]
    rcases on_declare_cases done with ⟨id, declared⟩ | ⟨⟨error, refused⟩, rfl⟩
    · obtain ⟨accepted, -, rfl⟩ := eq_add_of_declare declared
      rw [if_neg (reachable.refusal?_eq_none_iff_extend.mp accepted)]
      simp [Register.allNames, add]
    · refine (if_pos ?_).symm
      by_contra counts
      rw [declare_of_none (reachable.refusal?_eq_none_iff_extend.mpr counts)] at refused
      cases refused
  | aliasPair a b =>
    obtain ⟨-, -, rfl⟩ := eq_link_of_aliasPair done
    exact allNames_link builder a b
  | aliasGroup ids =>
    refine aliasGroup_induction (motive := fun builder' =>
      Register.allNames builder'.registers = Register.allNames builder.registers) ?_ ids rfl done
    intro middle middle' a b same linked
    obtain ⟨-, -, rfl⟩ := eq_link_of_aliasPair linked
    rw [allNames_link, same]
  | setUsable id usable =>
    obtain ⟨-, rfl⟩ := eq_flag_of_setUsable done
    refine Register.allNames_modify ?_ builder.registers id.index
    exact fun _ => rfl

/-! ## No fault on declared ids -/

/-- A declared register can be linked to others. -/
theorem exists_foldlM_aliasPair (others : List RegisterId) :
    ∀ {builder : RegisterBuilder}, id.index < builder.registers.size →
      (∀ other ∈ others, other.index < builder.registers.size) →
      ∃ builder', others.foldlM (fun builder other => builder.aliasPair id other) builder
          = .ok builder' ∧ builder'.registers.size = builder.registers.size := by
  induction others with
  | nil => exact fun _ _ => ⟨_, rfl, rfl⟩
  | cons other rest ih =>
    intro builder declared othersDeclared
    obtain ⟨otherDeclared, restDeclared⟩ := List.forall_mem_cons.mp othersDeclared
    have size := size_registers_link builder id other
    obtain ⟨builder', linked, same⟩ := @ih (builder.link id other) (size ▸ declared)
      (fun one member => size ▸ restDeclared one member)
    refine ⟨builder', ?_, same.trans size⟩
    rw [List.foldlM_cons, aliasPair_eq declared otherDeclared]
    exact linked

/-- Declared registers can be grouped. -/
theorem exists_aliasGroup (ids : List RegisterId) :
    ∀ {builder : RegisterBuilder}, (∀ id ∈ ids, id.index < builder.registers.size) →
      ∃ builder', builder.aliasGroup ids = .ok builder' := by
  induction ids with
  | nil => exact fun _ => ⟨_, rfl⟩
  | cons id rest ih =>
    intro builder declared
    obtain ⟨idDeclared, restDeclared⟩ := List.forall_mem_cons.mp declared
    obtain ⟨middle, linked, size⟩ := exists_foldlM_aliasPair rest idDeclared restDeclared
    obtain ⟨builder', grouped⟩ := @ih middle fun one member => size ▸ restDeclared one member
    refine ⟨builder', ?_⟩
    rw [aliasGroup, linked]
    exact grouped

/-- **A call on declared ids meets no fault.** -/
theorem exists_on {call : Call} (declared : ∀ id ∈ call.ids, id.index < builder.registers.size) :
    ∃ builder', call.on builder = .ok builder' := by
  cases call with
  | declare name size storage calleeSaved => exact ⟨_, rfl⟩
  | aliasPair a b =>
    exact ⟨_, aliasPair_eq (declared a List.mem_cons_self)
      (declared b (List.mem_cons_of_mem _ List.mem_cons_self))⟩
  | aliasGroup ids => exact exists_aliasGroup ids declared
  | setUsable id usable =>
    exact ⟨_, setUsable_eq (declared id List.mem_cons_self) usable⟩

/-- **No sequence of calls on declared ids meets a fault**, and it leaves the names that it
declares. -/
theorem Reachable.exists_afterAll (calls : List Call) :
    ∀ {builder : RegisterBuilder}, builder.Reachable →
      OnDeclared (Register.allNames builder.registers) calls →
      ∃ builder', builder.afterAll calls = .ok builder' ∧ builder'.Reachable ∧
        Register.allNames builder'.registers
          = calls.foldl Call.extend (Register.allNames builder.registers) := by
  induction calls with
  | nil => exact fun reachable _ => ⟨_, rfl, reachable, rfl⟩
  | cons call rest ih =>
    intro builder reachable onDeclared
    obtain ⟨declared, others⟩ := onDeclared
    rw [Register.length_allNames] at declared
    obtain ⟨middle, made⟩ := exists_on declared
    have names := reachable.allNames_on made
    rw [← names] at others
    obtain ⟨builder', done, reached, namesAfter⟩ := ih (reachable.on made) others
    refine ⟨builder', ?_, reached, ?_⟩
    · rw [afterAll, List.foldlM_cons, made]
      exact done
    · rw [namesAfter, names, List.foldl_cons]

/-! ## Links and calls -/

/-- Pairing a register with others links it to them, and them to it. -/
theorem linked_foldlM_aliasPair (others : List RegisterId) :
    ∀ {builder : RegisterBuilder},
      others.foldlM (fun builder other => builder.aliasPair id other) builder = .ok builder' →
      (Linked builder'.registers a b ↔
        (a = id ∧ b ∈ others ∨ b = id ∧ a ∈ others) ∨ Linked builder.registers a b) := by
  induction others with
  | nil =>
    intro builder done
    obtain rfl := pure_eq_ok.mp done
    simp
  | cons other rest ih =>
    intro builder done
    rw [List.foldlM_cons] at done
    obtain ⟨middle, first, others⟩ := bind_eq_ok.mp done
    obtain ⟨declared, otherDeclared, rfl⟩ := eq_link_of_aliasPair first
    rw [ih others, linked_link declared otherDeclared, List.mem_cons, List.mem_cons]
    tauto

/-- **A group links every two of its members.** -/
theorem linked_aliasGroup (apart : a ≠ b) (ids : List RegisterId) :
    ∀ {builder : RegisterBuilder}, builder.aliasGroup ids = .ok builder' →
      (Linked builder'.registers a b ↔ a ∈ ids ∧ b ∈ ids ∨ Linked builder.registers a b) := by
  induction ids with
  | nil =>
    intro builder done
    obtain rfl := pure_eq_ok.mp done
    simp
  | cons id rest ih =>
    intro builder done
    rw [aliasGroup] at done
    obtain ⟨middle, first, others⟩ := bind_eq_ok.mp done
    rw [ih others, linked_foldlM_aliasPair rest first, List.mem_cons, List.mem_cons]
    -- Only one of two different registers can be the first of the group.
    have notBoth : ¬ (a = id ∧ b = id) := fun both => apart (both.1.trans both.2.symm)
    tauto

/-- **What a call does to the links** between different registers: it adds those that it names. -/
theorem linked_on (apart : a ≠ b) {call : Call} (done : call.on builder = .ok builder') :
    Linked builder'.registers a b ↔ call.Aliases a b ∨ Linked builder.registers a b := by
  cases call with
  | declare name size storage calleeSaved =>
    rw [Call.Aliases, false_or]
    rcases on_declare_cases done with ⟨id, declared⟩ | ⟨-, rfl⟩
    · obtain ⟨-, -, rfl⟩ := eq_add_of_declare declared
      have notNew : ¬ (a = builder.nextId ∧ b = builder.nextId) :=
        fun both => apart (both.1.trans both.2.symm)
      rw [linked_add, or_iff_right notNew]
    · rfl
  | aliasPair x y =>
    obtain ⟨declared, otherDeclared, rfl⟩ := eq_link_of_aliasPair done
    rw [linked_link declared otherDeclared, Call.Aliases]
    tauto
  | aliasGroup ids => exact linked_aliasGroup apart ids done
  | setUsable id usable =>
    obtain ⟨-, rfl⟩ := eq_flag_of_setUsable done
    rw [linked_flag, Call.Aliases, false_or]

theorem not_linked_empty : ¬ Linked empty.registers a b := by
  rintro ⟨register, found, -⟩
  simp [empty] at found

/-- **What calls do to the links** between different registers. -/
theorem linked_afterAll (apart : a ≠ b) (calls : List Call) :
    ∀ {builder : RegisterBuilder}, builder.afterAll calls = .ok builder' →
      (Linked builder'.registers a b ↔
        (∃ call ∈ calls, call.Aliases a b) ∨ Linked builder.registers a b) := by
  induction calls with
  | nil =>
    intro builder done
    obtain rfl := pure_eq_ok.mp done
    simp
  | cons call rest ih =>
    intro builder done
    rw [afterAll, List.foldlM_cons] at done
    obtain ⟨middle, first, others⟩ := bind_eq_ok.mp done
    rw [ih others, linked_on apart first, List.exists_mem_cons_iff]
    exact or_left_comm.trans or_assoc.symm

end RegisterBuilder

/-! ## Calls on a file -/

namespace RegisterFile

variable {file : RegisterFile}

/-- The file that a call to disable a register leaves. -/
def without (file : RegisterFile) (name : String) : RegisterFile :=
  (disableM name).leaves file

/-- The file behind calls to disable registers, made one after the other. -/
def withoutAll (file : RegisterFile) (names : List String) : RegisterFile :=
  names.foldl without file

/-- **What disabling leaves alone**: the names, and who shares storage with whom. -/
structure Kept (file file' : RegisterFile) : Prop where
  names : Register.allNames file'.registers = Register.allNames file.registers
  links : ∀ a b, Linked file'.registers a b ↔ Linked file.registers a b

theorem Kept.trans {middle file' : RegisterFile} (first : file.Kept middle)
    (second : middle.Kept file') : file.Kept file' :=
  ⟨second.names.trans first.names, fun a b => (second.links a b).trans (first.links a b)⟩

/-- Reserving registers leaves names and links alone. -/
theorem kept_reserve (registers : Array Register) (byName : Std.HashMap String RegisterId)
    (ids : List RegisterId) : Kept ⟨registers, byName⟩ ⟨reserve registers ids, byName⟩ :=
  ⟨Register.allNames_reserve ids registers, fun _ _ => linked_reserve ids⟩

/-- A call to disable a register, whether it is known or not. -/
theorem Reachable.without (reachable : file.Reachable) (name : String) :
    (file.without name).Reachable ∧ file.Kept (file.without name) := by
  unfold RegisterFile.without
  cases done : file.disable name with
  | ok disabled =>
    rw [leaves_disableM_of_ok done]
    refine ⟨reachable.disable done, ?_⟩
    obtain ⟨ids, rfl⟩ := eq_reserve_of_disable done
    exact kept_reserve file.registers file.byName ids
  | error error =>
    rw [leaves_disableM_of_error done]
    exact ⟨reachable, rfl, fun _ _ => Iff.rfl⟩

/-- Any number of calls to disable registers. -/
theorem Reachable.withoutAll (names : List String) :
    ∀ {file : RegisterFile}, file.Reachable →
      (file.withoutAll names).Reachable ∧ file.Kept (file.withoutAll names) := by
  induction names with
  | nil => exact fun reachable => ⟨reachable, rfl, fun _ _ => Iff.rfl⟩
  | cons name rest ih =>
    intro file reachable
    obtain ⟨next, kept⟩ := reachable.without name
    obtain ⟨last, keptAfter⟩ := ih next
    exact ⟨last, kept.trans keptAfter⟩

/-- A name that cannot be disabled is as good as not given. -/
theorem withoutAll_refused {names : List String} {name : String} {error : RegisterError}
    (refused : (file.withoutAll names).disable name = .error error) (more : List String) :
    file.withoutAll (names ++ name :: more) = (file.withoutAll names).withoutAll more := by
  have kept : (file.withoutAll names).without name = file.withoutAll names := by
    rw [without, leaves_disableM_of_error refused]
  unfold withoutAll at kept ⊢
  rw [List.foldl_append, List.foldl_cons, kept]

/-- A file has no more registers than there are ids. -/
theorem Reachable.size_le (reachable : file.Reachable) : file.size ≤ RegisterBuilder.capacity := by
  induction reachable with
  | build built =>
    rw [size, ofBuilder, size_reserve]
    exact built.size_le
  | disable _ done ih =>
    obtain ⟨ids, rfl⟩ := eq_reserve_of_disable done
    rwa [size, size_reserve]

/-- No register of a file is of size zero. -/
theorem Reachable.sized (reachable : file.Reachable) : Register.Sized file.registers := by
  induction reachable with
  | build built => exact Register.Sized.reserve _ built.sized
  | disable _ done ih =>
    obtain ⟨ids, rfl⟩ := eq_reserve_of_disable done
    exact Register.Sized.reserve ids ih

/-- Overlap sets stay inside of the file. -/
theorem Reachable.overlaps_lt (reachable : file.Reachable) {place : Nat} {register : Register}
    (found : file.registers[place]? = some register) {other : RegisterId}
    (member : other ∈ register.overlaps) : other.index < file.size := by
  -- Links are mutual, and only a register of the file has an overlap set to be in.
  have linked : Linked file.registers ⟨place⟩ other := ⟨register, found, member⟩
  obtain ⟨back, atOther, -⟩ := reachable.linked_symm linked
  exact (Array.getElem?_eq_some_iff.mp atOther).1

/-! ## Coherent files -/

/-- **A register file that agrees with the calls** that were made on its builder. -/
structure Coherent (calls : List RegisterBuilder.Call) (file : RegisterFile) : Prop where
  id_eq : ∀ (place : Nat) (register : Register),
    file.registers[place]? = some register → register.id = ⟨place⟩
  size_le : file.size ≤ 65536
  /-- The registers are those that the calls declare. -/
  names_eq : Register.allNames file.registers = calls.foldl RegisterBuilder.Call.extend []
  distinct : (Register.allNames file.registers).Nodup
  lookup?_iff : ∀ (name : String) (id : RegisterId),
    file.lookup? name = some id ↔ ∃ register, file.get? id = some register ∧ register.name = name
  size_pos : ∀ (place : Nat) (register : Register),
    file.registers[place]? = some register → 0 < register.size
  overlaps_lt : ∀ (place : Nat) (register : Register), file.registers[place]? = some register →
    ∀ other ∈ register.overlaps, other.index < file.size
  /-- Whoever asks about a register of the file gets an answer. -/
  answered : ∀ a b : RegisterId, a.index < file.size →
    file.intersectsChecked a b = .ok (file.intersects a b)
  refl : ∀ a : RegisterId, file.intersects a a = true
  symm : ∀ a b : RegisterId, file.intersects a b = file.intersects b a
  /-- Different registers share storage exactly if some call said so. -/
  shared : ∀ a b : RegisterId, a ≠ b →
    (file.intersects a b = true ↔ ∃ call ∈ calls, call.Aliases a b)

/-- A file that can be reached agrees with calls that give its names and its links. -/
theorem Reachable.coherent (reachable : file.Reachable) {calls : List RegisterBuilder.Call}
    (names : Register.allNames file.registers = calls.foldl RegisterBuilder.Call.extend [])
    (links : ∀ a b, a ≠ b → (Linked file.registers a b ↔ ∃ call ∈ calls, call.Aliases a b)) :
    file.Coherent calls where
  id_eq := reachable.orderly.id_eq
  size_le := reachable.size_le
  names_eq := names
  distinct := Register.map_fst_keys file.registers ▸ reachable.orderly.distinct
  lookup?_iff _ _ := reachable.orderly.getElem?_byName
  size_pos := reachable.sized
  overlaps_lt _ _ found _ member := reachable.overlaps_lt found member
  answered _ b inFile :=
    intersectsChecked_of_get (get_eq_ok_iff.mpr (Array.getElem?_eq_getElem inFile)) b
  refl := intersects_self file
  symm := reachable.intersects_comm
  shared a b apart := by rw [intersects_iff, or_iff_right apart, links a b apart]

/-- **A register file agrees with the calls that led to it.**  Calls on a builder that name only
declared ids meet no fault, and whatever is disabled afterwards, the file agrees with them.  A
declaration that is refused and a name that cannot be disabled might as well not have been
given. -/
theorem coherent_of_calls {calls : List RegisterBuilder.Call}
    (onDeclared : RegisterBuilder.OnDeclared [] calls) (names : List String) :
    ∃ builder, RegisterBuilder.empty.afterAll calls = .ok builder ∧
      ((ofBuilder builder).withoutAll names).Coherent calls ∧
      (∀ name size storage calleeSaved error more,
        builder.declare name size storage calleeSaved = .error error →
        RegisterBuilder.empty.afterAll (calls ++ .declare name size storage calleeSaved :: more)
          = builder.afterAll more) ∧
      ∀ name error more, ((ofBuilder builder).withoutAll names).disable name = .error error →
        (ofBuilder builder).withoutAll (names ++ name :: more)
          = ((ofBuilder builder).withoutAll names).withoutAll more := by
  obtain ⟨builder, done, built, declared⟩ :=
    RegisterBuilder.Reachable.empty.exists_afterAll calls onDeclared
  obtain ⟨reachable, kept⟩ := (Reachable.build built).withoutAll names
  have frozen := kept_reserve builder.registers builder.byName
    ((builder.registers.toList.filter (!·.usable)).flatMap (·.overlaps))
  refine ⟨builder, done, reachable.coherent ?_ ?_, ?_, ?_⟩
  · rw [kept.names, ofBuilder, frozen.names]
    exact declared
  · intro a b apart
    rw [kept.links, ofBuilder, frozen.links, RegisterBuilder.linked_afterAll apart calls done]
    exact or_iff_left RegisterBuilder.not_linked_empty
  · exact fun _ _ _ _ _ more refused => RegisterBuilder.afterAll_refused done refused more
  · exact fun _ _ more refused => withoutAll_refused refused more

/-- Two declarations of five are refused; a register is paired with itself, and a group lists one
twice. -/
def mixedCalls : List RegisterBuilder.Call :=
  [.declare "a" 8 .integer false, .declare "b" 4 .integer false, .declare "a" 2 .sse false,
    .declare "z" 0 .integer false, .aliasPair ⟨0⟩ ⟨0⟩, .aliasGroup [⟨1⟩, ⟨0⟩, ⟨1⟩],
    .declare "c" 8 .integer true, .setUsable ⟨2⟩ false]

theorem coherent_of_calls_mixed :
    RegisterBuilder.OnDeclared [] mixedCalls ∧
    ∃ builder, RegisterBuilder.empty.afterAll mixedCalls = .ok builder ∧
      ((ofBuilder builder).withoutAll ["nope", "b"]).Coherent mixedCalls ∧
      Register.allNames ((ofBuilder builder).withoutAll ["nope", "b"]).registers
        = ["a", "b", "c"] ∧
      ((ofBuilder builder).withoutAll ["nope", "b"]).intersects ⟨0⟩ ⟨1⟩ = true ∧
      ((ofBuilder builder).withoutAll ["nope", "b"]).intersects ⟨0⟩ ⟨2⟩ = false ∧
      RegisterBuilder.empty.afterAll (mixedCalls ++ [.declare "d" 0 .integer false])
        = .ok builder := by
  have onDeclared : RegisterBuilder.OnDeclared [] mixedCalls := by
    simp [mixedCalls, RegisterBuilder.OnDeclared, RegisterBuilder.Call.ids,
      RegisterBuilder.Call.extend, RegisterBuilder.capacity]
  obtain ⟨builder, done, coherent, refused, -⟩ := coherent_of_calls onDeclared ["nope", "b"]
  have linked : ∃ call ∈ mixedCalls, call.Aliases ⟨0⟩ ⟨1⟩ := by
    simp [mixedCalls, RegisterBuilder.Call.Aliases]
  have apart : ¬ ∃ call ∈ mixedCalls, call.Aliases ⟨0⟩ ⟨2⟩ := by
    simp [mixedCalls, RegisterBuilder.Call.Aliases]
  refine ⟨onDeclared, builder, done, coherent, ?_, ?_, ?_, ?_⟩
  · rw [coherent.names_eq]
    simp [mixedCalls, RegisterBuilder.Call.extend, RegisterBuilder.capacity]
  · exact (coherent.shared ⟨0⟩ ⟨1⟩ (by decide)).mpr linked
  · exact Bool.eq_false_iff.mpr (mt (coherent.shared ⟨0⟩ ⟨2⟩ (by decide)).mp apart)
  · exact refused "d" 0 .integer false (.zeroSize "d") [] rfl

end RegisterFile

end LinearScan
