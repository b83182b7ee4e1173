import LinearScan.Proofs.Register.Reserved
import LinearScan.Target.Decl

/-!
# Targets that can be made

A target is made from a register file that can be reached and from entries that pass their
check; afterwards any of its registers may be disabled.  `Target.Reachable` says so, and
every theorem about allocation quantifies over these targets.

`Target.Reserves` also says which registers were reserved on the way.

Targets given as declarations are no exception (`TargetDecl.toTarget_reachable`): both passes
over the declarations consist of calls on a builder.
-/

namespace LinearScan

open Outcome

/-! ## Builder updates without their checks -/

namespace RegisterBuilder.Reachable

variable {builder : RegisterBuilder} {a b : RegisterId}

/-- Adding registers with a size and a name of their own, one after the other, are calls that
succeed. -/
theorem addAll (rows : List (String × Nat × Bool)) :
    ∀ {builder : RegisterBuilder}, builder.Reachable → (rows.map (·.1)).Nodup →
      (∀ row ∈ rows, builder.byName.contains row.1 = false) → (∀ row ∈ rows, 0 < row.2.1) →
      builder.registers.size + rows.length ≤ capacity →
      (rows.foldl (fun builder row => builder.add row.1 row.2.1 .integer row.2.2)
        builder).Reachable := by
  induction rows with
  | nil => exact fun reachable _ _ _ _ => reachable
  | cons row rows ih =>
    intro builder reachable distinct fresh sized room
    obtain ⟨other, distinct⟩ := List.nodup_cons.mp distinct
    obtain ⟨new, fresh⟩ := List.forall_mem_cons.mp fresh
    obtain ⟨positive, sized⟩ := List.forall_mem_cons.mp sized
    rw [List.length_cons] at room
    have accepted : builder.refusal? row.1 row.2.1 = none :=
      refusal?_eq_none_iff.mpr ⟨positive, new, by omega⟩
    refine ih (reachable.declare (declare_of_none accepted)) distinct ?_ sized ?_
    · intro later member
      have differs : row.1 ≠ later.1 := fun same =>
        other (List.mem_map.mpr ⟨later, member, same.symm⟩)
      simp [RegisterBuilder.add, differs, fresh later member]
    · have size : (builder.add row.1 row.2.1 .integer row.2.2).registers.size
          = builder.registers.size + 1 := Array.size_push _
      show (builder.add row.1 row.2.1 .integer row.2.2).registers.size + _ ≤ _
      omega

/-- So they are for the first registers. -/
theorem addAll_empty (rows : List (String × Nat × Bool)) (distinct : (rows.map (·.1)).Nodup)
    (sized : ∀ row ∈ rows, 0 < row.2.1) (room : rows.length ≤ capacity) :
    (rows.foldl (fun builder row => builder.add row.1 row.2.1 .integer row.2.2)
      RegisterBuilder.empty).Reachable :=
  addAll rows .empty distinct (by simp [RegisterBuilder.empty]) sized
    (by simpa [RegisterBuilder.empty] using room)

/-- Linking two declared registers is a call that succeeds. -/
theorem link (reachable : builder.Reachable) (declared : a.index < builder.registers.size)
    (otherDeclared : b.index < builder.registers.size) : (builder.link a b).Reachable :=
  reachable.aliasPair (aliasPair_eq declared otherDeclared)

/-- Setting the flag of a declared register is a call that succeeds. -/
theorem flag (reachable : builder.Reachable) (declared : a.index < builder.registers.size)
    (usable : Bool) : (builder.flag a usable).Reachable :=
  reachable.setUsable (setUsable_eq declared usable)

end RegisterBuilder.Reachable

/-! ## Targets that calls lead to -/

/-- An entry that passes its check names a register of the file. -/
theorem Entry.register_lt_of_check {name : String} {registers : RegisterFile}
    {entry : Entry} (passed : Entry.check name registers entry = .ok ()) :
    entry.register.index < registers.size := by
  unfold Entry.check at passed
  cases found : registers.get? entry.register with
  | none => simp [found] at passed
  | some register => exact (Array.getElem?_eq_some_iff.mp found).1

/-- An entry that passes its check lists no size but those that its register can serve. -/
theorem Entry.size_le_of_check {name : String} {registers : RegisterFile} {entry : Entry}
    (passed : Entry.check name registers entry = .ok ()) {size : Nat}
    (isServed : size ∈ entry.sizes) :
    ∃ register, registers.get? entry.register = some register ∧ 0 < size ∧
      size ≤ register.size := by
  unfold Entry.check at passed
  cases found : registers.get? entry.register with
  | none => simp [found] at passed
  | some register =>
    simp only [found] at passed
    split at passed
    · cases passed
    · split at passed
      · cases passed
      · next nothing =>
        have serves := List.find?_eq_none.mp nothing size isServed
        simp only [Entry.serves, Bool.not_eq_true', Bool.not_eq_false, Bool.and_eq_true,
          decide_eq_true_eq] at serves
        exact ⟨register, rfl, serves⟩

/-- An entry that passes its check lists a size. -/
theorem Entry.sizes_ne_nil_of_check {name : String} {registers : RegisterFile} {entry : Entry}
    (passed : Entry.check name registers entry = .ok ()) : entry.sizes ≠ [] := by
  intro empty
  unfold Entry.check at passed
  cases found : registers.get? entry.register with
  | none => simp [found] at passed
  | some register => simp [found, empty] at passed

/-- The check of an entry does not look at flags. -/
theorem Entry.check_reserve (name : String) (registers : RegisterFile) (ids : List RegisterId)
    (entry : Entry) :
    Entry.check name { registers with registers := RegisterFile.reserve registers.registers ids }
      entry = Entry.check name registers entry := by
  unfold Entry.check RegisterFile.get?
  rw [RegisterFile.getElem?_reserve]
  cases registers.registers[entry.register.index]? with
  | none => rfl
  | some register =>
    rw [Option.map_some]
    by_cases member : (⟨entry.register.index⟩ : RegisterId) ∈ ids
    · rw [if_pos member]
    · rw [if_neg member]

namespace Target

variable {target target' : Target}

/-- The targets that calls lead to: entries that fit a register file, then disabling
registers any number of times. -/
inductive Reachable : Target → Prop
  | make {name : String} {registers : RegisterFile} {entries : List Entry} {target : Target} :
      registers.Reachable → Target.make name registers entries = .ok target → Reachable target
  | disable {target target' : Target} {register : String} :
      Reachable target → target.disable register = .ok target' → Reachable target'

/-- A target that is made consists of what it was made from, and each entry was checked. -/
theorem eq_of_make {name : String} {registers : RegisterFile} {entries : List Entry}
    (made : Target.make name registers entries = .ok target) :
    target = ⟨name, registers, entries⟩ ∧
      ∀ entry ∈ entries, Entry.check name registers entry = .ok () := by
  obtain ⟨⟨⟩, checked, done⟩ := bind_eq_ok.mp made
  exact ⟨(pure_eq_ok.mp done).symm, forM_eq_ok checked⟩

/-- Disabling changes the register file of a target and nothing else. -/
theorem eq_of_disable {register : String} (done : target.disable register = .ok target') :
    ∃ file, target.registers.disable register = .ok file ∧
      target' = { target with registers := file } := by
  unfold Target.disable at done
  cases disabled : target.registers.disable register with
  | error error => simp [disabled] at done
  | ok file =>
    simp only [disabled, Except.ok.injEq] at done
    exact ⟨file, rfl, done.symm⟩

/-- The register file of a target can be reached. -/
theorem Reachable.registers (reachable : target.Reachable) : target.registers.Reachable := by
  induction reachable with
  | make registers made =>
    obtain ⟨rfl, -⟩ := eq_of_make made
    exact registers
  | disable _ done ih =>
    obtain ⟨file, disabled, rfl⟩ := eq_of_disable done
    exact ih.disable disabled

/-- The entries of a target keep passing their check. -/
theorem Reachable.checked (reachable : target.Reachable) :
    ∀ entry ∈ target.entries, Entry.check target.name target.registers entry = .ok () := by
  induction reachable with
  | make registers made =>
    obtain ⟨rfl, checked⟩ := eq_of_make made
    exact checked
  | disable _ done ih =>
    obtain ⟨file, disabled, rfl⟩ := eq_of_disable done
    obtain ⟨ids, rfl⟩ := RegisterFile.eq_reserve_of_disable disabled
    intro entry member
    rw [Entry.check_reserve]
    exact ih entry member

/-- Every entry of a target names a register of its file. -/
theorem Reachable.register_lt (reachable : target.Reachable) :
    ∀ entry ∈ target.entries, entry.register.index < target.registers.size :=
  fun entry member => Entry.register_lt_of_check (reachable.checked entry member)

/-- Every size that an entry of a target lists is one that its register can serve. -/
theorem Reachable.size_le (reachable : target.Reachable) :
    ∀ entry ∈ target.entries, ∀ size ∈ entry.sizes,
      ∃ register, target.registers.get? entry.register = some register ∧
        0 < size ∧ size ≤ register.size :=
  fun entry member _ isServed => Entry.size_le_of_check (reachable.checked entry member) isServed

/-- The registers that calls have reserved: those of the register file that a target is made
from, and those disabled since. -/
inductive Reserves : Target → (RegisterId → Prop) → Prop
  | make {name : String} {registers : RegisterFile} {entries : List Entry} {target : Target}
      {reserved : RegisterId → Prop} :
      registers.Reserves reserved → Target.make name registers entries = .ok target →
      Reserves target reserved
  | disable {target target' : Target} {reserved : RegisterId → Prop} {name : String}
      {id : RegisterId} :
      Reserves target reserved → target.registers.lookup? name = some id →
      target.disable name = .ok target' → Reserves target' fun other => other = id ∨ reserved other

/-- What a target reserves, its register file reserves. -/
theorem Reserves.registers {reserved : RegisterId → Prop} (reserves : target.Reserves reserved) :
    target.registers.Reserves reserved := by
  induction reserves with
  | make registers made =>
    obtain ⟨rfl, -⟩ := eq_of_make made
    exact registers
  | disable _ found done ih =>
    obtain ⟨file, disabled, rfl⟩ := eq_of_disable done
    exact ih.disable found disabled

/-- Keeping track of what is reserved is no condition on a target. -/
theorem Reserves.reachable {reserved : RegisterId → Prop} (reserves : target.Reserves reserved) :
    target.Reachable := by
  induction reserves with
  | make registers made => exact .make registers.reachable made
  | disable _ _ done ih => exact ih.disable done

end Target

/-! ## Targets given as declarations -/

namespace RegisterDecl

variable {builder builder' : RegisterBuilder} {target : String}

/-- The first pass, for one declaration. -/
theorem declare_reachable {decl : RegisterDecl} (reachable : builder.Reachable)
    (done : decl.declare target builder = .ok builder') : builder'.Reachable := by
  obtain ⟨⟨id, middle⟩, declared, flagged⟩ := bind_eq_ok.mp done
  exact (reachable.declare (mapError_eq_ok.mp declared)).setUsable (mapError_eq_ok.mp flagged)

/-- The second pass, for the overlaps of one declaration. -/
theorem link_reachable {decl : RegisterDecl} {id : RegisterId} (reachable : builder.Reachable)
    (done : decl.link target id builder = .ok builder') : builder'.Reachable := by
  refine foldlM_induction (motive := RegisterBuilder.Reachable) ?_ reachable done
  rintro middle other next - reachable step
  cases found : middle.lookup? other with
  | none => simp [found] at step
  | some otherId =>
    simp only [found] at step
    exact reachable.aliasPair (mapError_eq_ok.mp step)

/-- The second pass. -/
theorem resolve_reachable (decls : List RegisterDecl) :
    ∀ {builder builder' : RegisterBuilder} {entries : List Entry}, builder.Reachable →
      resolve target builder decls = .ok (builder', entries) → builder'.Reachable := by
  induction decls with
  | nil =>
    intro builder builder' entries reachable done
    simp only [resolve, Except.ok.injEq, Prod.mk.injEq] at done
    exact done.1 ▸ reachable
  | cons decl rest ih =>
    intro builder builder' entries reachable done
    rw [resolve] at done
    obtain ⟨id, -, done⟩ := bind_eq_ok.mp done
    obtain ⟨linked, linking, done⟩ := bind_eq_ok.mp done
    obtain ⟨made?, -, done⟩ := bind_eq_ok.mp done
    obtain ⟨⟨last, others⟩, resolved, done⟩ := bind_eq_ok.mp done
    obtain ⟨rfl, -⟩ := Prod.mk.inj (pure_eq_ok.mp done)
    exact ih (link_reachable reachable linking) resolved

end RegisterDecl

/-- **Declared targets can be made** by calls alone, so all that holds of targets that can
be reached holds of target files and of the built-in targets. -/
theorem TargetDecl.toTarget_reachable {decl : TargetDecl} {target : Target}
    (done : decl.toTarget = .ok target) : target.Reachable := by
  obtain ⟨declared, declaring, done⟩ := bind_eq_ok.mp done
  obtain ⟨⟨resolved, entries⟩, resolving, made⟩ := bind_eq_ok.mp done
  have reachable : declared.Reachable := by
    refine foldlM_induction (motive := RegisterBuilder.Reachable) ?_ .empty declaring
    exact fun _ => RegisterDecl.declare_reachable
  exact .make (.build (RegisterDecl.resolve_reachable decl.registers reachable resolving)) made

end LinearScan
