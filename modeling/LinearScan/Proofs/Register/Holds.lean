import LinearScan.Proofs.Register.Calls

/-!
# What a builder holds

A builder is put together by calls, and targets are put together by long sequences of them.  What
matters about a builder on the way is what its registers look like (`Traits`) and which of them
share storage; everything else follows from that (`RegisterBuilder.Holds.unique`), because ids are
places, names are indexed in order and overlap sets ascend.

`RegisterBuilder.Holds` is the invariant, with one step lemma for each call: `Holds.add`,
`Holds.flag`, `Holds.link` and `Holds.aliasGroup`.
-/

namespace LinearScan

open Outcome

open Register (Linked)

/-- What a declaration fixes about a register, whatever it overlaps. -/
@[ext] structure Traits where
  name : String
  size : Nat
  storage : StorageClass
  calleeSaved : Bool
  usable : Bool

/-- The traits of a register. -/
def Register.traits (register : Register) : Traits :=
  ⟨register.name, register.size, register.storage, register.calleeSaved, register.usable⟩

namespace RegisterBuilder

/-- **A builder holds registers** of the given traits, and different ones share storage where the
relation says so. -/
structure Holds (builder : RegisterBuilder) (traits : List Traits)
    (shares : RegisterId → RegisterId → Prop) : Prop where
  reachable : builder.Reachable
  traits_eq : builder.registers.toList.map Register.traits = traits
  linked_iff : ∀ a b, a ≠ b → (Linked builder.registers a b ↔ shares a b)

namespace Holds

variable {builder builder' : RegisterBuilder} {traits : List Traits}
  {shares shares' : RegisterId → RegisterId → Prop}

theorem empty : Holds .empty [] fun _ _ => False where
  reachable := .empty
  traits_eq := rfl
  linked_iff _ _ _ := iff_of_false not_linked_empty not_false

theorem size (holds : Holds builder traits shares) : builder.registers.size = traits.length := by
  rw [← holds.traits_eq, List.length_map, Array.length_toList]

/-- The register at a place. -/
theorem getElem? (holds : Holds builder traits shares) (index : Nat) :
    builder.registers[index]?.map Register.traits = traits[index]? := by
  rw [← holds.traits_eq, List.getElem?_map, Array.getElem?_toList]

theorem exists_register (holds : Holds builder traits shares) {index : Nat} {trait : Traits}
    (found : traits[index]? = some trait) :
    ∃ register, builder.registers[index]? = some register ∧ register.traits = trait :=
  Option.map_eq_some_iff.mp ((holds.getElem? index).trans found)

theorem getElem?_traits (holds : Holds builder traits shares) {index : Nat} {register : Register}
    (found : builder.registers[index]? = some register) :
    traits[index]? = some register.traits := by
  rw [← holds.getElem?, found, Option.map_some]

/-- Names lead to the registers that carry them. -/
theorem lookup?_iff (holds : Holds builder traits shares) {name : String} {id : RegisterId} :
    builder.lookup? name = some id ↔
      ∃ trait, traits[id.index]? = some trait ∧ trait.name = name := by
  refine holds.reachable.orderly.getElem?_byName.trans ⟨?_, ?_⟩
  · rintro ⟨register, found, rfl⟩
    exact ⟨register.traits, holds.getElem?_traits found, rfl⟩
  · rintro ⟨trait, found, rfl⟩
    obtain ⟨register, isRegister, rfl⟩ := holds.exists_register found
    exact ⟨register, isRegister, rfl⟩

theorem isSome_lookup?_iff (holds : Holds builder traits shares) {name : String} :
    (builder.lookup? name).isSome = true ↔ name ∈ traits.map (·.name) := by
  rw [Option.isSome_iff_exists, List.mem_map]
  constructor
  · rintro ⟨id, found⟩
    obtain ⟨trait, atId, same⟩ := holds.lookup?_iff.mp found
    exact ⟨trait, List.mem_of_getElem? atId, same⟩
  · rintro ⟨trait, member, same⟩
    obtain ⟨index, found⟩ := List.mem_iff_getElem?.mp member
    exact ⟨⟨index⟩, holds.lookup?_iff.mpr ⟨trait, found, same⟩⟩

/-- No two registers have one name. -/
theorem nodup_names (holds : Holds builder traits shares) : (traits.map (·.name)).Nodup := by
  have distinct := holds.reachable.orderly.distinct
  rw [Register.map_fst_keys, Register.allNames] at distinct
  rw [← holds.traits_eq, List.map_map]
  exact distinct

/-- A register of a new name and a size is accepted as long as ids last. -/
theorem refusal?_eq_none (holds : Holds builder traits shares) {name : String} {size : Nat}
    (fresh : name ∉ traits.map (·.name)) (sized : size ≠ 0) (room : traits.length < capacity) :
    builder.refusal? name size = none := by
  have unknown : builder.byName.contains name = false := by
    rw [Std.HashMap.contains_eq_isSome_getElem?, Bool.eq_false_iff]
    exact mt holds.isSome_lookup?_iff.mp fresh
  refine refusal?_eq_none_iff.mpr ⟨Nat.pos_of_ne_zero sized, unknown, ?_⟩
  rwa [holds.size]

/-- Only what the relation says of different registers matters. -/
theorem congr (holds : Holds builder traits shares)
    (same : ∀ a b, a ≠ b → (shares a b ↔ shares' a b)) : Holds builder traits shares' :=
  ⟨holds.reachable, holds.traits_eq, fun a b apart => (holds.linked_iff a b apart).trans
    (same a b apart)⟩

/-- **A declaration** adds a register that shares storage with no other. -/
theorem add (holds : Holds builder traits shares) {name : String} {size : Nat}
    (accepted : builder.refusal? name size = none) (storage : StorageClass) (calleeSaved : Bool) :
    Holds (builder.add name size storage calleeSaved)
      (traits ++ [⟨name, size, storage, calleeSaved, true⟩]) shares where
  reachable := holds.reachable.declare (declare_of_none accepted)
  traits_eq := by
    rw [RegisterBuilder.add, Array.toList_push, List.map_append, holds.traits_eq]
    rfl
  linked_iff a b apart := by
    have notNew : ¬ (a = builder.nextId ∧ b = builder.nextId) :=
      fun both => apart (both.1.trans both.2.symm)
    rw [linked_add, or_iff_right notNew, holds.linked_iff a b apart]

/-- An update at the place behind some registers. -/
theorem modify_length_append (before : List Traits) (trait : Traits) (rest : List Traits)
    (change : Traits → Traits) :
    (before ++ trait :: rest).modify before.length change = before ++ change trait :: rest := by
  induction before with
  | nil => rfl
  | cons first before ih => exact congrArg (first :: ·) ih

/-- **A flag** changes one register. -/
theorem flag (holds : Holds builder traits shares) {id : RegisterId}
    (declared : id.index < traits.length) (usable : Bool) :
    Holds (builder.flag id usable) (traits.modify id.index ({ · with usable })) shares where
  reachable := holds.reachable.setUsable (setUsable_eq (holds.size ▸ declared) usable)
  traits_eq := by
    refine List.ext_getElem? fun index => ?_
    rw [List.getElem?_map, Array.getElem?_toList, RegisterBuilder.flag, update,
      Array.getElem?_modify, List.getElem?_modify, ← holds.getElem?]
    split
    · cases builder.registers[index]? <;> rfl
    · cases builder.registers[index]? <;> rfl
  linked_iff a b apart := by
    rw [linked_flag, holds.linked_iff a b apart]

/-- Extending overlap sets is no change to the traits. -/
theorem map_traits_link (builder : RegisterBuilder) (a b : RegisterId) :
    (builder.link a b).registers.toList.map Register.traits
      = builder.registers.toList.map Register.traits := by
  have inPlace : ∀ (registers : Array Register) (id other : RegisterId),
      (registers.modify id.index fun register =>
        { register with overlaps := RegisterId.insert other register.overlaps }).toList.map
          Register.traits = registers.toList.map Register.traits := by
    intro registers id other
    refine List.ext_getElem? fun index => ?_
    rw [List.getElem?_map, List.getElem?_map, Array.getElem?_toList, Array.getElem?_toList,
      Array.getElem?_modify]
    split
    · cases registers[index]? <;> rfl
    · rfl
  rw [RegisterBuilder.link, addOverlap, update, inPlace, addOverlap, update, inPlace]

/-- **A link** makes two registers share storage. -/
theorem link (holds : Holds builder traits shares) {x y : RegisterId}
    (declared : x.index < traits.length) (otherDeclared : y.index < traits.length) :
    Holds (builder.link x y) traits
      fun a b => a = x ∧ b = y ∨ a = y ∧ b = x ∨ shares a b := by
  rw [← holds.size] at declared otherDeclared
  refine ⟨holds.reachable.aliasPair (aliasPair_eq declared otherDeclared), ?_, ?_⟩
  · rw [map_traits_link, holds.traits_eq]
  · intro a b apart
    rw [linked_link declared otherDeclared, holds.linked_iff a b apart]

/-- **A group** makes every two of its members share storage. -/
theorem aliasGroup (holds : Holds builder traits shares) {ids : List RegisterId}
    (done : builder.aliasGroup ids = .ok builder') :
    Holds builder' traits fun a b => a ∈ ids ∧ b ∈ ids ∨ shares a b where
  reachable := holds.reachable.aliasGroup done
  traits_eq := by
    refine aliasGroup_induction (motive := fun builder' =>
      builder'.registers.toList.map Register.traits = traits) ?_ ids holds.traits_eq done
    intro middle middle' a b same linked
    obtain ⟨-, -, rfl⟩ := eq_link_of_aliasPair linked
    rw [map_traits_link, same]
  linked_iff a b apart := by
    rw [linked_aliasGroup apart ids done, holds.linked_iff a b apart]

/-- Overlap sets are determined by the relation. -/
theorem mem_overlaps_iff (holds : Holds builder traits shares) {index : Nat} {register : Register}
    (found : builder.registers[index]? = some register) (other : RegisterId) :
    other ∈ register.overlaps ↔ other = ⟨index⟩ ∨ other ≠ ⟨index⟩ ∧ shares ⟨index⟩ other := by
  have linked : Linked builder.registers ⟨index⟩ other ↔ other ∈ register.overlaps := by
    constructor
    · rintro ⟨same, isSame, member⟩
      obtain rfl := Option.some.inj (found.symm.trans isSame)
      exact member
    · exact fun member => ⟨register, found, member⟩
  rw [← linked]
  by_cases itself : other = ⟨index⟩
  · subst itself
    have declared := (Array.getElem?_eq_some_iff.mp found).1
    exact iff_of_true (holds.reachable.linked_self _ declared) (Or.inl rfl)
  · rw [holds.linked_iff _ _ (Ne.symm itself)]
    simp [itself]

/-- **What a builder holds is all there is to it.** -/
theorem unique (holds : Holds builder traits shares) (holds' : Holds builder' traits shares) :
    builder = builder' := by
  have registers : builder.registers = builder'.registers := by
    refine Array.ext_getElem? fun index => ?_
    cases found : builder.registers[index]? with
    | none =>
      have outside := (holds.getElem? index).symm
      rw [found, Option.map_none, ← holds'.getElem?, Option.map_eq_none_iff] at outside
      exact outside.symm
    | some register =>
      obtain ⟨register', found', same⟩ := holds'.exists_register (holds.getElem?_traits found)
      have sameId : register'.id = register.id := by
        rw [holds.reachable.orderly.id_eq index register found,
          holds'.reachable.orderly.id_eq index register' found']
      have sameOverlaps : register'.overlaps = register.overlaps := by
        refine eq_of_ascending
          (holds'.reachable.orderly.ascending index register' found')
          (holds.reachable.orderly.ascending index register found) fun other => ?_
        rw [holds.mem_overlaps_iff found, holds'.mem_overlaps_iff found']
      rw [found']
      cases register
      cases register'
      cases same
      cases sameId
      cases sameOverlaps
      rfl
  have byName : builder.byName = builder'.byName := by
    rw [holds.reachable.orderly.index, holds'.reachable.orderly.index, registers]
  cases builder
  cases builder'
  cases registers
  cases byName
  rfl

end Holds

end RegisterBuilder

end LinearScan
