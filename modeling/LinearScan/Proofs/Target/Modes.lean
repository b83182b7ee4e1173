import LinearScan.Proofs.Target.Declared
import LinearScan.Target.X86

/-!
# The built-in targets as declarations

The registers of a processor mode are declared block by block: the views of a family, which share
storage with each other and with nothing else, or a single register.  Written down as declarations
(`X86.Mode.decl`), a block lists nothing but its own names.  So whether all registers are declared
before any two are linked, as for a target file, or each block is finished before the next, makes
no difference: the two ways lead to one and the same target (`X86.Mode.toTarget_eq_toTarget_decl`),
and all that is known about declared targets holds of the built-in ones.

`X86.Layout.Covers` is the invariant of the second way, with one step lemma for each kind of block.
-/

namespace LinearScan

open Outcome

open RegisterBuilder (Holds capacity)

/-! ## The tables -/

namespace RegisterDecl

/-- The given views of one family, each of which overlaps the others. -/
def family (views : List X86.View) (calleeSaved usable : Bool) : List RegisterDecl :=
  views.map fun view =>
    { name := view.name
      size := view.byteSize
      storage := .integer
      accepts := if usable then some TypePredicate.integer.name else none
      sizes := none
      overlaps := (views.filter (· ≠ view)).map (·.name)
      calleeSaved
      usable }

/-- A vector register. -/
def vector (usable : Bool) (number : Nat) : RegisterDecl where
  name := X86.xmmName number
  size := X86.xmmBytes
  storage := .sse
  accepts := some TypePredicate.sse.name
  sizes := some X86.vectorSizes
  overlaps := []
  calleeSaved := false
  usable := usable

/-- An entry of the x87 stack. -/
def x87 (number : Nat) : RegisterDecl where
  name := X86.x87Name number
  size := X86.x87Bytes
  storage := .x87
  accepts := some TypePredicate.extended.name
  sizes := some [X86.x87Bytes]
  overlaps := []
  calleeSaved := false
  usable := true

end RegisterDecl

/-- The registers of a mode, as they would be declared in a target file. -/
def X86.Mode.decl (mode : X86.Mode) : TargetDecl where
  name := mode.name
  registers :=
    mode.pool.flatMap (fun family =>
      RegisterDecl.family (viewsAt (mode.widths family) family) (mode.calleeSaved family) true)
    ++ framePointers.flatMap (fun family =>
      RegisterDecl.family (viewsAt mode.frameWidths family) true false)
    ++ (List.range mode.vectors).flatMap (fun number => [.vector mode.vectorsUsable number])
    ++ (List.range x87Count).flatMap (fun number => [.x87 number])

/-! ## Blocks of declarations -/

namespace RegisterDecl

variable {decls block : List RegisterDecl} {a b : RegisterId}

/-- Declarations that refer to nothing but each other. -/
def Closed (decls : List RegisterDecl) : Prop :=
  ∀ decl ∈ decls, ∀ name ∈ decl.overlaps, name ∈ decls.map (·.name)

/-- Declarations that a builder has room for. -/
structure Admissible (decls : List RegisterDecl) : Prop where
  count : decls.length ≤ capacity
  distinct : (decls.map (·.name)).Nodup
  sized : ∀ decl ∈ decls, decl.size ≠ 0

theorem Admissible.left (admissible : Admissible (decls ++ block)) : Admissible decls where
  count := by
    have count := admissible.count
    rw [List.length_append] at count
    omega
  distinct := by
    have distinct := admissible.distinct
    rw [List.map_append] at distinct
    exact distinct.of_append_left
  sized decl member := admissible.sized decl (List.mem_append_left _ member)

/-- A name stands at one place. -/
theorem index_eq_of_name_eq (distinct : (decls.map (·.name)).Nodup) {index index' : Nat}
    {decl decl' : RegisterDecl} (found : decls[index]? = some decl)
    (found' : decls[index']? = some decl') (same : decl.name = decl'.name) : index = index' := by
  have inside : index < (decls.map (·.name)).length := by
    rw [List.length_map]
    exact (List.getElem?_eq_some_iff.mp found).1
  refine (List.getElem?_inj inside distinct).mp ?_
  rw [List.getElem?_map, List.getElem?_map, found, found', Option.map_some, Option.map_some, same]

/-- What is listed by a register of a block is in the block. -/
theorem exists_of_listed (closed : Closed block) {decl : RegisterDecl} (member : decl ∈ block)
    {name : String} (listed : name ∈ decl.overlaps) :
    ∃ (index : Nat) (other : RegisterDecl), block[index]? = some other ∧ other.name = name := by
  obtain ⟨other, isOther, same⟩ := List.mem_map.mp (closed decl member name listed)
  obtain ⟨index, found⟩ := List.mem_iff_getElem?.mp isOther
  exact ⟨index, other, found, same⟩

/-- **A block adds what its registers list among themselves.** -/
theorem lists_append (distinct : ((decls ++ block).map (·.name)).Nodup) (closed : Closed decls)
    (blockClosed : Closed block) :
    Lists (decls ++ block) a b ↔ Lists decls a b ∨ decls.length ≤ a.index ∧
      decls.length ≤ b.index ∧ Lists block ⟨a.index - decls.length⟩ ⟨b.index - decls.length⟩ := by
  constructor
  · rintro ⟨decl, other, found, isOther, listed⟩
    rcases Nat.lt_or_ge a.index decls.length with before | behind
    · rw [List.getElem?_append_left before] at found
      obtain ⟨index, same, atIndex, sameName⟩ :=
        exists_of_listed closed (List.mem_of_getElem? found) listed
      have inside := (List.getElem?_eq_some_iff.mp atIndex).1
      have samePlace : b.index = index := index_eq_of_name_eq distinct isOther
        ((List.getElem?_append_left inside).trans atIndex) sameName.symm
      rw [samePlace, List.getElem?_append_left inside] at isOther
      exact Or.inl ⟨decl, other, found, samePlace ▸ isOther, listed⟩
    · rw [List.getElem?_append_right behind] at found
      obtain ⟨index, same, atIndex, sameName⟩ :=
        exists_of_listed blockClosed (List.mem_of_getElem? found) listed
      have samePlace : b.index = decls.length + index := by
        refine index_eq_of_name_eq distinct isOther ?_ sameName.symm
        rw [List.getElem?_append_right (Nat.le_add_right _ _), Nat.add_sub_cancel_left]
        exact atIndex
      have otherBehind : decls.length ≤ b.index := samePlace ▸ Nat.le_add_right _ _
      rw [List.getElem?_append_right otherBehind] at isOther
      exact Or.inr ⟨behind, otherBehind, decl, other, found, isOther, listed⟩
  · rintro (⟨decl, other, found, isOther, listed⟩ | ⟨behind, otherBehind, lists⟩)
    · refine ⟨decl, other, ?_, ?_, listed⟩
      · exact (List.getElem?_append_left (List.getElem?_eq_some_iff.mp found).1).trans found
      · exact (List.getElem?_append_left (List.getElem?_eq_some_iff.mp isOther).1).trans isOther
    · obtain ⟨decl, other, found, isOther, listed⟩ := lists
      exact ⟨decl, other, (List.getElem?_append_right behind).trans found,
        (List.getElem?_append_right otherBehind).trans isOther, listed⟩

theorem Closed.append (closed : Closed decls) (blockClosed : Closed block) :
    Closed (decls ++ block) := by
  intro decl member name listed
  rw [List.map_append]
  rcases List.mem_append.mp member with old | new
  · exact List.mem_append_left _ (closed decl old name listed)
  · exact List.mem_append_right _ (blockClosed decl new name listed)

/-! ## Families -/

variable {views : List X86.View} {calleeSaved usable : Bool}

theorem map_name_family : (family views calleeSaved usable).map (·.name) = views.map (·.name) := by
  rw [family, List.map_map]
  rfl

theorem closed_family : Closed (family views calleeSaved usable) := by
  intro decl member name listed
  rw [map_name_family]
  obtain ⟨view, -, rfl⟩ := List.mem_map.mp member
  obtain ⟨other, isOther, rfl⟩ := List.mem_map.mp listed
  exact List.mem_map_of_mem (List.mem_of_mem_filter isOther)

/-- **A family lists all its other views.** -/
theorem lists_family (distinct : (views.map (·.name)).Nodup) :
    Lists (family views calleeSaved usable) a b ↔
      a.index < views.length ∧ b.index < views.length ∧ a ≠ b := by
  have byPlace : ∀ (id : RegisterId) (decl : RegisterDecl),
      (family views calleeSaved usable)[id.index]? = some decl →
      ∃ inside : id.index < views.length, decl.name = views[id.index].name ∧
        decl.overlaps = (views.filter (· ≠ views[id.index])).map (·.name) := by
    intro id decl found
    rw [family, List.getElem?_map] at found
    obtain ⟨view, isView, rfl⟩ := Option.map_eq_some_iff.mp found
    obtain ⟨inside, rfl⟩ := List.getElem?_eq_some_iff.mp isView
    exact ⟨inside, rfl, rfl⟩
  constructor
  · rintro ⟨decl, other, found, isOther, listed⟩
    obtain ⟨inside, -, overlaps⟩ := byPlace a decl found
    obtain ⟨otherInside, name, -⟩ := byPlace b other isOther
    refine ⟨inside, otherInside, ?_⟩
    rintro rfl
    -- no other view has the name of this one
    rw [overlaps, name] at listed
    obtain ⟨view, isView, same⟩ := List.mem_map.mp listed
    obtain ⟨member, differs⟩ := List.mem_filter.mp isView
    exact of_decide_eq_true differs
      (List.inj_on_of_nodup_map distinct member (List.getElem_mem inside) same)
  · rintro ⟨inside, otherInside, apart⟩
    have atPlace : ∀ {id : RegisterId}, id.index < views.length →
        ∃ decl, (family views calleeSaved usable)[id.index]? = some decl := by
      intro id inside
      exact ⟨_, List.getElem?_eq_getElem (by simpa [family] using inside)⟩
    obtain ⟨decl, found⟩ := atPlace inside
    obtain ⟨other, isOther⟩ := atPlace otherInside
    obtain ⟨_, -, overlaps⟩ := byPlace a decl found
    obtain ⟨_, name, -⟩ := byPlace b other isOther
    refine ⟨decl, other, found, isOther, ?_⟩
    rw [overlaps, name]
    refine List.mem_map.mpr ⟨_, List.mem_filter.mpr ⟨List.getElem_mem otherInside, ?_⟩, rfl⟩
    refine decide_eq_true fun same => apart ?_
    have sameIndex := (List.Nodup.getElem_inj_iff (distinct.of_map _)).mp same
    cases a
    cases b
    exact congrArg RegisterId.mk sameIndex.symm

/-- A single register that lists nothing. -/
theorem closed_singleton {decl : RegisterDecl} (alone : decl.overlaps = []) : Closed [decl] := by
  intro other member name listed
  rw [List.mem_singleton.mp member, alone] at listed
  cases listed

theorem not_lists_singleton {decl : RegisterDecl} (alone : decl.overlaps = []) :
    ¬ Lists [decl] a b := by
  rintro ⟨same, other, found, -, listed⟩
  rw [List.mem_singleton.mp (List.mem_of_getElem? found), alone] at listed
  cases listed

end RegisterDecl

/-! ## Calls in a row -/

namespace RegisterBuilder.Holds

variable {builder : RegisterBuilder} {traits : List Traits}
  {shares : RegisterId → RegisterId → Prop}

/-- A register of a new name is declared at the end. -/
theorem exists_declare (holds : Holds builder traits shares) {name : String} {size : Nat}
    (fresh : name ∉ traits.map (·.name)) (sized : size ≠ 0) (room : traits.length < capacity)
    (storage : StorageClass) (calleeSaved : Bool) :
    ∃ builder', builder.declare name size storage calleeSaved
        = .ok (⟨traits.length⟩, builder') ∧
      Holds builder' (traits ++ [⟨name, size, storage, calleeSaved, true⟩]) shares := by
  have accepted := holds.refusal?_eq_none fresh sized room
  refine ⟨_, ?_, holds.add accepted storage calleeSaved⟩
  rw [declare_of_none accepted, nextId, holds.size]

/-- The flags of the last registers are set one after the other. -/
theorem exists_flagAll (usable : Bool) (block : List Traits) :
    ∀ {builder : RegisterBuilder} (before : List Traits), Holds builder (before ++ block) shares →
      ∃ builder', ((List.range' before.length block.length).map RegisterId.mk).foldlM
          (fun builder id => (builder.setUsable id usable).mapError TargetError.fault) builder
          = .ok builder' ∧
        Holds builder' (before ++ block.map ({ · with usable })) shares := by
  induction block with
  | nil => exact fun {builder} before holds => ⟨builder, rfl, holds⟩
  | cons trait block ih =>
    intro builder before holds
    have declared : before.length < (before ++ trait :: block).length := by simp
    have flagged := holds.flag (show (⟨before.length⟩ : RegisterId).index < _ from declared) usable
    rw [modify_length_append, List.append_cons] at flagged
    obtain ⟨builder', done, last⟩ := ih _ flagged
    refine ⟨builder', ?_, ?_⟩
    · rw [List.length_cons, List.range'_succ, List.map_cons, List.foldlM_cons]
      refine bind_eq_ok.mpr ⟨_, mapError_eq_ok.mpr (setUsable_eq ?_ usable), ?_⟩
      · rw [holds.size]
        exact declared
      · rw [List.length_append, List.length_singleton] at done
        exact done
    · rw [List.map_cons, List.append_cons]
      exact last

end RegisterBuilder.Holds

namespace X86

/-- The traits of a view when it is declared. -/
def View.traits (calleeSaved : Bool) (view : View) : Traits :=
  ⟨view.name, view.byteSize, .integer, calleeSaved, true⟩

variable {builder : RegisterBuilder} {traits : List Traits}
  {shares : RegisterId → RegisterId → Prop} {views : List View}

/-- The ids of registers that are declared in a row. -/
def idsFrom (first count : Nat) : List RegisterId :=
  (List.range' first count).map RegisterId.mk

theorem mem_idsFrom {first count : Nat} {id : RegisterId} :
    id ∈ idsFrom first count ↔ first ≤ id.index ∧ id.index < first + count := by
  cases id
  simp [idsFrom]

/-- Views with names of their own are declared in a row. -/
theorem exists_declareViews (calleeSaved : Bool) (views : List View) :
    ∀ {builder : RegisterBuilder} {traits : List Traits}, builder.Holds traits shares →
      (traits.map (·.name) ++ views.map (·.name)).Nodup → (∀ view ∈ views, view.byteSize ≠ 0) →
      traits.length + views.length ≤ capacity →
      ∃ builder', declareViews calleeSaved builder views
          = .ok (idsFrom traits.length views.length, builder') ∧
        builder'.Holds (traits ++ views.map (View.traits calleeSaved)) shares := by
  induction views with
  | nil =>
    intro builder traits holds _ _ _
    exact ⟨builder, rfl, by rwa [List.map_nil, List.append_nil]⟩
  | cons view views ih =>
    intro builder traits holds distinct sized room
    obtain ⟨first, others⟩ := List.forall_mem_cons.mp sized
    have fresh : view.name ∉ traits.map (·.name) := fun member =>
      (List.nodup_append.mp distinct).2.2 _ member _ List.mem_cons_self rfl
    rw [List.length_cons] at room
    obtain ⟨middle, declared, middleHolds⟩ :=
      holds.exists_declare fresh first (by omega) .integer calleeSaved
    obtain ⟨builder', done, last⟩ := ih middleHolds (by simpa using distinct) others
      (by rw [List.length_append, List.length_singleton]; omega)
    refine ⟨builder', ?_, ?_⟩
    · rw [List.length_append, List.length_singleton] at done
      exact bind_eq_ok.mpr ⟨_, mapError_eq_ok.mpr declared, bind_eq_ok.mpr ⟨_, done, rfl⟩⟩
    · rw [List.map_cons, List.append_cons]
      exact last

/-- **A family** is declared in a row and shares storage. -/
theorem exists_declareFamily (calleeSaved : Bool) (holds : builder.Holds traits shares)
    (distinct : (traits.map (·.name) ++ views.map (·.name)).Nodup)
    (sized : ∀ view ∈ views, view.byteSize ≠ 0)
    (room : traits.length + views.length ≤ capacity) :
    ∃ builder', declareFamily builder views calleeSaved
        = .ok (idsFrom traits.length views.length, builder') ∧
      builder'.Holds (traits ++ views.map (View.traits calleeSaved)) fun a b =>
        a ∈ idsFrom traits.length views.length ∧ b ∈ idsFrom traits.length views.length ∨
          shares a b := by
  obtain ⟨middle, declared, middleHolds⟩ :=
    exists_declareViews calleeSaved views holds distinct sized room
  obtain ⟨builder', grouped⟩ : ∃ builder',
      middle.aliasGroup (idsFrom traits.length views.length) = .ok builder' := by
    refine RegisterBuilder.exists_aliasGroup _ fun id member => ?_
    rw [middleHolds.size, List.length_append, List.length_map]
    exact (mem_idsFrom.mp member).2
  refine ⟨builder', ?_, middleHolds.aliasGroup grouped⟩
  exact bind_eq_ok.mpr ⟨_, declared, bind_eq_ok.mpr ⟨_, mapError_eq_ok.mpr grouped, rfl⟩⟩

/-! ## Layouts -/

/-- **A layout covers declarations** that refer to nothing but each other. -/
structure Layout.Covers (layout : Layout) (decls : List RegisterDecl) : Prop where
  holds : layout.builder.Holds (decls.map RegisterDecl.traits)
    fun a b => RegisterDecl.Lists decls a b ∨ RegisterDecl.Lists decls b a
  entries : layout.entries =
    decls.zipIdx.filterMap fun (decl, index) => decl.asked? ⟨index⟩
  closed : RegisterDecl.Closed decls

namespace Layout.Covers

open RegisterDecl (Closed Admissible family lists_append)

variable {layout : Layout} {decls block : List RegisterDecl}

theorem empty : Layout.empty.Covers [] where
  holds := RegisterBuilder.Holds.empty.congr (by simp [RegisterDecl.Lists])
  entries := rfl
  closed := by simp [Closed]

/-- The entries of a block come behind the others. -/
theorem filterMap_append (decls block : List RegisterDecl) :
    (decls ++ block).zipIdx.filterMap (fun (decl, index) => decl.asked? ⟨index⟩) =
      decls.zipIdx.filterMap (fun (decl, index) => decl.asked? ⟨index⟩) ++
        (block.zipIdx decls.length).filterMap fun (decl, index) => decl.asked? ⟨index⟩ := by
  rw [List.zipIdx_append, List.filterMap_append, Nat.zero_add]

/-- **A family is covered** by what its declaration leaves. -/
theorem of_family (covers : layout.Covers decls) {calleeSaved usable : Bool}
    (admissible : Admissible (decls ++ family views calleeSaved usable))
    {builder : RegisterBuilder} {entries : List Entry}
    (holds : builder.Holds ((decls ++ family views calleeSaved usable).map RegisterDecl.traits)
      fun a b => a ∈ idsFrom decls.length views.length ∧ b ∈ idsFrom decls.length views.length ∨
        RegisterDecl.Lists decls a b ∨ RegisterDecl.Lists decls b a)
    (asked : entries = ((family views calleeSaved usable).zipIdx decls.length).filterMap
      fun (decl, index) => decl.asked? ⟨index⟩) :
    Covers ⟨builder, layout.entries ++ entries⟩ (decls ++ family views calleeSaved usable) where
  holds := by
    have distinct : (views.map (·.name)).Nodup := by
      have distinct := admissible.distinct
      rw [List.map_append, RegisterDecl.map_name_family] at distinct
      exact distinct.of_append_right
    have listed : ∀ a b : RegisterId, a ≠ b →
        (RegisterDecl.Lists (decls ++ family views calleeSaved usable) a b ↔
          RegisterDecl.Lists decls a b ∨
          a ∈ idsFrom decls.length views.length ∧ b ∈ idsFrom decls.length views.length) := by
      rintro ⟨i⟩ ⟨j⟩ apart
      rw [lists_append admissible.distinct covers.closed RegisterDecl.closed_family,
        RegisterDecl.lists_family distinct, mem_idsFrom, mem_idsFrom]
      have differs : i ≠ j := fun same => apart (congrArg RegisterId.mk same)
      refine or_congr_right ?_
      simp only [ne_eq, RegisterId.mk.injEq]
      omega
    refine holds.congr fun a b apart => ?_
    rw [listed a b apart, listed b a (Ne.symm apart)]
    tauto
  entries := by rw [filterMap_append, covers.entries, asked]
  closed := covers.closed.append RegisterDecl.closed_family

/-- **A single register is covered** by what its declaration leaves. -/
theorem of_single (covers : layout.Covers decls) {decl : RegisterDecl} (alone : decl.overlaps = [])
    (admissible : Admissible (decls ++ [decl])) {builder : RegisterBuilder} {entries : List Entry}
    (holds : builder.Holds ((decls ++ [decl]).map RegisterDecl.traits)
      fun a b => RegisterDecl.Lists decls a b ∨ RegisterDecl.Lists decls b a)
    (asked : entries = (decl.asked? ⟨decls.length⟩).toList) :
    Covers ⟨builder, layout.entries ++ entries⟩ (decls ++ [decl]) where
  holds := by
    have closed := RegisterDecl.closed_singleton alone
    refine holds.congr fun a b _ => ?_
    rw [lists_append admissible.distinct covers.closed closed,
      lists_append admissible.distinct covers.closed closed]
    simp [RegisterDecl.not_lists_singleton alone]
  entries := by
    rw [filterMap_append, covers.entries, asked]
    rfl
  closed := covers.closed.append (RegisterDecl.closed_singleton alone)

/-- The names and sizes of a family are those of its views. -/
theorem admissible_family {calleeSaved usable : Bool}
    (admissible : Admissible (decls ++ family views calleeSaved usable)) :
    ((decls.map RegisterDecl.traits).map (·.name) ++ views.map (·.name)).Nodup ∧
      (∀ view ∈ views, view.byteSize ≠ 0) ∧
      (decls.map RegisterDecl.traits).length + views.length ≤ capacity := by
  refine ⟨?_, ?_, ?_⟩
  · have distinct := admissible.distinct
    rw [List.map_append, RegisterDecl.map_name_family] at distinct
    rwa [RegisterDecl.map_name_traits]
  · intro view member
    exact admissible.sized _ (List.mem_append_right _ (List.mem_map_of_mem member))
  · have count := admissible.count
    rw [List.length_append, family, List.length_map] at count
    rwa [List.length_map]

/-- **One family that is handed out.** -/
theorem addPool (covers : layout.Covers decls) {calleeSaved : Bool}
    (admissible : Admissible (decls ++ family views calleeSaved true)) :
    ∃ layout', layout.addPool views calleeSaved = .ok layout' ∧
      layout'.Covers (decls ++ family views calleeSaved true) := by
  obtain ⟨distinct, sized, room⟩ := admissible_family admissible
  obtain ⟨builder, declared, holds⟩ :=
    exists_declareFamily calleeSaved covers.holds distinct sized room
  rw [List.length_map] at declared holds
  refine ⟨_, bind_eq_ok.mpr ⟨_, declared, rfl⟩, covers.of_family admissible ?_ ?_⟩
  · rw [List.map_append, family, List.map_map]
    exact holds
  · -- each view serves its own size
    rw [family, List.zipIdx_map, List.filterMap_map, idsFrom, List.zip_map_right, List.map_map,
      ← List.zipIdx_eq_zip_range', ← List.filterMap_eq_map]
    rfl

/-- **One family that is never handed out.** -/
theorem addReserved (covers : layout.Covers decls)
    (admissible : Admissible (decls ++ family views true false)) :
    ∃ layout', layout.addReserved views = .ok layout' ∧
      layout'.Covers (decls ++ family views true false) := by
  obtain ⟨distinct, sized, room⟩ := admissible_family admissible
  obtain ⟨middle, declared, middleHolds⟩ :=
    exists_declareFamily true covers.holds distinct sized room
  obtain ⟨builder, flagged, holds⟩ :=
    RegisterBuilder.Holds.exists_flagAll false _ _ middleHolds
  rw [List.length_map] at declared holds
  rw [List.length_map, List.length_map] at flagged
  have finished : layout.addReserved views = .ok ⟨builder, layout.entries ++ []⟩ := by
    rw [List.append_nil]
    exact bind_eq_ok.mpr ⟨_, declared, bind_eq_ok.mpr ⟨_, flagged, rfl⟩⟩
  refine ⟨_, finished, covers.of_family admissible ?_ ?_⟩
  · rw [List.map_append, family, List.map_map]
    rw [List.map_map] at holds
    exact holds
  · -- no view is allocated
    symm
    rw [List.filterMap_eq_nil_iff]
    rintro ⟨decl, index⟩ row
    obtain ⟨view, -, rfl⟩ := List.mem_map.mp (List.fst_mem_of_mem_zipIdx row)
    rfl

/-- The name and the size of a single register. -/
theorem admissible_single {decl : RegisterDecl} (admissible : Admissible (decls ++ [decl])) :
    decl.name ∉ (decls.map RegisterDecl.traits).map (·.name) ∧ decl.size ≠ 0 ∧
      (decls.map RegisterDecl.traits).length < capacity := by
  refine ⟨?_, admissible.sized decl (by simp), ?_⟩
  · have distinct := admissible.distinct
    rw [List.map_append, List.nodup_append] at distinct
    rw [RegisterDecl.map_name_traits]
    exact fun member => distinct.2.2 _ member _ List.mem_cons_self rfl
  · have count := admissible.count
    rw [List.length_append, List.length_singleton] at count
    rwa [List.length_map]

/-- **One vector register.** -/
theorem addVector (covers : layout.Covers decls) {usable : Bool} {number : Nat}
    (admissible : Admissible (decls ++ [.vector usable number])) :
    ∃ layout', layout.addVector usable number = .ok layout' ∧
      layout'.Covers (decls ++ [.vector usable number]) := by
  obtain ⟨fresh, sized, room⟩ := admissible_single admissible
  obtain ⟨middle, declared, middleHolds⟩ :=
    covers.holds.exists_declare fresh sized room .sse false
  have flagged := RegisterBuilder.setUsable_eq (show
    (⟨(decls.map RegisterDecl.traits).length⟩ : RegisterId).index < middle.registers.size by
      simp [middleHolds.size]) usable
  have holds := middleHolds.flag (show
    (⟨(decls.map RegisterDecl.traits).length⟩ : RegisterId).index < _ by simp) usable
  rw [RegisterBuilder.Holds.modify_length_append] at holds
  refine ⟨_, bind_eq_ok.mpr ⟨_, mapError_eq_ok.mpr declared, bind_eq_ok.mpr
    ⟨_, mapError_eq_ok.mpr flagged, rfl⟩⟩, covers.of_single rfl admissible ?_ ?_⟩
  · rw [List.map_append]
    exact holds
  · rw [List.length_map]
    rfl

/-- **One entry of the x87 stack.** -/
theorem addX87 (covers : layout.Covers decls) {number : Nat}
    (admissible : Admissible (decls ++ [.x87 number])) :
    ∃ layout', layout.addX87 number = .ok layout' ∧ layout'.Covers (decls ++ [.x87 number]) := by
  obtain ⟨fresh, sized, room⟩ := admissible_single admissible
  obtain ⟨builder, declared, holds⟩ :=
    covers.holds.exists_declare fresh sized room .x87 false
  refine ⟨_, bind_eq_ok.mpr ⟨_, mapError_eq_ok.mpr declared, rfl⟩,
    covers.of_single rfl admissible ?_ ?_⟩
  · rw [List.map_append]
    exact holds
  · rw [List.length_map]
    rfl

/-- **Blocks in a row**, if each of them is covered. -/
theorem foldlM {α : Type} (add : Layout → α → Except TargetError Layout)
    (block : α → List RegisterDecl)
    (step : ∀ {layout decls} (a : α), layout.Covers decls → Admissible (decls ++ block a) →
      ∃ layout', add layout a = .ok layout' ∧ layout'.Covers (decls ++ block a))
    (items : List α) :
    ∀ {layout decls}, layout.Covers decls → Admissible (decls ++ items.flatMap block) →
      ∃ layout', items.foldlM add layout = .ok layout' ∧
        layout'.Covers (decls ++ items.flatMap block) := by
  induction items with
  | nil =>
    intro layout decls covers _
    exact ⟨layout, rfl, by rwa [List.flatMap_nil, List.append_nil]⟩
  | cons a items ih =>
    intro layout decls covers admissible
    rw [List.flatMap_cons, ← List.append_assoc] at admissible ⊢
    obtain ⟨middle, first, middleCovers⟩ := step a covers admissible.left
    obtain ⟨layout', others, last⟩ := ih middleCovers admissible
    refine ⟨layout', ?_, last⟩
    rw [List.foldlM_cons]
    exact bind_eq_ok.mpr ⟨middle, first, others⟩

end Layout.Covers

namespace Mode

open RegisterDecl (Admissible)

variable {mode : Mode}

/-- **The layout of a mode** covers its declarations. -/
theorem exists_layout (admissible : Admissible mode.decl.registers) :
    ∃ layout, mode.layout = .ok layout ∧ layout.Covers mode.decl.registers := by
  obtain ⟨pool, inPool, poolCovers⟩ := Layout.Covers.empty.foldlM
    (fun layout family =>
      layout.addPool (viewsAt (mode.widths family) family) (mode.calleeSaved family)) _
    (fun _ covers admissible => covers.addPool admissible) mode.pool admissible.left.left.left
  obtain ⟨frame, inFrame, frameCovers⟩ := poolCovers.foldlM
    (fun layout family => layout.addReserved (viewsAt mode.frameWidths family)) _
    (fun _ covers admissible => covers.addReserved admissible) framePointers admissible.left.left
  obtain ⟨vectors, inVectors, vectorsCover⟩ := frameCovers.foldlM
    (Layout.addVector mode.vectorsUsable) _
    (fun _ covers admissible => covers.addVector admissible) (List.range mode.vectors)
    admissible.left
  obtain ⟨layout, inStack, covers⟩ := vectorsCover.foldlM Layout.addX87 _
    (fun _ covers admissible => covers.addX87 admissible) (List.range x87Count) admissible
  exact ⟨layout, bind_eq_ok.mpr ⟨pool, inPool, bind_eq_ok.mpr ⟨frame, inFrame, bind_eq_ok.mpr
    ⟨vectors, inVectors, inStack⟩⟩⟩, covers⟩

/-- There are three kinds of registers. -/
theorem kinds_of_mem {decl : RegisterDecl} (member : decl ∈ mode.decl.registers) :
    (∃ views calleeSaved usable, decl ∈ RegisterDecl.family views calleeSaved usable) ∨
      (∃ usable number, decl = .vector usable number) ∨ ∃ number, decl = .x87 number := by
  simp only [Mode.decl, List.mem_append, List.mem_flatMap, List.mem_singleton] at member
  rcases member with ((⟨_, -, inPool⟩ | ⟨_, -, inFrame⟩) | ⟨_, -, vector⟩) | ⟨_, -, x87⟩
  · exact Or.inl ⟨_, _, _, inPool⟩
  · exact Or.inl ⟨_, _, _, inFrame⟩
  · exact Or.inr (Or.inl ⟨_, _, vector⟩)
  · exact Or.inr (Or.inr ⟨_, x87⟩)

/-- **The declarations of a mode hang together** if a builder has room for them. -/
theorem sound_decl (admissible : Admissible mode.decl.registers) : mode.decl.Sound where
  count := admissible.count
  distinct := admissible.distinct
  sized := admissible.sized
  overlaps := by
    obtain ⟨layout, -, covers⟩ := exists_layout admissible
    exact covers.closed
  accepts := by
    intro register member name accepts
    rcases kinds_of_mem member with ⟨views, calleeSaved, usable, inFamily⟩ | ⟨_, _, rfl⟩ | ⟨_, rfl⟩
    · obtain ⟨view, -, rfl⟩ := List.mem_map.mp inFamily
      cases usable <;> cases accepts
      rfl
    · cases accepts
      rfl
    · cases accepts
      rfl
  serves := by
    intro register member _
    rcases kinds_of_mem member with ⟨views, calleeSaved, usable, inFamily⟩ | ⟨_, _, rfl⟩ | ⟨_, rfl⟩
    · -- a view serves its own size
      have sized := admissible.sized register member
      obtain ⟨view, -, rfl⟩ := List.mem_map.mp inFamily
      refine ⟨List.cons_ne_nil _ _, fun size served => ?_⟩
      obtain rfl := List.mem_singleton.mp served
      exact ⟨Nat.pos_of_ne_zero sized, Nat.le_refl _⟩
    · exact ⟨List.cons_ne_nil _ _, show ∀ size ∈ vectorSizes, 0 < size ∧ size ≤ xmmBytes by decide⟩
    · exact ⟨List.cons_ne_nil _ _, show ∀ size ∈ [x87Bytes], 0 < size ∧ size ≤ x87Bytes by decide⟩

/-- **A mode has the target of its declarations**, if these hang together. -/
theorem toTarget_eq_toTarget_decl (sound : mode.decl.Sound) :
    mode.toTarget = mode.decl.toTarget := by
  obtain ⟨layout, laidOut, covers⟩ := exists_layout ⟨sound.count, sound.distinct, sound.sized⟩
  obtain ⟨builder, holds, made⟩ := TargetDecl.exists_passes sound
  rw [made, RegisterBuilder.Holds.unique holds covers.holds, TargetDecl.asked, ← covers.entries,
    toTarget, laidOut]
  rfl

set_option maxRecDepth 4000 in
theorem sound_x86_64 : x86_64.decl.Sound :=
  sound_decl ⟨by decide +kernel, by decide +kernel, by decide +kernel⟩

set_option maxRecDepth 4000 in
theorem sound_i386 : i386.decl.Sound :=
  sound_decl ⟨by decide +kernel, by decide +kernel, by decide +kernel⟩

/-- **Every built-in target exists**, and is the one that its declarations would give. -/
theorem exists_toTarget_of_builtin? {name : String} (known : TargetDecl.builtin? name = some mode) :
    ∃ target, mode.toTarget = .ok target ∧ mode.decl.toTarget = .ok target := by
  have sound : mode.decl.Sound := by
    unfold TargetDecl.builtin? at known
    split at known
    · exact Option.some.inj known ▸ sound_x86_64
    · split at known
      · exact Option.some.inj known ▸ sound_i386
      · cases known
  obtain ⟨target, made⟩ := TargetDecl.exists_toTarget sound
  exact ⟨target, (toTarget_eq_toTarget_decl sound).trans made, made⟩

end Mode

end X86

end LinearScan
