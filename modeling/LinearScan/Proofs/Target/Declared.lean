import LinearScan.Proofs.Register.Holds
import LinearScan.Proofs.Target.Reachable

/-!
# What a declaration describes

A target given as a declaration is made in two passes.  The first declares every register, the
second resolves the references between them, so a declaration may refer to a later one.  This
module says what comes out, without the passes.

* `TargetDecl.Sound` — the conditions under which a target comes out at all
  (`TargetDecl.exists_toTarget`).
* `TargetDecl.Describes` — its registers share storage where one lists the other, those that
  share none with an unusable one may be handed out, and its entries are those of the
  declarations, in order (`TargetDecl.describes_of_toTarget`).

Both passes are followed by what the builder holds.  The first one adds registers that share no
storage (`RegisterDecl.holds_declareAll`), and the second one changes nothing but that
(`RegisterDecl.holds_of_resolve`), so that a name leads to the same register from beginning to
end.
-/

namespace LinearScan

open Outcome

open RegisterBuilder (Holds capacity)

/-- The traits of a register as declared. -/
def RegisterDecl.traits (decl : RegisterDecl) : Traits :=
  ⟨decl.name, decl.size, decl.storage, decl.calleeSaved, decl.usable⟩

namespace RegisterDecl

variable {builder builder' : RegisterBuilder} {decls : List RegisterDecl} {decl : RegisterDecl}
  {shares : RegisterId → RegisterId → Prop} {target : String} {id : RegisterId}

theorem map_name_traits (decls : List RegisterDecl) :
    (decls.map traits).map (·.name) = decls.map (·.name) := by
  rw [List.map_map]
  rfl

/-! ## The first pass -/

/-- A register that the builder accepts is declared, and its flag is set. -/
theorem declare_of_none (accepted : builder.refusal? decl.name decl.size = none)
    (target : String) :
    decl.declare target builder = .ok ((builder.add decl.name decl.size decl.storage
      decl.calleeSaved).flag builder.nextId decl.usable) := by
  have declared : builder.nextId.index < (builder.add decl.name decl.size decl.storage
      decl.calleeSaved).registers.size := by
    simp [RegisterBuilder.add, RegisterBuilder.nextId]
  exact bind_eq_ok.mpr ⟨_, mapError_eq_ok.mpr (RegisterBuilder.declare_of_none accepted),
    mapError_eq_ok.mpr (RegisterBuilder.setUsable_eq declared _)⟩

/-- A register that the builder refuses is not declared, for the same reason. -/
theorem declare_of_some {error : RegisterError}
    (refused : builder.refusal? decl.name decl.size = some error) (target : String) :
    decl.declare target builder = .error (.declaration target error) := by
  have failed : builder.declare decl.name decl.size decl.storage decl.calleeSaved = .error error :=
    Request.answer_eq_error_iff.mpr ⟨_, RegisterBuilder.run_declareM_of_some refused⟩
  rw [declare, failed]
  rfl

/-- One more declaration. -/
theorem holds_declare (holds : builder.Holds (decls.map traits) shares)
    (done : decl.declare target builder = .ok builder') :
    builder'.Holds ((decls ++ [decl]).map traits) shares := by
  obtain ⟨⟨id, middle⟩, added, flagged⟩ := bind_eq_ok.mp done
  obtain ⟨accepted, rfl, rfl⟩ := RegisterBuilder.eq_add_of_declare (mapError_eq_ok.mp added)
  obtain ⟨-, rfl⟩ := RegisterBuilder.eq_flag_of_setUsable (mapError_eq_ok.mp flagged)
  have next : builder.nextId = ⟨(decls.map traits).length⟩ := congrArg RegisterId.mk holds.size
  have last := (holds.add accepted decl.storage decl.calleeSaved).flag
    (show builder.nextId.index < _ by simp [next]) decl.usable
  rw [next, RegisterBuilder.Holds.modify_length_append] at last
  rw [next, List.map_append]
  exact last

/-- **The first pass** declares all registers. -/
theorem holds_declareAll (rest : List RegisterDecl) :
    ∀ {builder : RegisterBuilder} (decls : List RegisterDecl),
      builder.Holds (decls.map traits) shares →
      rest.foldlM (fun builder register => register.declare target builder) builder
        = .ok builder' →
      builder'.Holds ((decls ++ rest).map traits) shares := by
  induction rest with
  | nil =>
    intro builder decls holds done
    obtain rfl := pure_eq_ok.mp done
    rw [List.append_nil]
    exact holds
  | cons decl rest ih =>
    intro builder decls holds done
    rw [List.foldlM_cons] at done
    obtain ⟨middle, first, others⟩ := bind_eq_ok.mp done
    rw [List.append_cons]
    exact ih (decls ++ [decl]) (holds_declare holds first) others

/-- Declarations with names of their own are all accepted. -/
theorem exists_declareAll (rest : List RegisterDecl) :
    ∀ {builder : RegisterBuilder} (decls : List RegisterDecl),
      builder.Holds (decls.map traits) shares →
      ((decls ++ rest).map (·.name)).Nodup → (∀ decl ∈ rest, decl.size ≠ 0) →
      (decls ++ rest).length ≤ capacity →
      ∃ builder', rest.foldlM (fun builder register => register.declare target builder) builder
        = .ok builder' := by
  induction rest with
  | nil => exact fun {builder} _ _ _ _ _ => ⟨builder, rfl⟩
  | cons decl rest ih =>
    intro builder decls holds distinct sized room
    obtain ⟨first, others⟩ := List.forall_mem_cons.mp sized
    have fresh : decl.name ∉ (decls.map traits).map (·.name) := by
      rw [map_name_traits]
      rw [List.map_append, List.map_cons] at distinct
      intro member
      exact (List.nodup_append.mp distinct).2.2 _ member _ List.mem_cons_self rfl
    have accepted := holds.refusal?_eq_none fresh first (by simp at room ⊢; omega)
    have done := declare_of_none accepted target
    rw [List.append_cons] at distinct room
    rw [List.foldlM_cons, done]
    exact ih (decls ++ [decl]) (holds_declare holds done) distinct others room

/-! ## The second pass -/

/-- The references of a declaration to others. -/
theorem link_cons (decl : RegisterDecl) (name : String) (names : List String) :
    ({ decl with overlaps := name :: names } : RegisterDecl).link target id builder =
      (match builder.lookup? name with
        | some other => (builder.aliasPair id other).mapError .fault
        | none => .error (.overlapsUnknown target decl.name name)) >>=
      ({ decl with overlaps := names } : RegisterDecl).link target id :=
  List.foldlM_cons

/-- A reference that is resolved leads to a register, which gets linked. -/
theorem eq_link_of_link_cons {name : String} {names : List String}
    (done : ({ decl with overlaps := name :: names } : RegisterDecl).link target id builder
      = .ok builder') :
    ∃ other, builder.lookup? name = some other ∧ id.index < builder.registers.size ∧
      other.index < builder.registers.size ∧
      ({ decl with overlaps := names } : RegisterDecl).link target id (builder.link id other)
        = .ok builder' := by
  rw [link_cons] at done
  obtain ⟨middle, first, others⟩ := bind_eq_ok.mp done
  cases found : builder.lookup? name with
  | none => simp [found] at first
  | some other =>
    simp only [found] at first
    obtain ⟨declared, otherDeclared, rfl⟩ :=
      RegisterBuilder.eq_link_of_aliasPair (mapError_eq_ok.mp first)
    exact ⟨other, rfl, declared, otherDeclared, others⟩

/-- A register whose name is among the given ones. -/
def NamedIn (decls : List RegisterDecl) (names : List String) (id : RegisterId) : Prop :=
  ∃ decl, decls[id.index]? = some decl ∧ decl.name ∈ names

/-- Names lead to the declarations that carry them. -/
theorem lookup?_iff (holds : builder.Holds (decls.map traits) shares) {name : String} :
    builder.lookup? name = some id ↔ ∃ decl, decls[id.index]? = some decl ∧ decl.name = name := by
  rw [holds.lookup?_iff, List.getElem?_map]
  constructor
  · rintro ⟨trait, found, rfl⟩
    obtain ⟨decl, isDecl, rfl⟩ := Option.map_eq_some_iff.mp found
    exact ⟨decl, isDecl, rfl⟩
  · rintro ⟨decl, isDecl, rfl⟩
    exact ⟨decl.traits, by rw [isDecl, Option.map_some], rfl⟩

/-- One more name in a list is one more register. -/
theorem namedIn_cons (holds : builder.Holds (decls.map traits) shares) {name : String}
    {names : List String} {other : RegisterId} (found : builder.lookup? name = some other) :
    NamedIn decls (name :: names) id ↔ id = other ∨ NamedIn decls names id := by
  have here : (∃ decl, decls[id.index]? = some decl ∧ decl.name = name) ↔ id = other := by
    rw [← lookup?_iff holds, found, Option.some_inj, eq_comm]
  rw [← here]
  unfold NamedIn
  simp only [List.mem_cons, and_or_left, exists_or]

/-- **One declaration** is linked to the registers that it lists, and lists no unknown name. -/
theorem holds_of_link (holds : builder.Holds (decls.map traits) shares)
    (done : decl.link target id builder = .ok builder') :
    builder'.Holds (decls.map traits) (fun a b => a = id ∧ NamedIn decls decl.overlaps b ∨
      b = id ∧ NamedIn decls decl.overlaps a ∨ shares a b) ∧
      ∀ name ∈ decl.overlaps, name ∈ decls.map (·.name) := by
  -- The pass goes over the names of the list, and the rest of the declaration stays.
  suffices general : ∀ (names : List String) (builder : RegisterBuilder)
      (shares : RegisterId → RegisterId → Prop), builder.Holds (decls.map traits) shares →
      ({ decl with overlaps := names } : RegisterDecl).link target id builder = .ok builder' →
      builder'.Holds (decls.map traits) (fun a b => a = id ∧ NamedIn decls names b ∨
        b = id ∧ NamedIn decls names a ∨ shares a b) ∧
        ∀ name ∈ names, name ∈ decls.map (·.name) from
    general decl.overlaps builder shares holds done
  intro names
  induction names with
  | nil =>
    intro builder shares holds done
    obtain rfl := pure_eq_ok.mp done
    exact ⟨holds.congr (by simp [NamedIn]), by simp⟩
  | cons name names ih =>
    intro builder shares holds done
    obtain ⟨other, found, declared, otherDeclared, others⟩ := eq_link_of_link_cons done
    rw [holds.size] at declared otherDeclared
    obtain ⟨last, known⟩ := ih _ _ (holds.link declared otherDeclared) others
    refine ⟨last.congr fun a b _ => ?_, List.forall_mem_cons.mpr ⟨?_, known⟩⟩
    · rw [namedIn_cons holds found, namedIn_cons holds found]
      grind
    · rw [← map_name_traits, ← holds.isSome_lookup?_iff, found]
      rfl

/-- A declaration that lists known names is linked. -/
theorem exists_link (holds : builder.Holds (decls.map traits) shares)
    (declared : id.index < decls.length)
    (known : ∀ name ∈ decl.overlaps, name ∈ decls.map (·.name)) (target : String) :
    ∃ builder', decl.link target id builder = .ok builder' := by
  suffices general : ∀ (names : List String) (builder : RegisterBuilder)
      (shares : RegisterId → RegisterId → Prop), builder.Holds (decls.map traits) shares →
      (∀ name ∈ names, name ∈ decls.map (·.name)) → ∃ builder',
        ({ decl with overlaps := names } : RegisterDecl).link target id builder = .ok builder' from
    general decl.overlaps builder shares holds known
  intro names
  induction names with
  | nil => exact fun builder _ _ _ => ⟨builder, rfl⟩
  | cons name names ih =>
    intro builder shares holds known
    obtain ⟨first, others⟩ := List.forall_mem_cons.mp known
    rw [← map_name_traits, ← holds.isSome_lookup?_iff] at first
    obtain ⟨other, found⟩ := Option.isSome_iff_exists.mp first
    have otherDeclared := holds.reachable.lookup?_lt name other found
    rw [← List.length_map traits] at declared
    obtain ⟨builder', linked⟩ :=
      ih _ _ (holds.link declared (holds.size ▸ otherDeclared)) others
    refine ⟨builder', ?_⟩
    rw [link_cons, found]
    refine bind_eq_ok.mpr ⟨_, mapError_eq_ok.mpr ?_, linked⟩
    exact RegisterBuilder.aliasPair_eq (holds.size.symm ▸ declared) otherDeclared

/-- The sizes that the register is to serve. -/
def served (decl : RegisterDecl) : List Nat :=
  decl.sizes.getD [decl.size]

/-- The entry that a declaration asks for, if its predicate is known. -/
def asked? (decl : RegisterDecl) (id : RegisterId) : Option Entry :=
  (decl.accepts.bind TypePredicate.ofName?).map fun accepts => ⟨id, decl.served, accepts⟩

/-- An entry is made as asked for, of a predicate that is known. -/
theorem eq_asked? {made? : Option Entry} (done : decl.entry? target id = .ok made?) :
    made? = decl.asked? id ∧
      ∀ name ∈ decl.accepts, (TypePredicate.ofName? name).isSome = true := by
  unfold RegisterDecl.entry? at done
  unfold asked?
  cases accepts : decl.accepts with
  | none =>
    rw [accepts] at done
    exact ⟨(Except.ok.inj done).symm, by simp⟩
  | some predicate =>
    simp only [accepts] at done
    split at done
    · cases done
    · next known =>
      rw [Option.bind_some, known]
      refine ⟨(Except.ok.inj done).symm, fun name isNamed => ?_⟩
      rw [← Option.some.inj isNamed, known]
      rfl

/-- The first of two registers lists the second. -/
def Lists (decls : List RegisterDecl) (a b : RegisterId) : Prop :=
  ∃ decl other, decls[a.index]? = some decl ∧ decls[b.index]? = some other ∧
    other.name ∈ decl.overlaps

/-- What the register at a place lists. -/
theorem lists_iff {index : Nat} (found : decls[index]? = some decl) {b : RegisterId} :
    Lists decls ⟨index⟩ b ↔ NamedIn decls decl.overlaps b := by
  constructor
  · rintro ⟨same, other, isSame, isOther, listed⟩
    obtain rfl := Option.some.inj (found.symm.trans isSame)
    exact ⟨other, isOther, listed⟩
  · rintro ⟨other, isOther, listed⟩
    exact ⟨decl, other, found, isOther, listed⟩

/-- A declaration is found under its own name. -/
theorem find_eq (holds : builder.Holds (decls.map traits) shares) {index : Nat}
    (found : decls[index]? = some decl) : decl.find builder = .ok ⟨index⟩ := by
  have known : builder.lookup? decl.name = some ⟨index⟩ :=
    (lookup?_iff holds).mpr ⟨decl, found, rfl⟩
  rw [find, known]

/-- **The second pass** links every register to those that it lists, and makes the entries that
are asked for, in order.  It meets no reference that leads nowhere. -/
theorem holds_of_resolve (rest : List RegisterDecl) :
    ∀ (done : List RegisterDecl) {builder : RegisterBuilder}
      {shares : RegisterId → RegisterId → Prop} {entries : List Entry}, done ++ rest = decls →
      builder.Holds (decls.map traits) shares →
      resolve target builder rest = .ok (builder', entries) →
      builder'.Holds (decls.map traits) (fun a b => done.length ≤ a.index ∧ Lists decls a b ∨
        done.length ≤ b.index ∧ Lists decls b a ∨ shares a b) ∧
        entries = (rest.zipIdx done.length).filterMap (fun (decl, index) => decl.asked? ⟨index⟩) ∧
        ∀ decl ∈ rest, (∀ name ∈ decl.overlaps, name ∈ decls.map (·.name)) ∧
          ∀ name ∈ decl.accepts, (TypePredicate.ofName? name).isSome = true := by
  induction rest with
  | nil =>
    intro done builder shares entries whole holds resolved
    obtain ⟨rfl, rfl⟩ := Prod.mk.inj (Except.ok.inj resolved)
    refine ⟨holds.congr fun a b _ => ?_, rfl, by simp⟩
    -- no declaration is left that could list anything
    have outside : ∀ {a b : RegisterId}, ¬ (done.length ≤ a.index ∧ Lists decls a b) := by
      rintro a b ⟨behind, decl, other, found, -⟩
      rw [← whole, List.append_nil, List.getElem?_eq_none behind] at found
      cases found
    rw [or_iff_right outside, or_iff_right outside]
  | cons decl rest ih =>
    intro done builder shares entries whole holds passed
    have found : decls[done.length]? = some decl := by simp [← whole]
    rw [resolve] at passed
    obtain ⟨id, finding, passed⟩ := bind_eq_ok.mp passed
    obtain rfl := Except.ok.inj ((find_eq holds found).symm.trans finding)
    obtain ⟨linked, linking, passed⟩ := bind_eq_ok.mp passed
    obtain ⟨made?, making, passed⟩ := bind_eq_ok.mp passed
    obtain ⟨⟨last, others⟩, resolved, passed⟩ := bind_eq_ok.mp passed
    obtain ⟨rfl, rfl⟩ := Prod.mk.inj (pure_eq_ok.mp passed)
    obtain ⟨first, known⟩ := holds_of_link holds linking
    obtain ⟨rfl, builtin⟩ := eq_asked? making
    obtain ⟨lastHolds, rfl, restKnown⟩ :=
      ih (done ++ [decl]) (by rw [← List.append_cons, whole]) first resolved
    rw [List.length_append, List.length_singleton] at lastHolds ⊢
    refine ⟨lastHolds.congr fun a b _ => ?_, ?_,
      List.forall_mem_cons.mpr ⟨⟨known, builtin⟩, restKnown⟩⟩
    · have listed : ∀ a b : RegisterId, done.length ≤ a.index ∧ Lists decls a b ↔
          a = ⟨done.length⟩ ∧ NamedIn decls decl.overlaps b ∨
            done.length + 1 ≤ a.index ∧ Lists decls a b := by
        rintro ⟨index⟩ b
        rcases Nat.lt_trichotomy index done.length with before | rfl | behind
        · simp [Nat.not_le.mpr before, Nat.ne_of_lt before,
            Nat.not_le.mpr (Nat.lt_succ_of_lt before)]
        · simp [lists_iff found]
        · simp [Nat.le_of_lt behind, Nat.ne_of_gt behind, Nat.succ_le_of_lt behind]
      rw [listed, listed]
      exact iff_of_eq (by ac_rfl)
    · rw [List.zipIdx_cons, List.filterMap_cons]
      cases asked : decl.asked? ⟨done.length⟩ with
      | none => simp [asked]
      | some entry => simp [asked]

/-- References to known names and predicates are resolved. -/
theorem exists_resolve (rest : List RegisterDecl) :
    ∀ (done : List RegisterDecl) {builder : RegisterBuilder}
      {shares : RegisterId → RegisterId → Prop}, done ++ rest = decls →
      builder.Holds (decls.map traits) shares →
      (∀ decl ∈ rest, ∀ name ∈ decl.overlaps, name ∈ decls.map (·.name)) →
      (∀ decl ∈ rest, ∀ name ∈ decl.accepts, (TypePredicate.ofName? name).isSome = true) →
      ∃ result, resolve target builder rest = .ok result := by
  induction rest with
  | nil => exact fun _ {builder _} _ _ _ _ => ⟨(builder, []), rfl⟩
  | cons decl rest ih =>
    intro done builder shares whole holds known builtin
    obtain ⟨firstKnown, restKnown⟩ := List.forall_mem_cons.mp known
    obtain ⟨firstBuiltin, restBuiltin⟩ := List.forall_mem_cons.mp builtin
    have found : decls[done.length]? = some decl := by simp [← whole]
    obtain ⟨linked, linking⟩ : ∃ linked, decl.link target ⟨done.length⟩ builder = .ok linked :=
      exists_link holds (List.getElem?_eq_some_iff.mp found).1 firstKnown target
    obtain ⟨made?, making⟩ : ∃ made?, decl.entry? target ⟨done.length⟩ = .ok made? := by
      unfold RegisterDecl.entry?
      cases accepts : decl.accepts with
      | none => exact ⟨none, rfl⟩
      | some predicate =>
        obtain ⟨found, isBuiltin⟩ := Option.isSome_iff_exists.mp (firstBuiltin predicate accepts)
        simp only [isBuiltin]
        exact ⟨_, rfl⟩
    obtain ⟨⟨last, entries⟩, resolved⟩ : ∃ result, resolve target linked rest = .ok result :=
      ih (done ++ [decl]) (by rw [← List.append_cons, whole]) (holds_of_link holds linking).1
        restKnown restBuiltin
    exact ⟨(last, made?.toList ++ entries), bind_eq_ok.mpr ⟨_, find_eq holds found,
      bind_eq_ok.mpr ⟨linked, linking, bind_eq_ok.mpr ⟨made?, making, bind_eq_ok.mpr
        ⟨(last, entries), resolved, rfl⟩⟩⟩⟩⟩

/-- **The register of a declaration**: it has its place and all that is declared of it.  Whether it
may be handed out depends on the others too. -/
structure Becomes (decl : RegisterDecl) (index : Nat) (register : Register) : Prop where
  id : register.id = ⟨index⟩
  name : register.name = decl.name
  size : register.size = decl.size
  storage : register.storage = decl.storage
  calleeSaved : register.calleeSaved = decl.calleeSaved

end RegisterDecl

/-! ## The target -/

/-- An entry passes its check if its register is in the file and can serve all its sizes, of
which there is one. -/
theorem Entry.check_eq_ok {name : String} {registers : RegisterFile} {entry : Entry}
    {register : Register} (found : registers.get? entry.register = some register)
    (some : entry.sizes ≠ []) (fits : ∀ size ∈ entry.sizes, 0 < size ∧ size ≤ register.size) :
    Entry.check name registers entry = .ok () := by
  have noneBad : entry.sizes.find? (fun size => !Entry.serves register.size size) = none := by
    refine List.find?_eq_none.mpr fun size isServed => ?_
    simp [Entry.serves, fits size isServed]
  rw [Entry.check, found]
  simp only [List.isEmpty_iff, some, noneBad]
  rfl

namespace TargetDecl

/-- **Declarations that hang together**: there are no more than ids, names are distinct, and
what is referred to exists. -/
structure Sound (decl : TargetDecl) : Prop where
  count : decl.registers.length ≤ RegisterBuilder.capacity
  distinct : (decl.registers.map (·.name)).Nodup
  sized : ∀ register ∈ decl.registers, register.size ≠ 0
  overlaps : ∀ register ∈ decl.registers, ∀ name ∈ register.overlaps,
    name ∈ decl.registers.map (·.name)
  accepts : ∀ register ∈ decl.registers, ∀ name ∈ register.accepts,
    (TypePredicate.ofName? name).isSome = true
  serves : ∀ register ∈ decl.registers, register.accepts ≠ none →
    register.served ≠ [] ∧ ∀ size ∈ register.served, 0 < size ∧ size ≤ register.size

/-- The first of two registers lists the second. -/
def Lists (decl : TargetDecl) (a b : RegisterId) : Prop :=
  RegisterDecl.Lists decl.registers a b

/-- **The target that a declaration describes.** -/
structure Describes (decl : TargetDecl) (target : Target) : Prop where
  size : target.registers.size = decl.registers.length
  /-- One of two registers that share storage lists the other. -/
  intersects : ∀ a b, target.registers.intersects a b = true ↔
    a = b ∨ decl.Lists a b ∨ decl.Lists b a
  /-- A register that shares storage with an unusable one is not handed out. -/
  usable : ∀ id, target.registers.isUsable id = true ↔
    id.index < decl.registers.length ∧ ∀ (other : RegisterId) (register : RegisterDecl),
      decl.registers[other.index]? = some register → register.usable = false →
        target.registers.intersects id other = false
  entries : target.entries =
    decl.registers.zipIdx.filterMap fun (register, index) => register.asked? ⟨index⟩

/-- A builder that holds the registers of a declaration, linked where one lists the other. -/
def Holds (decl : TargetDecl) (builder : RegisterBuilder) : Prop :=
  builder.Holds (decl.registers.map RegisterDecl.traits) fun a b => decl.Lists a b ∨ decl.Lists b a

/-- The entries that a declaration asks for. -/
def asked (decl : TargetDecl) : List Entry :=
  decl.registers.zipIdx.filterMap fun (register, index) => register.asked? ⟨index⟩

variable {decl : TargetDecl} {target : Target}

/-- **The passes that make a target** lead to a builder that holds what is declared, and to the
entries that are asked for; every reference is found on the way. -/
theorem holds_of_passes {first second : RegisterBuilder} {entries : List Entry}
    (declaring : decl.registers.foldlM
      (fun builder register => register.declare decl.name builder) .empty = .ok first)
    (resolving : RegisterDecl.resolve decl.name first decl.registers = .ok (second, entries)) :
    decl.Holds second ∧ entries = decl.asked ∧ ∀ register ∈ decl.registers,
      (∀ name ∈ register.overlaps, name ∈ decl.registers.map (·.name)) ∧
        ∀ name ∈ register.accepts, (TypePredicate.ofName? name).isSome = true := by
  have declared : first.Holds (decl.registers.map RegisterDecl.traits) fun _ _ => False :=
    RegisterDecl.holds_declareAll decl.registers [] .empty declaring
  obtain ⟨holds, asked, known⟩ :=
    RegisterDecl.holds_of_resolve decl.registers [] rfl declared resolving
  exact ⟨holds.congr fun a b _ => by simp [Lists], asked, known⟩

/-- The register of a declaration. -/
theorem Holds.exists_register {builder : RegisterBuilder} (holds : decl.Holds builder) {index : Nat}
    {register : RegisterDecl} (found : decl.registers[index]? = some register) :
    ∃ made, builder.registers[index]? = some made ∧ made.traits = register.traits := by
  refine RegisterBuilder.Holds.exists_register holds ?_
  rw [List.getElem?_map, found, Option.map_some]

/-- Declarations become registers one for one. -/
theorem Holds.exists_becomes {builder : RegisterBuilder} (holds : decl.Holds builder) {index : Nat}
    {register : RegisterDecl} (found : decl.registers[index]? = some register) :
    ∃ made, (RegisterFile.ofBuilder builder).get? ⟨index⟩ = some made ∧
      register.Becomes index made := by
  obtain ⟨linked, atIndex, same⟩ := holds.exists_register found
  have kept : ∃ made, (RegisterFile.ofBuilder builder).get? ⟨index⟩ = some made ∧
      made.name = linked.name ∧ made.size = linked.size ∧ made.storage = linked.storage ∧
      made.calleeSaved = linked.calleeSaved := by
    refine ⟨_, (RegisterFile.getElem?_reserve _ _ index).trans (by rw [atIndex]; rfl), ?_⟩
    split <;> exact ⟨rfl, rfl, rfl, rfl⟩
  obtain ⟨made, isMade, name, size, storage, calleeSaved⟩ := kept
  refine ⟨made, isMade, ?_, ?_, ?_, ?_, ?_⟩
  · exact (RegisterFile.Reachable.build holds.reachable).orderly.id_eq index made isMade
  · exact name.trans (congrArg Traits.name same)
  · exact size.trans (congrArg Traits.size same)
  · exact storage.trans (congrArg Traits.storage same)
  · exact calleeSaved.trans (congrArg Traits.calleeSaved same)

/-- **A target is as its declaration describes it**, if its builder holds what is declared. -/
theorem Holds.describes {builder : RegisterBuilder} (holds : decl.Holds builder) :
    decl.Describes ⟨decl.name, .ofBuilder builder, decl.asked⟩ := by
  have size : (RegisterFile.ofBuilder builder).size = decl.registers.length := by
    rw [RegisterFile.size, RegisterFile.ofBuilder, RegisterFile.size_reserve,
      RegisterBuilder.Holds.size holds, List.length_map]
  refine ⟨size, ?_, ?_, rfl⟩
  · intro a b
    rw [RegisterFile.intersects_iff, RegisterFile.ofBuilder, RegisterFile.linked_reserve]
    by_cases same : a = b
    · simp [same]
    · rw [RegisterBuilder.Holds.linked_iff holds a b same]
  · intro id
    rw [RegisterFile.isUsable_ofBuilder holds.reachable, size]
    refine and_congr_right fun _ => ⟨?_, ?_⟩
    · intro clear other register found unusable
      obtain ⟨made, atOther, same⟩ := holds.exists_register found
      exact clear other ⟨made, atOther, (congrArg Traits.usable same).trans unusable⟩
    · rintro clear other ⟨made, atOther, flagged⟩
      have declared := RegisterBuilder.Holds.getElem?_traits holds atOther
      rw [List.getElem?_map] at declared
      obtain ⟨register, found, same⟩ := Option.map_eq_some_iff.mp declared
      exact clear other register found ((congrArg Traits.usable same).trans flagged)

/-- **A target is as its declaration describes it.** -/
theorem describes_of_toTarget (done : decl.toTarget = .ok target) : decl.Describes target := by
  obtain ⟨first, declaring, done⟩ := bind_eq_ok.mp done
  obtain ⟨⟨second, entries⟩, resolving, made⟩ := bind_eq_ok.mp done
  obtain ⟨holds, rfl, -⟩ := holds_of_passes declaring resolving
  obtain ⟨rfl, -⟩ := Target.eq_of_make made
  exact holds.describes

/-- **Declarations that hang together pass both passes.** -/
theorem exists_passes (sound : decl.Sound) :
    ∃ builder, decl.Holds builder ∧
      decl.toTarget = Target.make decl.name (.ofBuilder builder) decl.asked := by
  obtain ⟨first, declaring⟩ : ∃ first, decl.registers.foldlM
      (fun builder register => register.declare decl.name builder) RegisterBuilder.empty
        = .ok first :=
    RegisterDecl.exists_declareAll decl.registers [] .empty sound.distinct sound.sized
      sound.count
  have declared : first.Holds (decl.registers.map RegisterDecl.traits) fun _ _ => False :=
    RegisterDecl.holds_declareAll decl.registers [] .empty declaring
  obtain ⟨⟨second, entries⟩, resolving⟩ :
      ∃ result, RegisterDecl.resolve decl.name first decl.registers = .ok result :=
    RegisterDecl.exists_resolve decl.registers [] rfl declared sound.overlaps sound.accepts
  obtain ⟨holds, rfl, -⟩ := holds_of_passes declaring resolving
  refine ⟨second, holds, ?_⟩
  rw [toTarget, declaring]
  show RegisterDecl.resolve decl.name first decl.registers >>= _ = _
  rw [resolving]
  rfl

/-- **Declarations that hang together make a target.** -/
theorem exists_toTarget (sound : decl.Sound) : ∃ target, decl.toTarget = .ok target := by
  obtain ⟨builder, holds, made⟩ := exists_passes sound
  rw [made]
  refine ⟨_, bind_eq_ok.mpr ⟨(), forM_of_forall ?_, rfl⟩⟩
  intro entry isEntry
  obtain ⟨⟨register, index⟩, member, asked⟩ := List.mem_filterMap.mp isEntry
  obtain ⟨accepts, isAccepted, rfl⟩ := Option.map_eq_some_iff.mp asked
  have found : decl.registers[index]? = some register := by
    simpa using List.mem_zipIdx_iff_getElem?.mp member
  have served := sound.serves register (List.mem_of_getElem? found) (by
    intro nothing
    rw [nothing] at isAccepted
    cases isAccepted)
  obtain ⟨made, isMade, becomes⟩ := holds.exists_becomes found
  refine Entry.check_eq_ok isMade served.1 ?_
  rw [becomes.size]
  exact served.2

end TargetDecl

end LinearScan
