import LinearScan.Proofs.Target.Declared
import LinearScan.Target.File

/-!
# Which declarations make a target

`TargetDecl.Sound` was stated as what is enough for a target to come out.  It is also what it takes:
each of its conditions is checked somewhere on the way, and this module goes over the checks.  The
first pass refuses a size of zero, a name that is taken and a register too many
(`TargetDecl.Holds.admitted`), the second one a reference that leads nowhere, and at the end each
entry is held against its register, which has the size that was declared (`RegisterDecl.Becomes`).

The other way round, `TargetDecl.Complaint` says what is wrong with declarations that make no
target, and `TargetDecl.complaint_of_toTarget` that an error gives the right reason.

`TargetDecl.Itemizes` completes `TargetDecl.Describes`: one register and at most one entry for each
declaration, in the order of the declarations.
-/

namespace LinearScan

open Outcome

/-! ## From declarations to registers and entries -/

namespace RegisterDecl

/-- What a declaration that is to be allocated says of its entry. -/
def entryOf? (decl : RegisterDecl) (index : Nat) : Option (RegisterId × List Nat × String) :=
  decl.accepts.map fun predicate => (⟨index⟩, decl.served, predicate)

end RegisterDecl

/-- What an entry says, its predicate by name. -/
def Entry.summary (entry : Entry) : RegisterId × List Nat × String :=
  (entry.register, entry.sizes, entry.accepts.name)

/-- The predicate found by a name is a built-in one of that name. -/
theorem TypePredicate.of_ofName? {name : String} {predicate : TypePredicate}
    (found : TypePredicate.ofName? name = some predicate) :
    predicate ∈ TypePredicate.builtin ∧ predicate.name = name := by
  rw [TypePredicate.ofName?] at found
  have sameName := List.find?_some found
  exact ⟨List.mem_of_find?_eq_some found, beq_iff_eq.mp sameName⟩

/-- An entry is asked for where a predicate is named, if the name is known. -/
theorem RegisterDecl.map_summary_asked? {decl : RegisterDecl}
    (known : ∀ name ∈ decl.accepts, (TypePredicate.ofName? name).isSome = true) (index : Nat) :
    (decl.asked? ⟨index⟩).map Entry.summary = decl.entryOf? index := by
  unfold RegisterDecl.asked? RegisterDecl.entryOf?
  cases accepts : decl.accepts with
  | none => rfl
  | some name =>
    obtain ⟨predicate, found⟩ := Option.isSome_iff_exists.mp (known name accepts)
    rw [Option.bind_some, found, ← (TypePredicate.of_ofName? found).2]
    rfl

namespace TargetDecl

variable {decl : TargetDecl} {target : Target}

/-- **A target, item by item.**  Declarations become registers one for one, and those that name a
predicate become entries, in order. -/
structure Itemizes (decl : TargetDecl) (target : Target) : Prop where
  name : target.name = decl.name
  registers : ∀ index register, decl.registers[index]? = some register →
    ∃ made, target.registers.get? ⟨index⟩ = some made ∧ register.Becomes index made
  /-- A name leads to the declaration that carries it. -/
  lookup? : ∀ name id, target.registers.lookup? name = some id ↔
    ∃ register, decl.registers[id.index]? = some register ∧ register.name = name
  entries : target.entries.map Entry.summary =
    decl.registers.zipIdx.filterMap fun (register, index) => register.entryOf? index
  builtin : ∀ entry ∈ target.entries, entry.accepts ∈ TypePredicate.builtin

/-- What is behind a target that is made. -/
theorem exists_holds (done : decl.toTarget = .ok target) :
    ∃ builder, decl.Holds builder ∧ target = ⟨decl.name, .ofBuilder builder, decl.asked⟩ ∧
      ∀ register ∈ decl.registers,
        (∀ name ∈ register.overlaps, name ∈ decl.registers.map (·.name)) ∧
          ∀ name ∈ register.accepts, (TypePredicate.ofName? name).isSome = true := by
  obtain ⟨first, declaring, done⟩ := bind_eq_ok.mp done
  obtain ⟨⟨second, entries⟩, resolving, made⟩ := bind_eq_ok.mp done
  obtain ⟨holds, rfl, known⟩ := holds_of_passes declaring resolving
  exact ⟨second, holds, (Target.eq_of_make made).1, known⟩

/-- **The first pass** lets through neither a size of zero nor a name twice, and stops where ids
run out. -/
theorem Holds.admitted {builder : RegisterBuilder} (holds : decl.Holds builder) :
    decl.registers.length ≤ RegisterBuilder.capacity ∧ (decl.registers.map (·.name)).Nodup ∧
      ∀ register ∈ decl.registers, register.size ≠ 0 := by
  refine ⟨?_, ?_, ?_⟩
  · have room := holds.reachable.size_le
    rwa [RegisterBuilder.Holds.size holds, List.length_map] at room
  · rw [← RegisterDecl.map_name_traits]
    exact RegisterBuilder.Holds.nodup_names holds
  · intro register isRegister
    obtain ⟨index, found⟩ := List.mem_iff_getElem?.mp isRegister
    obtain ⟨made, isMade, same⟩ := holds.exists_register found
    have sameSize : made.size = register.size := congrArg Traits.size same
    rw [← sameSize]
    exact Nat.ne_of_gt (holds.reachable.sized index made isMade)

/-- **What makes a target hangs together.** -/
theorem sound_of_toTarget (done : decl.toTarget = .ok target) : decl.Sound := by
  have reachable := toTarget_reachable done
  obtain ⟨builder, holds, rfl, known⟩ := exists_holds done
  obtain ⟨count, distinct, sized⟩ := holds.admitted
  refine ⟨count, distinct, sized, fun register isRegister => (known register isRegister).1,
    fun register isRegister => (known register isRegister).2, ?_⟩
  intro register isRegister allocated
  obtain ⟨index, found⟩ := List.mem_iff_getElem?.mp isRegister
  obtain ⟨made, isMade, becomes⟩ := holds.exists_becomes found
  -- its entry is among those that were checked
  obtain ⟨name, isNamed⟩ := Option.ne_none_iff_exists'.mp allocated
  obtain ⟨predicate, isBuiltin⟩ :=
    Option.isSome_iff_exists.mp ((known register isRegister).2 name isNamed)
  have isEntry : ⟨⟨index⟩, register.served, predicate⟩ ∈ decl.asked := by
    refine List.mem_filterMap.mpr ⟨(register, index), ?_, ?_⟩
    · exact List.mem_zipIdx_iff_getElem?.mpr found
    · show register.asked? ⟨index⟩ = _
      rw [RegisterDecl.asked?, isNamed, Option.bind_some, isBuiltin]
      rfl
  have checked := reachable.checked _ isEntry
  refine ⟨Entry.sizes_ne_nil_of_check checked, ?_⟩
  intro size isServed
  obtain ⟨made', isMade', fits⟩ := Entry.size_le_of_check checked isServed
  obtain rfl := Option.some.inj (isMade.symm.trans isMade')
  rw [← becomes.size]
  exact fits

/-- **A target has its registers and entries from the declarations**, item by item. -/
theorem itemizes_of_toTarget (done : decl.toTarget = .ok target) : decl.Itemizes target := by
  obtain ⟨builder, holds, rfl, known⟩ := exists_holds done
  refine ⟨rfl, fun index register found => holds.exists_becomes found, ?_, ?_, ?_⟩
  · intro name id
    exact RegisterDecl.lookup?_iff holds
  · show decl.asked.map Entry.summary = _
    rw [asked, List.map_filterMap]
    refine List.filterMap_congr ?_
    rintro ⟨register, index⟩ member
    have isRegister : register ∈ decl.registers :=
      List.mem_of_getElem? (List.mem_zipIdx_iff_getElem?.mp member)
    exact RegisterDecl.map_summary_asked? (known register isRegister).2 index
  · intro entry isEntry
    obtain ⟨⟨register, index⟩, -, asked⟩ := List.mem_filterMap.mp isEntry
    obtain ⟨predicate, isPredicate, rfl⟩ := Option.map_eq_some_iff.mp asked
    obtain ⟨name, -, found⟩ := Option.bind_eq_some_iff.mp isPredicate
    exact (TypePredicate.of_ofName? found).1

/-! ## What is wrong with the others -/

/-- **What an error says of declarations.**  It names the register, and what is wrong with it is
wrong. -/
inductive Complaint (decl : TargetDecl) : TargetError → Prop
  | zeroSize {register : RegisterDecl} :
      register ∈ decl.registers → register.size = 0 →
      Complaint decl (.declaration decl.name (.zeroSize register.name))
  | declaredTwice {earlier later : List RegisterDecl} {register : RegisterDecl} :
      decl.registers = earlier ++ register :: later → register.name ∈ earlier.map (·.name) →
      Complaint decl (.declaration decl.name (.declaredTwice register.name))
  | tooMany :
      RegisterBuilder.capacity < decl.registers.length →
      Complaint decl (.declaration decl.name .tooMany)
  | overlapsUnknown {register : RegisterDecl} {name : String} :
      register ∈ decl.registers → name ∈ register.overlaps →
      name ∉ decl.registers.map (·.name) →
      Complaint decl (.overlapsUnknown decl.name register.name name)
  | acceptsUnknown {register : RegisterDecl} {name : String} :
      register ∈ decl.registers → register.accepts = some name →
      TypePredicate.ofName? name = none →
      Complaint decl (.acceptsUnknown decl.name register.name name)
  | noSize {register : RegisterDecl} :
      register ∈ decl.registers → register.accepts ≠ none → register.served = [] →
      Complaint decl (.noSize decl.name register.name)
  | badSize {register : RegisterDecl} {size : Nat} :
      register ∈ decl.registers → register.accepts ≠ none → size ∈ register.served →
      ¬ (0 < size ∧ size ≤ register.size) →
      Complaint decl (.badSize decl.name register.name register.size size)

/-- A builder refuses the next register for a reason. -/
theorem complaint_of_refusal {done rest : List RegisterDecl} {register : RegisterDecl}
    {builder : RegisterBuilder} {shares : RegisterId → RegisterId → Prop}
    (whole : done ++ register :: rest = decl.registers)
    (holds : builder.Holds (done.map RegisterDecl.traits) shares) {error : RegisterError}
    (refused : builder.refusal? register.name register.size = some error) :
    decl.Complaint (.declaration decl.name error) := by
  unfold RegisterBuilder.refusal? at refused
  split at refused
  · next zero =>
    obtain rfl := Option.some.inj refused
    exact .zeroSize (by simp [← whole]) zero
  · split at refused
    · next taken =>
      obtain rfl := Option.some.inj refused
      refine .declaredTwice whole.symm ?_
      rw [Std.HashMap.contains_eq_isSome_getElem?] at taken
      rw [← RegisterDecl.map_name_traits]
      exact holds.isSome_lookup?_iff.mp taken
    · split at refused
      · next full =>
        obtain rfl := Option.some.inj refused
        refine .tooMany ?_
        rw [holds.size, List.length_map] at full
        rw [← whole, List.length_append, List.length_cons]
        omega
      · cases refused

/-- **The first pass** complains about the register that it is at. -/
theorem complaint_of_declareAll {error : TargetError} (rest : List RegisterDecl) :
    ∀ (done : List RegisterDecl) {builder : RegisterBuilder}
      {shares : RegisterId → RegisterId → Prop}, done ++ rest = decl.registers →
      builder.Holds (done.map RegisterDecl.traits) shares →
      rest.foldlM (fun builder register => register.declare decl.name builder) builder
        = .error error →
      decl.Complaint error := by
  induction rest with
  | nil => exact fun _ _ _ _ _ failed => by cases failed
  | cons register rest ih =>
    intro done builder shares whole holds failed
    rw [List.foldlM_cons] at failed
    rcases bind_eq_error.mp failed with first | ⟨middle, declared, others⟩
    · cases reason : builder.refusal? register.name register.size with
      | none =>
        rw [RegisterDecl.declare_of_none reason] at first
        cases first
      | some refusal =>
        rw [RegisterDecl.declare_of_some reason] at first
        obtain rfl := Except.error.inj first
        exact complaint_of_refusal whole holds reason
    · exact ih (done ++ [register]) (by rw [← List.append_cons, whole])
        (RegisterDecl.holds_declare holds declared) others

/-- **The second pass** complains about a reference that leads nowhere. -/
theorem complaint_of_link {error : TargetError} {register : RegisterDecl} {index : Nat}
    (found : decl.registers[index]? = some register) {builder : RegisterBuilder}
    {shares : RegisterId → RegisterId → Prop}
    (holds : builder.Holds (decl.registers.map RegisterDecl.traits) shares)
    (failed : register.link decl.name ⟨index⟩ builder = .error error) : decl.Complaint error := by
  suffices general : ∀ (names : List String) (builder : RegisterBuilder)
      (shares : RegisterId → RegisterId → Prop), (∀ name ∈ names, name ∈ register.overlaps) →
      builder.Holds (decl.registers.map RegisterDecl.traits) shares →
      ({ register with overlaps := names } : RegisterDecl).link decl.name ⟨index⟩ builder
        = .error error →
      decl.Complaint error from
    general register.overlaps builder shares (fun _ member => member) holds failed
  intro names
  induction names with
  | nil => exact fun _ _ _ _ failed => by cases failed
  | cons name names ih =>
    intro builder shares listed holds failed
    obtain ⟨first, others⟩ := List.forall_mem_cons.mp listed
    rw [RegisterDecl.link_cons] at failed
    cases known : builder.lookup? name with
    | none =>
      rw [known] at failed
      obtain rfl := Except.error.inj failed
      refine .overlapsUnknown (List.mem_of_getElem? found) first ?_
      rw [← RegisterDecl.map_name_traits, ← holds.isSome_lookup?_iff, known]
      exact Bool.false_ne_true
    | some other =>
      have declared : index < (decl.registers.map RegisterDecl.traits).length := by
        rw [List.length_map]
        exact (List.getElem?_eq_some_iff.mp found).1
      have otherDeclared := holds.reachable.lookup?_lt name other known
      simp only [known, RegisterBuilder.aliasPair_eq (a := ⟨index⟩) (holds.size.symm ▸ declared)
        otherDeclared] at failed
      exact ih _ _ others (holds.link declared (holds.size ▸ otherDeclared)) failed

/-- **The second pass** complains about a reference or a predicate that is unknown. -/
theorem complaint_of_resolve {error : TargetError} (rest : List RegisterDecl) :
    ∀ (done : List RegisterDecl) {builder : RegisterBuilder}
      {shares : RegisterId → RegisterId → Prop}, done ++ rest = decl.registers →
      builder.Holds (decl.registers.map RegisterDecl.traits) shares →
      RegisterDecl.resolve decl.name builder rest = .error error → decl.Complaint error := by
  induction rest with
  | nil => exact fun _ _ _ _ _ failed => by cases failed
  | cons register rest ih =>
    intro done builder shares whole holds failed
    have found : decl.registers[done.length]? = some register := by simp [← whole]
    have finding := RegisterDecl.find_eq holds found
    rw [RegisterDecl.resolve] at failed
    rcases bind_eq_error.mp failed with lost | ⟨id, isFound, failed⟩
    · rw [finding] at lost
      cases lost
    obtain rfl := Except.ok.inj (finding.symm.trans isFound)
    rcases bind_eq_error.mp failed with linking | ⟨linked, linking, failed⟩
    · exact complaint_of_link found holds linking
    · rcases bind_eq_error.mp failed with making | ⟨made?, -, failed⟩
      · unfold RegisterDecl.entry? at making
        split at making
        · cases making
        · next name isNamed =>
          split at making
          · next unknown =>
            obtain rfl := Except.error.inj making
            exact .acceptsUnknown (List.mem_of_getElem? found) isNamed unknown
          · cases making
      · rcases bind_eq_error.mp failed with others | ⟨_, -, finished⟩
        · exact ih (done ++ [register]) (by rw [← List.append_cons, whole])
            (RegisterDecl.holds_of_link holds linking).1 others
        · cases finished

/-- **The check of an entry** complains about the register that asked for it. -/
theorem Holds.complaint_of_check {builder : RegisterBuilder} (holds : decl.Holds builder)
    {entry : Entry} (isEntry : entry ∈ decl.asked) {error : TargetError}
    (failed : Entry.check decl.name (.ofBuilder builder) entry = .error error) :
    decl.Complaint error := by
  obtain ⟨⟨register, index⟩, row, asked⟩ := List.mem_filterMap.mp isEntry
  obtain ⟨accepts, isAccepted, rfl⟩ := Option.map_eq_some_iff.mp asked
  have found : decl.registers[index]? = some register := by
    simpa using List.mem_zipIdx_iff_getElem?.mp row
  have member := List.mem_of_getElem? found
  have allocated : register.accepts ≠ none := by
    intro nothing
    rw [nothing] at isAccepted
    cases isAccepted
  obtain ⟨made, isMade, becomes⟩ := holds.exists_becomes found
  rw [Entry.check, isMade] at failed
  simp only [becomes.name, becomes.size] at failed
  split at failed
  · next nothing =>
    obtain rfl := Except.error.inj failed
    exact .noSize member allocated (List.isEmpty_iff.mp nothing)
  · split at failed
    · next size bad =>
      obtain rfl := Except.error.inj failed
      refine .badSize member allocated (List.mem_of_find?_eq_some bad) ?_
      have refused := List.find?_some bad
      simp only [Entry.serves, Bool.not_eq_true', Bool.and_eq_false_iff,
        decide_eq_false_iff_not] at refused
      exact not_and_or.mpr refused
    · cases failed

/-- **An error says what is wrong**, so that a target is refused for the reason that is given.  In
particular nothing vanishes and no contract is broken on the way. -/
theorem complaint_of_toTarget {error : TargetError} (failed : decl.toTarget = .error error) :
    decl.Complaint error := by
  rcases bind_eq_error.mp failed with declaring | ⟨first, declaring, failed⟩
  · exact complaint_of_declareAll decl.registers [] rfl .empty declaring
  · have declared : first.Holds (decl.registers.map RegisterDecl.traits) fun _ _ => False :=
      RegisterDecl.holds_declareAll decl.registers [] .empty declaring
    rcases bind_eq_error.mp failed with resolving | ⟨⟨second, entries⟩, resolving, failed⟩
    · exact complaint_of_resolve decl.registers [] rfl declared resolving
    · obtain ⟨holds, rfl, -⟩ := holds_of_passes declaring resolving
      rcases bind_eq_error.mp failed with checking | ⟨_, -, finished⟩
      · obtain ⟨entry, isEntry, failed⟩ := exists_of_forM_eq_error checking
        exact holds.complaint_of_check isEntry failed
      · cases finished

/-! ## Exactly the sound ones -/

/-- **The target of a text is that of its declaration.** -/
theorem ofText_eq {source : String} (read : TargetDecl.ofText source = .ok decl) :
    Target.ofText source = decl.toTarget.mapError .target := by
  cases made : decl.toTarget with
  | error error => simp [Target.ofText, read, made, Except.mapError]
  | ok target => simp [Target.ofText, read, made, Except.mapError]

/-- **Declarations make a target exactly if they hang together**, and then it is the one that they
describe, item by item.  A text adds nothing to the declarations that are read from it. -/
theorem toTarget_exactly_sound (decl : TargetDecl) :
    ((∃ target, decl.toTarget = .ok target) ↔ decl.Sound) ∧
      (∀ target, decl.toTarget = .ok target → decl.Describes target ∧ decl.Itemizes target) ∧
      ∀ source, TargetDecl.ofText source = .ok decl →
        Target.ofText source = decl.toTarget.mapError .target := by
  refine ⟨⟨?_, exists_toTarget⟩, ?_, fun _ => ofText_eq⟩
  · rintro ⟨target, done⟩
    exact sound_of_toTarget done
  · intro target done
    exact ⟨describes_of_toTarget done, itemizes_of_toTarget done⟩

/-- A wide register that lists its low half, which comes later, twice, and itself once; and one that
is not allocated, so that its sizes are of no account, next to one that is not usable. -/
def entwined : TargetDecl where
  name := "entwined"
  registers :=
    [⟨"w", 8, .integer, some "integer", none, ["l", "w", "l"], true, true⟩,
      ⟨"l", 4, .integer, some "any", some [4, 2], [], false, true⟩,
      ⟨"s", 8, .integer, none, some [], ["t"], false, true⟩,
      ⟨"t", 8, .integer, some "integer", none, [], false, false⟩]

/-- The declarations make a target, in which overlaps hold both ways and the last register takes the
one before it out of allocation.  Without it, a reference leads nowhere and no target is made. -/
theorem toTarget_exactly_sound_entwined :
    entwined.Sound ∧ ∃ target, entwined.toTarget = .ok target ∧
      target.registers.intersects ⟨1⟩ ⟨0⟩ = true ∧ target.registers.intersects ⟨0⟩ ⟨2⟩ = false ∧
      target.registers.isUsable ⟨0⟩ = true ∧ target.registers.isUsable ⟨2⟩ = false ∧
      target.entries.map Entry.summary =
        [(⟨0⟩, [8], "integer"), (⟨1⟩, [4, 2], "any"), (⟨3⟩, [8], "integer")] ∧
      ¬ ∃ target, { entwined with registers := entwined.registers.take 3 }.toTarget
        = .ok target := by
  have sound : entwined.Sound := by
    refine ⟨?_, by decide, by decide, by decide, by decide, by decide⟩
    simp [entwined, RegisterBuilder.capacity]
  obtain ⟨exactly, made, -⟩ := toTarget_exactly_sound entwined
  obtain ⟨target, done⟩ := exactly.mpr sound
  obtain ⟨described, itemized⟩ := made target done
  have onlyLast : ∀ (index : Nat) register, entwined.registers[index]? = some register →
      register.usable = false → index = 3 := by
    rintro (_ | _ | _ | _ | index) register found unusable
    all_goals simp [entwined] at found
    all_goals simp [← found] at unusable ⊢
  have apart : ∀ index, index = 2 ∨ index = 3 →
      target.registers.intersects ⟨0⟩ ⟨index⟩ = false := by
    rintro index (rfl | rfl)
    all_goals
      rw [Bool.eq_false_iff, ne_eq, described.intersects]
      simp [Lists, RegisterDecl.Lists, entwined]
  refine ⟨sound, target, done, ?_, apart 2 (Or.inl rfl), ?_, ?_, itemized.entries, ?_⟩
  · exact (described.intersects _ _).mpr (Or.inr (Or.inr ⟨_, _, rfl, rfl, by decide⟩))
  · refine (described.usable _).mpr ⟨by decide, ?_⟩
    rintro ⟨index⟩ register found unusable
    obtain rfl := onlyLast index register found unusable
    exact apart 3 (Or.inr rfl)
  · rw [Bool.eq_false_iff, ne_eq, described.usable]
    rintro ⟨-, clear⟩
    have clearOfLast := clear ⟨3⟩ _ rfl rfl
    rw [Bool.eq_false_iff, ne_eq, described.intersects] at clearOfLast
    exact clearOfLast (Or.inr (Or.inl ⟨_, _, rfl, rfl, by decide⟩))
  · rw [(toTarget_exactly_sound _).1]
    intro cut
    exact absurd (cut.overlaps _ (List.mem_of_getElem? (i := 2) rfl) "t" (by decide)) (by decide)

end TargetDecl

end LinearScan
