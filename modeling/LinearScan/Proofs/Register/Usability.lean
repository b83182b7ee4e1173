import LinearScan.Proofs.Register.Calls
import Mathlib.Data.List.Induction

/-!
# Which registers calls leave usable

Registers are withdrawn in two ways: a call on the builder says that they must not be handed out,
or a call on the file disables them.  `RegisterFile.Withdrawn` reads off the calls which registers
these are, and looks neither at the flags of the file nor at the order of calls that disable.

`RegisterFile.WithdrawsDirectly` says what follows for all other registers.  Storage is shared
directly or not at all, so that withdrawing goes one step far and no further.  That calls commute
and can be repeated is not proved by exchanging them: all calls that disable are one reservation of
a set of ids (`RegisterFile.exists_withoutAll`), and a reservation depends on the set alone
(`RegisterFile.reserve_congr`).
-/

namespace LinearScan

open Outcome

open Register (Linked)

/-! ## Flags and calls -/

namespace RegisterBuilder

variable {builder builder' : RegisterBuilder} {id other : RegisterId} {calls : List Call}

/-- Calls leave a register flagged as not to be handed out: the last one that speaks about that
says so. -/
def Call.Flag (calls : List Call) (id : RegisterId) : Prop :=
  ∃ earlier later, calls = earlier ++ .setUsable id false :: later ∧
    ∀ usable, .setUsable id usable ∉ later

theorem Call.not_flag_nil : ¬ Call.Flag [] id := by
  rintro ⟨earlier, later, split, -⟩
  cases earlier <;> cases split

/-- One more call decides, or leaves it to those before. -/
theorem Call.flag_concat {call : Call} :
    Call.Flag (calls ++ [call]) id ↔
      call = .setUsable id false ∨ Call.Flag calls id ∧ ∀ usable, call ≠ .setUsable id usable := by
  constructor
  · rintro ⟨earlier, later, split, last⟩
    rcases List.eq_nil_or_concat later with rfl | ⟨later, final, rfl⟩
    · obtain ⟨-, same⟩ := List.append_inj' split rfl
      exact Or.inl (List.cons.inj same).1
    · rw [List.concat_eq_append] at split last
      rw [← List.cons_append, ← List.append_assoc] at split
      obtain ⟨rfl, same⟩ := List.append_inj' split rfl
      obtain rfl := (List.cons.inj same).1
      refine Or.inr ⟨⟨earlier, later, rfl, fun usable member => ?_⟩, ?_⟩
      · exact last usable (List.mem_append_left _ member)
      · rintro usable rfl
        exact last usable (List.mem_append_right _ (List.mem_singleton_self _))
  · rintro (rfl | ⟨⟨earlier, later, rfl, last⟩, silent⟩)
    · exact ⟨calls, [], rfl, fun _ => List.not_mem_nil⟩
    · refine ⟨earlier, later ++ [call], by simp, fun usable member => ?_⟩
      rcases List.mem_append.mp member with before | final
      · exact last usable before
      · exact silent usable (List.mem_singleton.mp final).symm

/-- An update that leaves the flag of a register alone leaves all flags alone. -/
theorem flagged_update {change : Register → Register}
    (keeps : ∀ register, (change register).usable = register.usable) :
    (builder.update other change).Flagged id ↔ builder.Flagged id := by
  unfold Flagged update
  rw [Array.getElem?_modify]
  split
  · cases builder.registers[id.index]? <;> simp [keeps]
  · rfl

theorem flagged_link {a b : RegisterId} : (builder.link a b).Flagged id ↔ builder.Flagged id := by
  have flagged_addOverlap : ∀ (builder : RegisterBuilder) (a b : RegisterId),
      (builder.addOverlap a b).Flagged id ↔ builder.Flagged id := by
    intro builder a b
    refine flagged_update ?_
    exact fun _ => rfl
  rw [link, flagged_addOverlap, flagged_addOverlap]

theorem flagged_add {name : String} {size : Nat} {storage : StorageClass} {calleeSaved : Bool} :
    (builder.add name size storage calleeSaved).Flagged id ↔ builder.Flagged id := by
  unfold Flagged add
  rw [Array.getElem?_push]
  split
  · next isNew => simp [isNew]
  · rfl

/-- The flag of a declared register is what it is set to. -/
theorem flagged_flag {usable : Bool} (declared : other.index < builder.registers.size) :
    (builder.flag other usable).Flagged id ↔
      other = id ∧ usable = false ∨ builder.Flagged id ∧ other ≠ id := by
  unfold Flagged flag update
  rw [Array.getElem?_modify]
  by_cases same : other = id
  · subst same
    simp [declared]
  · have apart : other.index ≠ id.index := fun equal => same (congrArg RegisterId.mk equal)
    simp [same, apart]

/-- **What a call does to the flags**: it sets one, or none. -/
theorem flagged_on {call : Call} (done : call.on builder = .ok builder') :
    builder'.Flagged id ↔
      call = .setUsable id false ∨ builder.Flagged id ∧ ∀ usable, call ≠ .setUsable id usable := by
  cases call with
  | declare name size storage calleeSaved =>
    rcases on_declare_cases done with ⟨new, declared⟩ | ⟨-, rfl⟩
    · obtain ⟨-, -, rfl⟩ := eq_add_of_declare declared
      simp [flagged_add]
    · simp
  | aliasPair a b =>
    obtain ⟨-, -, rfl⟩ := eq_link_of_aliasPair done
    simp [flagged_link]
  | aliasGroup ids =>
    have same : builder'.Flagged id ↔ builder.Flagged id := by
      refine aliasGroup_induction (motive := fun builder' =>
        builder'.Flagged id ↔ builder.Flagged id) ?_ ids Iff.rfl done
      intro middle middle' a b same linked
      obtain ⟨-, -, rfl⟩ := eq_link_of_aliasPair linked
      rw [flagged_link, same]
    simp [same]
  | setUsable other usable =>
    obtain ⟨declared, rfl⟩ := eq_flag_of_setUsable done
    rw [flagged_flag declared, Call.setUsable.injEq]
    simp [and_comm]

/-- **What calls do to the flags.** -/
theorem flagged_afterAll (calls : List Call) : ∀ {builder : RegisterBuilder},
    empty.afterAll calls = .ok builder → (builder.Flagged id ↔ Call.Flag calls id) := by
  induction calls using List.reverseRecOn with
  | nil =>
    intro builder done
    obtain rfl := pure_eq_ok.mp done
    refine iff_of_false ?_ Call.not_flag_nil
    rintro ⟨register, found, -⟩
    simp [empty] at found
  | append_singleton calls call ih =>
    intro builder done
    rw [afterAll, List.foldlM_append] at done
    obtain ⟨middle, before, last⟩ := bind_eq_ok.mp done
    rw [List.foldlM_cons] at last
    obtain ⟨after, made, nothing⟩ := bind_eq_ok.mp last
    obtain rfl := pure_eq_ok.mp nothing
    rw [flagged_on made, ih before, Call.flag_concat]

end RegisterBuilder

/-! ## Calls that disable -/

namespace RegisterFile

variable {file : RegisterFile} {reserved : RegisterId → Prop} {id : RegisterId} {name : String}
  {names : List String}

/-- A reservation depends on the set of ids alone. -/
theorem reserve_congr {ids ids' : List RegisterId} (same : ∀ id, id ∈ ids ↔ id ∈ ids')
    (registers : Array Register) : reserve registers ids = reserve registers ids' := by
  apply Array.ext_getElem?
  intro index
  rw [getElem?_reserve, getElem?_reserve]
  simp only [same]

/-- Two reservations are one. -/
theorem reserve_append (registers : Array Register) (ids ids' : List RegisterId) :
    reserve registers (ids ++ ids') = reserve (reserve registers ids) ids' :=
  List.foldl_append

/-- A call to disable succeeds exactly if the name is known. -/
theorem exists_disable_iff : (∃ file', file.disable name = .ok file') ↔
    ∃ id, file.lookup? name = some id := by
  cases found : file.lookup? name with
  | none => simp [disable_of_none found]
  | some id => simp [disable_of_some found]

/-- A call to disable reserves what shares storage with the register that it names, if any. -/
theorem exists_without (file : RegisterFile) (name : String) :
    ∃ ids, file.without name = ⟨reserve file.registers ids, file.byName⟩ ∧
      ∀ other, other ∈ ids ↔
        ∃ id, file.lookup? name = some id ∧ Linked file.registers id other := by
  unfold without
  cases done : file.disable name with
  | error error =>
    have unknown : ¬ ∃ id, file.lookup? name = some id := by
      rw [← exists_disable_iff, done]
      exact nofun
    refine ⟨[], leaves_disableM_of_error done, fun other => iff_of_false List.not_mem_nil ?_⟩
    rintro ⟨id, found, -⟩
    exact unknown ⟨id, found⟩
  | ok file' =>
    obtain ⟨id, found⟩ := exists_disable_iff.mp ⟨file', done⟩
    obtain ⟨ids, rfl, overlaps⟩ := exists_reserve_of_disable found done
    refine ⟨ids, leaves_disableM_of_ok done, fun other => ?_⟩
    rw [overlaps, found]
    simp

/-- **All calls to disable are one reservation**, of what shares storage with a register that some
call names. -/
theorem exists_withoutAll (names : List String) : ∀ file : RegisterFile,
    ∃ ids, file.withoutAll names = ⟨reserve file.registers ids, file.byName⟩ ∧
      ∀ other, other ∈ ids ↔ ∃ name ∈ names, ∃ id, file.lookup? name = some id ∧
        Linked file.registers id other := by
  induction names with
  | nil => exact fun file => ⟨[], rfl, by simp⟩
  | cons name rest ih =>
    intro file
    obtain ⟨first, isFirst, inFirst⟩ := exists_without file name
    obtain ⟨others, areOthers, inOthers⟩ := ih (file.without name)
    refine ⟨first ++ others, ?_, fun other => ?_⟩
    · rw [reserve_append]
      refine areOthers.trans ?_
      rw [isFirst]
    · have sameName : ∀ name', (file.without name).lookup? name' = file.lookup? name' := by
        intro name'
        rw [isFirst]
        rfl
      have sameLinks : ∀ id, Linked (file.without name).registers id other ↔
          Linked file.registers id other := by
        intro id
        rw [isFirst]
        exact linked_reserve first
      rw [List.mem_append, inFirst, inOthers, List.exists_mem_cons_iff]
      simp only [sameName, sameLinks]

/-- Disabling registers withdraws what shares storage with one of them, and nothing else. -/
theorem Reachable.isUsable_withoutAll (reachable : file.Reachable) :
    (file.withoutAll names).isUsable id = true ↔ file.isUsable id = true ∧
      ∀ name ∈ names, ∀ other, file.lookup? name = some other →
        file.intersects id other = false := by
  obtain ⟨ids, isReserved, inIds⟩ := exists_withoutAll names file
  rw [isReserved, isUsable_reserve, inIds]
  refine and_congr_right fun _ => ⟨?_, ?_⟩
  · intro clear name isNamed other found
    by_contra shares
    exact clear ⟨name, isNamed, other, found, (reachable.linked_iff_intersects
      (reachable.lookup?_lt found)).mpr (Bool.of_not_eq_false shares)⟩
  · rintro clear ⟨name, isNamed, other, found, linked⟩
    have shares := (reachable.linked_iff_intersects (reachable.lookup?_lt found)).mp linked
    rw [clear name isNamed other found] at shares
    cases shares

/-- What further calls leave usable was usable before them. -/
theorem Reachable.isUsable_of_append (reachable : file.Reachable) {more : List String}
    (usable : (file.withoutAll (names ++ more)).isUsable id = true) :
    (file.withoutAll names).isUsable id = true := by
  have appended : file.withoutAll (names ++ more) = (file.withoutAll names).withoutAll more :=
    List.foldl_append
  rw [appended, (reachable.withoutAll names).1.isUsable_withoutAll] at usable
  exact usable.1

/-- Which names are given matters, and nothing else about them. -/
theorem withoutAll_congr {names' : List String} (same : ∀ name, name ∈ names ↔ name ∈ names')
    (file : RegisterFile) : file.withoutAll names = file.withoutAll names' := by
  obtain ⟨ids, isReserved, inIds⟩ := exists_withoutAll names file
  obtain ⟨ids', isReserved', inIds'⟩ := exists_withoutAll names' file
  have sameIds : ∀ id, id ∈ ids ↔ id ∈ ids' := by
    intro id
    rw [inIds, inIds']
    simp only [same]
  rw [isReserved, isReserved', reserve_congr sameIds]

theorem lookup?_withoutAll (file : RegisterFile) (names : List String) (name : String) :
    (file.withoutAll names).lookup? name = file.lookup? name := by
  obtain ⟨ids, isReserved, -⟩ := exists_withoutAll names file
  rw [isReserved]
  rfl

theorem intersects_withoutAll (file : RegisterFile) (names : List String) (a b : RegisterId) :
    (file.withoutAll names).intersects a b = file.intersects a b := by
  obtain ⟨ids, isReserved, -⟩ := exists_withoutAll names file
  rw [isReserved, intersects_reserve]

/-- **The registers that calls withdraw**: those that the builder is left with as flagged, and those
that are named in a call to disable that succeeds. -/
def Withdrawn (calls : List RegisterBuilder.Call) (file : RegisterFile) (names : List String)
    (id : RegisterId) : Prop :=
  RegisterBuilder.Call.Flag calls id ∨ ∃ name ∈ names, file.lookup? name = some id

/-- **Withdrawing goes one step far**, from a file that was frozen after some calls through any
number of calls that disable. -/
structure WithdrawsDirectly (calls : List RegisterBuilder.Call) (file : RegisterFile) : Prop where
  /-- Whether a call to disable succeeds does not depend on earlier ones. -/
  disables : ∀ names name, (∃ disabled, (file.withoutAll names).disable name = .ok disabled) ↔
    ∃ id, file.lookup? name = some id
  shared : ∀ names a b, (file.withoutAll names).intersects a b = file.intersects a b
  usable_iff : ∀ names id, (file.withoutAll names).isUsable id = true ↔
    id.index < file.size ∧ ∀ other, Withdrawn calls file names other →
      file.intersects id other = false
  /-- Order and repetition of the calls change nothing in the file. -/
  unordered : ∀ names names', (∀ name, name ∈ names ↔ name ∈ names') →
    file.withoutAll names = file.withoutAll names'
  permanent : ∀ names more id, (file.withoutAll names).isUsable id = false →
    (file.withoutAll (names ++ more)).isUsable id = false
  /-- Sharing storage with what shares storage with a withdrawn register does no harm. -/
  spared : ∀ names id near other, id.index < file.size → Withdrawn calls file names other →
    file.intersects near other = true → file.intersects id near = true →
    (∀ other, Withdrawn calls file names other → file.intersects id other = false) →
    (file.withoutAll names).isUsable near = false ∧ (file.withoutAll names).isUsable id = true

/-- A register is usable exactly if it shares storage with none that is withdrawn. -/
theorem isUsable_withoutAll_iff {builder : RegisterBuilder} (built : builder.Reachable)
    {calls : List RegisterBuilder.Call}
    (flags : ∀ id, builder.Flagged id ↔ RegisterBuilder.Call.Flag calls id) :
    ((ofBuilder builder).withoutAll names).isUsable id = true ↔
      id.index < (ofBuilder builder).size ∧
        ∀ other, Withdrawn calls (ofBuilder builder) names other →
          (ofBuilder builder).intersects id other = false := by
  rw [(Reachable.build built).isUsable_withoutAll, isUsable_ofBuilder built, and_assoc]
  refine and_congr_right fun _ => ⟨?_, ?_⟩
  · rintro ⟨unflagged, unnamed⟩ other (flagged | ⟨name, isNamed, found⟩)
    · exact unflagged other ((flags other).mpr flagged)
    · exact unnamed name isNamed other found
  · intro clear
    exact ⟨fun other flagged => clear other (Or.inl ((flags other).mp flagged)),
      fun name isNamed other found => clear other (Or.inr ⟨name, isNamed, found⟩)⟩

/-- **Which registers stay usable.**  Calls on a builder that name only declared ids meet no fault.
From the file that is frozen then, disabling withdraws registers in one step. -/
theorem withdrawsDirectly_of_calls {calls : List RegisterBuilder.Call}
    (onDeclared : RegisterBuilder.OnDeclared [] calls) :
    ∃ builder, RegisterBuilder.empty.afterAll calls = .ok builder ∧
      WithdrawsDirectly calls (ofBuilder builder) := by
  obtain ⟨builder, done, built, -⟩ :=
    RegisterBuilder.Reachable.empty.exists_afterAll calls onDeclared
  have usable_iff : ∀ names id, ((ofBuilder builder).withoutAll names).isUsable id = true ↔
      id.index < (ofBuilder builder).size ∧
        ∀ other, Withdrawn calls (ofBuilder builder) names other →
          (ofBuilder builder).intersects id other = false :=
    fun names id => isUsable_withoutAll_iff built fun _ =>
      RegisterBuilder.flagged_afterAll calls done
  refine ⟨builder, done, ?disables, ?shared, usable_iff, ?unordered, ?permanent, ?spared⟩
  case disables =>
    intro names name
    rw [exists_disable_iff, lookup?_withoutAll]
  case shared =>
    exact intersects_withoutAll (ofBuilder builder)
  case unordered =>
    exact fun names names' same => withoutAll_congr same (ofBuilder builder)
  case permanent =>
    intro names more id
    rw [← Bool.not_eq_true, ← Bool.not_eq_true]
    exact mt (Reachable.build built).isUsable_of_append
  case spared =>
    intro names id near other inFile withdrawn nearShares _ clear
    refine ⟨?_, (usable_iff names id).mpr ⟨inFile, clear⟩⟩
    rw [← Bool.not_eq_true, usable_iff names near]
    rintro ⟨-, nearClear⟩
    rw [nearClear other withdrawn] at nearShares
    cases nearShares

/-- A chain of three registers, with two more that are flagged, one of them for a time. -/
def chainCalls : List RegisterBuilder.Call :=
  [.declare "a" 8 .integer false, .declare "b" 8 .integer false, .declare "c" 8 .integer false,
    .aliasPair ⟨0⟩ ⟨1⟩, .aliasPair ⟨2⟩ ⟨1⟩, .declare "d" 8 .integer false, .setUsable ⟨3⟩ false,
    .declare "e" 8 .integer false, .setUsable ⟨4⟩ false, .setUsable ⟨3⟩ true]

/-- What the calls of the chain build. -/
def chained : RegisterBuilder :=
  RegisterBuilder.empty |>.add "a" 8 .integer false |>.add "b" 8 .integer false
    |>.add "c" 8 .integer false |>.link ⟨0⟩ ⟨1⟩ |>.link ⟨2⟩ ⟨1⟩ |>.add "d" 8 .integer false
    |>.flag ⟨3⟩ false |>.add "e" 8 .integer false |>.flag ⟨4⟩ false |>.flag ⟨3⟩ true

theorem withdrawsDirectly_of_calls_chain :
    RegisterBuilder.OnDeclared [] chainCalls ∧
      RegisterBuilder.empty.afterAll chainCalls = .ok chained ∧
      WithdrawsDirectly chainCalls (ofBuilder chained) ∧
      [0, 1, 2, 3, 4].map (fun index =>
          ((ofBuilder chained).withoutAll ["c", "nope", "c"]).isUsable ⟨index⟩)
        = [true, false, false, true, false] := by
  have onDeclared : RegisterBuilder.OnDeclared [] chainCalls := by
    simp [chainCalls, RegisterBuilder.OnDeclared, RegisterBuilder.Call.ids,
      RegisterBuilder.Call.extend, RegisterBuilder.capacity]
  have built : RegisterBuilder.empty.afterAll chainCalls = .ok chained := by
    simp [chainCalls, chained, RegisterBuilder.afterAll, RegisterBuilder.Call.on,
      RegisterBuilder.leaves_declareM, RegisterBuilder.refusal?, RegisterBuilder.capacity,
      RegisterBuilder.empty, RegisterBuilder.add, RegisterBuilder.aliasPair,
      RegisterBuilder.setUsable, RegisterBuilder.require, RegisterBuilder.link,
      RegisterBuilder.flag, RegisterBuilder.addOverlap, RegisterBuilder.update,
      RegisterBuilder.nextId, bind, Except.bind, pure, Except.pure]
  obtain ⟨builder, done, direct⟩ := withdrawsDirectly_of_calls onDeclared
  obtain rfl := Except.ok.inj (built.symm.trans done)
  have known : (ofBuilder chained).lookup? "c" = some ⟨2⟩ := by
    simp [chained, ofBuilder, lookup?, RegisterBuilder.add, RegisterBuilder.link,
      RegisterBuilder.flag, RegisterBuilder.addOverlap, RegisterBuilder.update,
      RegisterBuilder.nextId, RegisterBuilder.empty, Std.HashMap.getElem_insert]
  have unknown : (ofBuilder chained).lookup? "nope" = none := by
    simp [chained, ofBuilder, lookup?, RegisterBuilder.add, RegisterBuilder.link,
      RegisterBuilder.flag, RegisterBuilder.addOverlap, RegisterBuilder.update,
      RegisterBuilder.empty]
  have skipped : (ofBuilder chained).without "nope" = ofBuilder chained := by
    exact leaves_disableM_of_error (disable_of_none unknown)
  refine ⟨onDeclared, built, direct, ?_⟩
  rw [direct.unordered _ ["nope", "c"] (by simp), withoutAll, List.foldl_cons, skipped,
    List.foldl_cons, List.foldl_nil, without, leaves_disableM_of_ok (disable_of_some known)]
  rfl

end RegisterFile

end LinearScan
