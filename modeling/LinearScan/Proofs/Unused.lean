import LinearScan.Proofs.Bank.Origin
import LinearScan.Proofs.CalleeSaved
import LinearScan.Proofs.Register.Usability

/-!
# Unused storage

A register that is disabled takes all that shares storage with it out of every bank.  A run that
never touched any of this is not changed by it (`Allocator.allocation_of_disabled`), although it
now searches shorter banks: what it chose is still there, and it is still the first choice.

There are two parts.  `Catalog.Narrows` says how little disabling changes in a catalog, and it is
load-bearing that a bank stays in its place even when nothing is left in it, since holders remember
the place of their bank.  The other part is that a final assignment shows all that a run ever
touched: the register of a holder is in use at the end, whoever has it by then.
-/

namespace LinearScan

open Outcome

/-! ## Banks that lack registers -/

/-- A bank of which only some registers are left. -/
def Bank.only (keep : RegisterId → Bool) (bank : Bank) : Bank :=
  { bank with registers := bank.registers.filter keep }

/-- A size class of whose banks only some registers are left. -/
def SizeClass.only (keep : RegisterId → Bool) (sizeClass : SizeClass) : SizeClass :=
  { sizeClass with banks := sizeClass.banks.map (Bank.only keep) }

namespace SizeClass

variable {keep : RegisterId → Bool} {size : Nat} {predicate : TypePredicate}
  {register? : Option RegisterId} {registers registers' : RegisterFile}

/-- A register that is left out need not be added. -/
theorem only_elim (bank : Bank) :
    (register?.elim bank bank.push).only keep =
      (register?.filter keep).elim (bank.only keep) (bank.only keep).push := by
  cases register? with
  | none => rfl
  | some register =>
    rw [Option.elim_some, Option.filter_some]
    by_cases kept : keep register = true
    · rw [if_pos kept, Option.elim_some]
      by_cases member : register ∈ bank.registers
      · simp [Bank.push, Bank.contains, Bank.only, kept, member]
      · simp [Bank.push, Bank.contains, Bank.only, kept, member]
    · rw [if_neg kept, Option.elim_none]
      by_cases member : register ∈ bank.registers
      · simp [Bank.push, Bank.contains, Bank.only, member]
      · simp [Bank.push, Bank.contains, Bank.only, kept, member]

theorem map_only_addToBanks (banks : List Bank) :
    (addToBanks size predicate register? banks).map (Bank.only keep) =
      addToBanks size predicate (register?.filter keep) (banks.map (Bank.only keep)) := by
  induction banks with
  | nil => exact congrArg (fun bank => [bank]) (only_elim (Bank.empty size predicate))
  | cons bank rest ih =>
    rw [List.map_cons, addToBanks, addToBanks]
    by_cases same : bank.predicate.name = predicate.name
    · rw [if_pos same, if_pos (show (bank.only keep).predicate.name = predicate.name from same),
        List.map_cons, only_elim]
    · rw [if_neg same, if_neg (show (bank.only keep).predicate.name ≠ predicate.name from same),
        List.map_cons, ih]

theorem map_only_add (classes : List SizeClass) :
    (add size predicate register? classes).map (only keep) =
      add size predicate (register?.filter keep) (classes.map (only keep)) := by
  induction classes with
  | nil => simp [add, only, map_only_addToBanks]
  | cons sizeClass rest ih =>
    rw [List.map_cons, add, add]
    show _ = if size < sizeClass.size then _ else if size = sizeClass.size then _ else _
    split
    · simp [only, map_only_addToBanks]
    · split
      · simp [only, map_only_addToBanks]
      · rw [List.map_cons, ih]

theorem map_only_addEntry {entry : Entry}
    (usable : registers'.isUsable entry.register =
      (registers.isUsable entry.register && keep entry.register)) (classes : List SizeClass) :
    (addEntry registers classes entry).map (only keep) =
      addEntry registers' (classes.map (only keep)) entry := by
  have offered : offered? registers' entry = (offered? registers entry).filter keep := by
    unfold offered?
    rw [usable]
    cases registers.isUsable entry.register with
    | false => rfl
    | true => rw [Bool.true_and, if_pos rfl, Option.filter_some]
  suffices general : ∀ (sizes : List Nat) (classes : List SizeClass),
      (sizes.foldl (fun classes size =>
        add size entry.accepts (offered? registers entry) classes) classes).map (only keep) =
      sizes.foldl (fun classes size =>
        add size entry.accepts (offered? registers' entry) classes) (classes.map (only keep)) from
    general entry.sizes classes
  intro sizes
  induction sizes with
  | nil => exact fun classes => rfl
  | cons size rest ih =>
    intro classes
    rw [List.foldl_cons, List.foldl_cons, ih, map_only_add, offered]

/-- **Entries go to the same banks**, whichever registers are left out of them. -/
theorem map_only_foldl
    (usable : ∀ id, registers'.isUsable id = (registers.isUsable id && keep id))
    (entries : List Entry) :
    ∀ classes : List SizeClass, (entries.foldl (addEntry registers) classes).map (only keep) =
      entries.foldl (addEntry registers') (classes.map (only keep)) := by
  induction entries with
  | nil => exact fun classes => rfl
  | cons entry rest ih =>
    intro classes
    rw [List.foldl_cons, List.foldl_cons, ih, map_only_addEntry (usable entry.register)]

end SizeClass

/-! ## Catalogs that lack registers -/

/-- **A catalog that lacks registers of another one**, and is like it in everything else. -/
structure Catalog.Narrows (keep : RegisterId → Bool) (catalog catalog' : Catalog) : Prop where
  classes : catalog'.classes = catalog.classes.map (SizeClass.only keep)
  intersects : ∀ a b, catalog'.registers.intersects a b = catalog.registers.intersects a b
  calleeSaved : ∀ id, (catalog'.registers.get? id).any (·.calleeSaved) =
    (catalog.registers.get? id).any (·.calleeSaved)

namespace Catalog

variable {catalog catalog' : Catalog} {keep : RegisterId → Bool}

/-- **What disabling a register does to a catalog.** -/
theorem narrows_of_disable {target target' : Target} {name : String} {id : RegisterId}
    (reachable : target.Reachable) (found : target.registers.lookup? name = some id)
    (done : Catalog.build target = .ok catalog) (disabled : target.disable name = .ok target')
    (done' : Catalog.build target' = .ok catalog') :
    Narrows (fun register => !target.registers.intersects register id) catalog catalog' := by
  obtain ⟨file, without, rfl⟩ := Target.eq_of_disable disabled
  obtain ⟨ids, rfl, overlaps⟩ := RegisterFile.exists_reserve_of_disable found without
  obtain rfl := eq_of_build done
  obtain rfl := eq_of_build done'
  have inFile := reachable.registers.lookup?_lt found
  refine ⟨(SizeClass.map_only_foldl ?_ target.entries []).symm, ?_, ?_⟩
  · intro register
    rw [Bool.eq_iff_iff, RegisterFile.isUsable_reserve, overlaps,
      reachable.registers.linked_iff_intersects inFile]
    simp
  · intro a b
    exact RegisterFile.intersects_reserve target.registers
  · intro register
    show ((RegisterFile.reserve target.registers.registers ids)[register.index]?).any _ = _
    rw [RegisterFile.getElem?_reserve, Option.any_map]
    show _ = (target.registers.registers[register.index]?).any _
    congr 1
    funext one
    show (if _ then _ else _ : Register).calleeSaved = one.calleeSaved
    split <;> rfl

namespace Narrows

/-- A bank is found where it was. -/
theorem bank?_eq (narrows : Narrows keep catalog catalog') (place : BankRef) :
    catalog'.bank? place = (catalog.bank? place).map (Bank.only keep) := by
  unfold bank?
  rw [narrows.classes, List.getElem?_map]
  cases catalog.classes[place.sizeIndex]? with
  | none => rfl
  | some sizeClass => exact List.getElem?_map

/-- The candidates are those that are left, in their order. -/
theorem candidates_eq (narrows : Narrows keep catalog catalog') (interval : Interval) :
    PlainScan.candidates catalog' interval =
      (PlainScan.candidates catalog interval).filter fun candidate => keep candidate.1 := by
  have places : catalog'.bankPlaces =
      catalog.bankPlaces.map fun listed => (listed.1, listed.2.only keep) := by
    unfold bankPlaces
    rw [narrows.classes, List.zipIdx_map, List.flatMap_map, List.map_flatMap]
    refine List.flatMap_congr fun numbered _ => ?_
    show ((numbered.1.banks.map (Bank.only keep)).zipIdx).map _ = _
    rw [List.zipIdx_map, List.map_map, List.map_map]
    rfl
  unfold PlainScan.candidates
  rw [places, List.filter_map, List.flatMap_map, List.filter_flatMap]
  refine List.flatMap_congr fun listed _ => ?_
  show (listed.2.registers.filter keep).map _ = List.filter _ (listed.2.registers.map _)
  rw [List.filter_map]
  rfl

end Narrows

end Catalog

/-! ## Runs -/

namespace PlainScan

variable {catalog catalog' : Catalog} {keep : RegisterId → Bool} {options : Options}
  {held : List Held} {interval : Interval} {scan scan' : PlainScan} {seq stackBase : Nat}

/-- What was picked is picked again, if it is left. -/
theorem pick?_of_narrows (narrows : catalog.Narrows keep catalog')
    (kept : ∀ choice ∈ pick? catalog held interval, keep choice.1 = true) :
    pick? catalog' held interval = pick? catalog held interval := by
  have clear : (fun candidate : RegisterId × BankRef =>
        isClear catalog'.registers held candidate.1) =
      fun candidate => isClear catalog.registers held candidate.1 := by
    funext candidate
    simp only [isClear, narrows.intersects]
  have searched : pick? catalog' held interval = (candidates catalog interval).find?
      fun candidate => keep candidate.1 ∧ isClear catalog.registers held candidate.1 := by
    rw [pick?, clear, narrows.candidates_eq, List.find?_filter]
  rw [searched]
  cases picked : pick? catalog held interval with
  | none =>
    refine List.find?_eq_none.mpr fun candidate member => ?_
    simp [Bool.eq_false_iff.mpr (List.find?_eq_none.mp picked candidate member)]
  | some choice =>
    obtain ⟨isClear, before, after, split, blocked⟩ := List.find?_eq_some_iff_append.mp picked
    refine List.find?_eq_some_iff_append.mpr ⟨?_, before, after, split, ?_⟩
    · rw [kept choice picked, isClear]
      rfl
    · intro candidate earlier
      have notClear := blocked candidate earlier
      simp_all

/-- The same holder has to yield. -/
theorem victim?_of_narrows (narrows : catalog.Narrows keep catalog') :
    victim? catalog' options held interval = victim? catalog options held interval := by
  have admits (holder : Held) :
      (catalog'.bank? holder.bank).any (·.admits interval.type interval.size) =
        (catalog.bank? holder.bank).any (·.admits interval.type interval.size) := by
    rw [narrows.bank?_eq, Option.any_map]
    rfl
  simp only [victim?, admits]

/-- **One step** is the same if whoever holds a register afterwards has one that is left. -/
theorem place_of_narrows (narrows : catalog.Narrows keep catalog')
    (placed : scan.place catalog options seq interval = .ok scan')
    (kept : ∀ holder ∈ scan'.held, keep holder.register = true) :
    scan.place catalog' options seq interval = .ok scan' := by
  rw [← placed]
  unfold place at placed ⊢
  split
  · rfl
  · next allowed =>
    have same : pick? catalog' (scan.expire interval.start).held interval =
        pick? catalog (scan.expire interval.start).held interval := by
      refine pick?_of_narrows narrows fun (register, bank) picked => ?_
      rw [if_neg allowed] at placed
      simp only [Option.mem_def.mp picked] at placed
      obtain rfl := Except.ok.inj placed
      exact kept ⟨interval, seq, register, bank⟩ List.mem_cons_self
    dsimp only
    rw [same, victim?_of_narrows narrows]

/-- One more step at the end of a run. -/
theorem placeAll_concat {done : List Interval} {before : PlainScan}
    (reached : before.placeAll catalog options 0 done = .ok scan)
    (placed : scan.place catalog options done.length interval = .ok scan') :
    before.placeAll catalog options 0 (done ++ [interval]) = .ok scan' := by
  have split : before.placeAll catalog options 0 (done ++ [interval]) =
      before.placeAll catalog options 0 done >>= fun scan =>
        scan.placeAll catalog options (0 + done.length) [interval] :=
    numbered_append (fun _ _ => rfl) (fun _ _ _ _ => rfl) done [interval] before 0
  rw [split, reached]
  show scan.placeAll catalog options (0 + done.length) [interval] = .ok scan'
  rw [Nat.zero_add, placeAll, placed]
  rfl

/-- **A whole run** is the same if whoever holds a register at any moment has one that is left. -/
theorem placeAll_of_narrows (narrows : catalog.Narrows keep catalog') {intervals : List Interval}
    {before : PlainScan}
    (kept : ∀ done scan, done <+: intervals →
      before.placeAll catalog options 0 done = .ok scan →
      ∀ holder ∈ scan.held, keep holder.register = true)
    (completed : before.placeAll catalog options 0 intervals = .ok scan) :
    before.placeAll catalog' options 0 intervals = .ok scan := by
  refine (numbered_induction (motive := fun done scan =>
      before.placeAll catalog options 0 done = .ok scan ∧
        before.placeAll catalog' options 0 done = .ok scan)
    (fun _ _ => rfl) (fun _ _ _ _ => rfl) intervals ?_ ⟨rfl, rfl⟩ completed).2
  rintro done interval scan scan' beginning ⟨reached, reached'⟩ placed
  have longer := placeAll_concat reached placed
  exact ⟨longer, placeAll_concat reached'
    (place_of_narrows narrows placed (kept _ _ beginning longer))⟩

/-- Results agree on the registers to be saved. -/
theorem allocation_of_narrows (narrows : catalog.Narrows keep catalog') (scan : PlainScan) :
    scan.allocation catalog'.registers = scan.allocation catalog.registers := by
  simp only [allocation, narrows.calleeSaved]

end PlainScan

/-! ## Programs -/

/-- No temp lives in storage of the register. -/
def Allocation.Avoids (allocation : Allocation) (file : RegisterFile) (id : RegisterId) : Prop :=
  ∀ temp register, allocation.assignment.get? temp = some (.register register) →
    file.intersects register id = false

namespace Allocator

variable {catalog catalog' : Catalog} {options : Options} {allocator allocator' : Allocator}
  {keep : RegisterId → Bool} {stackBase : Nat} {run : CompletedRun}

/-- What is held at any moment of a run is in use at its end. -/
theorem Reachable.uses_of_held (built : catalog.Built)
    (reachable : Reachable catalog options allocator) {intervals : List Interval}
    (distinct : (intervals.map Interval.temp).Nodup)
    (done : allocator.runIntervals intervals stackBase = .ok run)
    {earlier : List Interval} {scan : PlainScan} (beginning : earlier <+: intervals)
    (reached : (PlainScan.start stackBase).placeAll catalog options 0 earlier = .ok scan)
    {holder : Held} (member : holder ∈ scan.held) :
    run.allocation.assignment.Uses holder.register := by
  have inStep := reachable.corresponds_placeAll built earlier stackBase
  rw [reached] at inStep
  obtain ⟨state, moment, refines⟩ := inStep.exists_of_ok_right
  obtain ⟨rfl, rfl, -⟩ := reachable.ready built.wellFormed
  refine ((savesExactly_runIntervals distinct done).inherited holder.register).mp ?_
  exact ⟨earlier, state, beginning, moment, holder, refines.held.mem_iff.mp member, rfl⟩

/-- A run over intervals that touches only what is left. -/
theorem Reachable.allocation_of_narrows (built : catalog.Built) (built' : catalog'.Built)
    (reachable : Reachable catalog options allocator)
    (reachable' : Reachable catalog' options allocator') (narrows : catalog.Narrows keep catalog')
    {intervals : List Interval} (distinct : (intervals.map Interval.temp).Nodup)
    (done : allocator.runIntervals intervals stackBase = .ok run)
    (kept : ∀ register, run.allocation.assignment.Uses register → keep register = true) :
    ∃ run', allocator'.runIntervals intervals stackBase = .ok run' ∧
      run'.allocation = run.allocation := by
  obtain ⟨scan, placed, same⟩ := reachable.exists_scan built done
  have placed' := PlainScan.placeAll_of_narrows narrows
    (fun _ _ beginning reached _ member =>
      kept _ (reachable.uses_of_held built distinct done beginning reached member)) placed
  have corresponds := (reachable'.ready built'.wellFormed).runIntervals built'.wellFormed
    (sorted_of_runIntervals done) stackBase
  rw [placed'] at corresponds
  obtain ⟨run', done', same', -⟩ := corresponds.exists_of_ok_right
  exact ⟨run', done', by rw [same', same, PlainScan.allocation_of_narrows narrows]⟩

/-- A run over a program that touches only what is left. -/
theorem Reachable.allocation_runFrom_of_narrows (built : catalog.Built) (built' : catalog'.Built)
    (reachable : Reachable catalog options allocator)
    (reachable' : Reachable catalog' options allocator') (narrows : catalog.Narrows keep catalog')
    {operations : List Operation} (done : allocator.runFrom operations stackBase = .ok run)
    (kept : ∀ register, run.allocation.assignment.Uses register → keep register = true) :
    ∃ run', allocator'.runFrom operations stackBase = .ok run' ∧
      run'.allocation = run.allocation := by
  rw [runFrom_eq] at done
  obtain ⟨inner, completed, rfl⟩ := exists_of_report done
  obtain ⟨inner', completed', same⟩ := reachable.allocation_of_narrows built built' reachable'
    narrows (Liveness.nodup_intervals operations) completed kept
  rw [runFrom_eq, completed', report]
  exact ⟨_, rfl, by rw [same]⟩

/-- **Disabling unused storage changes nothing.**  Every register can be disabled, and over whatever
catalog is left, a run gives the allocation that it gave before, if it completed and no temp lived
in storage of the register in the end. -/
theorem allocation_of_disabled {target : Target} {name : String} {id : RegisterId}
    (reachable : target.Reachable) (built : Catalog.build target = .ok catalog)
    (found : target.registers.lookup? name = some id) :
    ∃ target', target.disable name = .ok target' ∧
      ∀ catalog', Catalog.build target' = .ok catalog' →
        ∀ options allocator allocator', Reachable catalog options allocator →
          Reachable catalog' options allocator' → ∀ operations,
          (∀ stackBase run, allocator.runFrom operations stackBase = .ok run →
            run.allocation.Avoids target.registers id →
            ∃ run', allocator'.runFrom operations stackBase = .ok run' ∧
              run'.allocation = run.allocation) ∧
          (∀ run, allocator.run operations = .ok run →
            run.allocation.Avoids target.registers id →
            ∃ run', allocator'.run operations = .ok run' ∧
              run'.allocation = run.allocation) := by
  obtain ⟨file, without⟩ := RegisterFile.exists_disable_iff.mpr ⟨id, found⟩
  have disabled : target.disable name = .ok { target with registers := file } := by
    rw [Target.disable, without]
  refine ⟨_, disabled, fun catalog' built' options allocator allocator' used used' operations => ?_⟩
  have isBuilt : catalog.Built := ⟨target, reachable, built⟩
  have isBuilt' : catalog'.Built := ⟨_, reachable.disable disabled, built'⟩
  have narrows := Catalog.narrows_of_disable reachable found built disabled built'
  have anywhere : ∀ stackBase run, allocator.runFrom operations stackBase = .ok run →
      run.allocation.Avoids target.registers id →
      ∃ run', allocator'.runFrom operations stackBase = .ok run' ∧
        run'.allocation = run.allocation := by
    intro stackBase run done unused
    refine used.allocation_runFrom_of_narrows isBuilt isBuilt' used' narrows done ?_
    rintro register ⟨temp, lives⟩
    rw [unused temp register lives]
    rfl
  refine ⟨anywhere, fun run done unused => ?_⟩
  -- Both allocators take the base of the frame from the same options.
  have base : allocator.options.stackBase = allocator'.options.stackBase := by
    rw [(used.ready isBuilt.wellFormed).2.1, (used'.ready isBuilt'.wellFormed).2.1]
  rw [Allocator.run, base] at done
  exact anywhere _ run done unused

end Allocator

/-! ## A register across two others -/

/-- The small registers, where the narrow one also shares storage with the second wide one. -/
def RegisterBuilder.spanned : RegisterBuilder :=
  small.link ⟨2⟩ ⟨1⟩

/-- The first wide register serves narrow values, and so does the narrow one. -/
def Target.spanned : Target :=
  ⟨"spanned", .ofBuilder .spanned, [⟨⟨0⟩, [4], .integer⟩, ⟨⟨1⟩, [4], .integer⟩]⟩

theorem Target.reachable_spanned : Target.spanned.Reachable := by
  have reachable : RegisterBuilder.spanned.Reachable :=
    RegisterBuilder.reachable_small.link (by decide) (by decide)
  have made : Target.make "spanned" (.ofBuilder .spanned) Target.spanned.entries
      = .ok Target.spanned := rfl
  exact .make (.build reachable) made

/-- Disabling the second wide register leaves only the first one. -/
def Target.unspanned : Target :=
  { spanned with
    registers := ⟨RegisterFile.reserve (RegisterFile.ofBuilder .spanned).registers [⟨2⟩, ⟨1⟩],
      RegisterBuilder.spanned.byName⟩ }

/-- A long value, a short one inside it, and one that is never freed. -/
def Operation.brief : List Operation :=
  let temp (index : Nat) : Temp := .ofType ⟨index⟩ .i32
  [⟨[], some (temp 0), none⟩, ⟨[], some (temp 1), none⟩, ⟨[], none, some (temp 1)⟩,
    ⟨[], none, some (temp 0)⟩, ⟨[], some (temp 2), none⟩]

/-- The narrow register is passed over while the first wide one is held, and the register of the
long value passes on.  With the second wide register disabled, the narrow one is gone. -/
theorem Allocator.allocation_of_disabled_spanned :
    Target.spanned.Reachable ∧ Target.spanned.disable "r1" = .ok Target.unspanned ∧
      ∃ catalog catalog' run run', Catalog.build Target.spanned = .ok catalog ∧
        Catalog.build Target.unspanned = .ok catalog' ∧
        catalog.banks.map (·.registers) = [[⟨0⟩, ⟨1⟩]] ∧
        catalog'.banks.map (·.registers) = [[⟨0⟩]] ∧
        (ofCatalog catalog {}).run Operation.brief = .ok run ∧
        run.allocation.Avoids Target.spanned.registers ⟨2⟩ ∧
        run.allocation.assignment.entries =
          [(⟨0⟩, .stack 0), (⟨1⟩, .register ⟨0⟩), (⟨2⟩, .register ⟨0⟩)] ∧
        (ofCatalog catalog' {}).run Operation.brief = .ok run' ∧
        run'.allocation = run.allocation := by
  have found : Target.spanned.registers.lookup? "r1" = some ⟨2⟩ := by
    show RegisterBuilder.spanned.byName["r1"]? = some ⟨2⟩
    simp [RegisterBuilder.spanned, RegisterBuilder.small, RegisterBuilder.add,
      RegisterBuilder.link, RegisterBuilder.addOverlap, RegisterBuilder.update,
      RegisterBuilder.nextId, RegisterBuilder.empty]
  have disabled : Target.spanned.disable "r1" = .ok Target.unspanned := by
    rw [Target.disable, RegisterFile.disable_of_some found]
    rfl
  have intervals : (Liveness.ofOperations Operation.brief).intervals
      = [⟨⟨0⟩, 0, 3, 4, .i32⟩, ⟨⟨1⟩, 1, 2, 4, .i32⟩, ⟨⟨2⟩, 4, 4, 4, .i32⟩] := by
    rw [Liveness.intervals_eq]
    rfl
  obtain ⟨catalog, catalog', run, built, built', before, after, done, places⟩ :
      ∃ catalog catalog' run, Catalog.build Target.spanned = .ok catalog ∧
        Catalog.build Target.unspanned = .ok catalog' ∧
        catalog.banks.map (·.registers) = [[⟨0⟩, ⟨1⟩]] ∧
        catalog'.banks.map (·.registers) = [[⟨0⟩]] ∧
        (ofCatalog catalog {}).run Operation.brief = .ok run ∧
        run.allocation.assignment.entries =
          [(⟨0⟩, .stack 0), (⟨1⟩, .register ⟨0⟩), (⟨2⟩, .register ⟨0⟩)] := by
    simp only [Allocator.run, runFrom_eq, intervals]
    exact ⟨_, _, _, rfl, rfl, rfl, rfl, rfl, rfl⟩
  have unused : run.allocation.Avoids Target.spanned.registers ⟨2⟩ := by
    have ascending : run.allocation.assignment.Ascending := by
      rw [Assignment.Ascending, places]
      decide
    intro temp register lives
    rw [ascending.get?_eq_some_iff, places] at lives
    obtain ⟨-, rfl⟩ | ⟨-, rfl⟩ : temp = ⟨1⟩ ∧ register = ⟨0⟩ ∨ temp = ⟨2⟩ ∧ register = ⟨0⟩ := by
      simpa using lives
    all_goals rfl
  obtain ⟨target', isDisabled, same⟩ :=
    allocation_of_disabled Target.reachable_spanned built found
  obtain rfl := Except.ok.inj (disabled.symm.trans isDisabled)
  obtain ⟨run', done', same⟩ :=
    (same catalog' built' {} _ _ .fresh .fresh Operation.brief).2 run done unused
  exact ⟨Target.reachable_spanned, disabled, catalog, catalog', run, run', built, built', before,
    after, done, unused, places, done', same⟩

end LinearScan
