import LinearScan.Proofs.ConflictFree
import LinearScan.Proofs.Ir.Lifetime

/-!
# Values survive allocation

What an allocation is for, said about runs of a program.  Instructions are executed in order;
each reads its source temps and then writes its result.  On a machine, temps live in the
places they were assigned, and writing a place destroys everything that shares storage with
it.  In separate storage, no temp gets in the way of another.

`trace_allocated` says that the two cannot be told apart: every instruction reads and
writes the same values, and what is read of a temp is what its one definition wrote.

The simulation (`Kept`) relates the two kinds of storage for temps that are mentioned again
and for no others: the place of a temp that is done with may have been given away.  Its step
needs the allocation at one point only, the write: a temp that is mentioned again is live
across it, so its interval and that of the result overlap, and their places are apart.

What an instruction computes is left open.  It may depend on the position, the instruction
and the values read, and values may be of any type.
-/

namespace LinearScan

universe u v

variable {V : Type u} {S : Type v}

/-! ## The machine -/

/-- What is read and written as a whole: a register, or a slot of the spill area. -/
inductive Cell where
  | register (id : RegisterId)
  | slot (offset size : Nat)
deriving DecidableEq

/-- The cell that holds a value of the given size in a place. -/
def Location.cell (size : Nat) : Location → Cell
  | .register id => .register id
  | .stack offset => .slot offset size

/-- Whether two cells share storage: registers by their overlap sets, slots by their bytes. -/
def Cell.meets (file : RegisterFile) : Cell → Cell → Bool
  | .register a, .register b => file.intersects a b
  | .slot offset size, .slot offset' size' =>
    offset < offset' + size' && offset' < offset + size
  | _, _ => false

/-- The content of each cell, which is none after it was destroyed. -/
def Machine (V : Type u) : Type u := Cell → Option V

/-- Writes a cell, and destroys every other cell that shares storage with it. -/
def Machine.write (file : RegisterFile) (machine : Machine V) (cell : Cell) (value : V) :
    Machine V := fun other =>
  if other = cell then some value
  else if cell.meets file other then none
  else machine other

/-- What was written is read. -/
theorem Machine.write_self {file : RegisterFile} (machine : Machine V) (cell : Cell) (value : V) :
    machine.write file cell value cell = some value :=
  if_pos rfl

/-- A cell that shares no storage with the written one keeps its content. -/
theorem Machine.write_of_not_meets {file : RegisterFile} (machine : Machine V) {cell other : Cell}
    (value : V) (differ : other ≠ cell) (apart : cell.meets file other = false) :
    machine.write file cell value other = machine other := by
  rw [Machine.write, if_neg differ, apart]
  rfl

/-- Values of some size that live apart are in different cells. -/
theorem Location.Apart.cell_ne {file : RegisterFile} {place place' : Location} {size size' : Nat}
    (apart : place.Apart file size place' size') (sized : 0 < size) :
    place.cell size ≠ place'.cell size' := by
  cases place with
  | register a =>
    cases place' with
    | register b =>
      intro same
      exact RegisterFile.ne_of_not_intersects apart (Cell.register.inj same)
    | stack offset' => simp [Location.cell]
  | stack offset =>
    cases place' with
    | register b => simp [Location.cell]
    | stack offset' =>
      intro same
      obtain ⟨rfl, rfl⟩ := Cell.slot.inj same
      rw [Location.Apart] at apart
      omega

/-- Values that live apart are in cells that share no storage. -/
theorem Location.Apart.not_meets {file : RegisterFile} {place place' : Location}
    {size size' : Nat} (apart : place.Apart file size place' size') :
    (place.cell size).meets file (place'.cell size') = false := by
  cases place with
  | register a =>
    cases place' with
    | register b => exact apart
    | stack offset' => rfl
  | stack offset =>
    cases place' with
    | register b => rfl
    | stack offset' =>
      rw [Location.Apart] at apart
      simp only [Location.cell, Cell.meets, Bool.and_eq_false_imp, decide_eq_true_eq,
        decide_eq_false_iff_not]
      omega

/-! ## Execution -/

/-- A way to keep the values of temps. -/
structure Storage (V : Type u) (S : Type v) where
  read : S → Temp → Option V
  write : S → Temp → V → S

namespace Storage

/-- Temps live in the places they were assigned. -/
def allocated (file : RegisterFile) (assignment : Assignment) : Storage V (Machine V) where
  read machine temp :=
    (assignment.get? temp.id).bind fun place => machine (place.cell temp.size)
  write machine temp value :=
    match assignment.get? temp.id with
    | some place => machine.write file (place.cell temp.size) value
    | none => machine

/-- Every temp has storage of its own. -/
def separate : Storage V (TempId → Option V) where
  read values temp := values temp.id
  write values temp value := fun id => if id = temp.id then some value else values id

end Storage

/-- What an instruction does to storage: the values that it reads, in operand order, and the
value that it writes. -/
structure Action (V : Type u) where
  reads : List (Option V)
  written : Option V

/-- What instructions compute from their position and the values that they read. -/
abbrev Semantics (V : Type u) : Type u := Nat → Instr → List (Option V) → V

namespace Storage

/-- Reads the sources of an instruction, and computes its result if it has one. -/
def action (storage : Storage V S) (compute : Semantics V) (position : Nat) (state : S)
    (instr : Instr) : Action V :=
  let reads := instr.operation.used.map (storage.read state)
  ⟨reads, instr.operation.defined.map fun _ => compute position instr reads⟩

/-- Writes the result of an operation. -/
def next (storage : Storage V S) (state : S) (operation : Operation) (written : Option V) : S :=
  match operation.defined, written with
  | some dest, some value => storage.write state dest value
  | _, _ => state

section Steps

variable {storage : Storage V S} {state : S} {operation : Operation} {instr : Instr} {dest : Temp}
  {compute : Semantics V} {position : Nat}

/-- An operation without a result changes nothing. -/
theorem next_of_none (nothing : operation.defined = none) (written : Option V) :
    storage.next state operation written = state := by
  unfold next
  rw [nothing]

/-- An operation with a result writes it. -/
theorem next_of_some (isDest : operation.defined = some dest) (value : V) :
    storage.next state operation (some value) = storage.write state dest value := by
  unfold next
  rw [isDest]

/-- An instruction with a result computes it from what it reads. -/
theorem written_of_some (isDest : instr.operation.defined = some dest) :
    (storage.action compute position state instr).written =
      some (compute position instr (instr.operation.used.map (storage.read state))) := by
  rw [action, isDest]
  rfl

end Steps

/-- Executes instructions in order, the first of which has the given position. -/
def trace (storage : Storage V S) (compute : Semantics V) (position : Nat) (state : S) :
    List Instr → List (Action V)
  | [] => []
  | instr :: rest =>
    let action := storage.action compute position state instr
    action :: storage.trace compute (position + 1)
      (storage.next state instr.operation action.written) rest

end Storage

/-- What the operation at a position reads are the values that were written where its sources
are defined, and each of them is defined in one place. -/
def ReadsDefinitions (operations : List Operation) (actions : List (Action V)) (position : Nat) :
    Prop :=
  ∀ operation, operations[position]? = some operation →
    ∀ (index : Nat) temp, operation.used[index]? = some temp →
      ∃ definition < position, DefinedAt operations definition temp ∧
        (∀ other temp', DefinedAt operations other temp' → temp'.id = temp.id →
          other = definition) ∧
        ∃ reading writing value, actions[position]? = some reading ∧
          actions[definition]? = some writing ∧ reading.reads[index]? = some (some value) ∧
          writing.written = some value

/-! ## Separate storage holds what was written -/

section Separate

variable {program done rest : List Instr} {history : List (Action V)} {compute : Semantics V}
  {values : TempId → Option V} {position : Nat} {operations : List Operation}

/-- What follows does not change what was read. -/
theorem ReadsDefinitions.append (reads : ReadsDefinitions operations history position)
    (later : List (Action V)) : ReadsDefinitions operations (history ++ later) position := by
  intro operation found index temp isSource
  obtain ⟨definition, before, defined, once, reading, writing, value, atReading, atWriting, same⟩ :=
    reads operation found index temp isSource
  refine ⟨definition, before, defined, once, reading, writing, value, ?_, ?_, same⟩
  · rw [List.getElem?_append_left (List.getElem?_eq_some_iff.mp atReading).1]
    exact atReading
  · rw [List.getElem?_append_left (List.getElem?_eq_some_iff.mp atWriting).1]
    exact atWriting

/-- Separate storage holds what the definitions so far have written. -/
def Recorded (operations : List Operation) (history : List (Action V))
    (values : TempId → Option V) : Prop :=
  ∀ definition temp, definition < history.length → DefinedAt operations definition temp →
    ∃ writing value, history[definition]? = some writing ∧ writing.written = some value ∧
      values temp.id = some value

/-- An instruction reads what the definitions of its sources wrote. -/
theorem Recorded.reads (inScope : Scoped operations) (recorded : Recorded operations history values)
    {instr : Instr} (found : operations[history.length]? = some instr.operation) :
    ReadsDefinitions operations
      (history ++ [Storage.separate.action compute history.length values instr])
      history.length := by
  intro operation found' index temp isSource
  rw [found] at found'
  obtain rfl := Option.some.inj found'
  obtain ⟨definition, before, defined⟩ := inScope.known history.length instr.operation found temp
    (List.mem_append_left _ (List.mem_of_getElem? isSource))
  obtain ⟨writing, value, atWriting, written, holds⟩ := recorded definition temp before defined
  refine ⟨definition, before, defined, ?_, _, writing, value, List.getElem?_concat_length, ?_, ?_,
    written⟩
  · intro other temp' defined' same
    exact inScope.once other definition temp' temp defined' defined same
  · rw [List.getElem?_append_left before]
    exact atWriting
  · show (instr.operation.used.map (Storage.separate.read values))[index]? = some (some value)
    rw [List.getElem?_map, isSource]
    exact congrArg some holds

/-- The result of an instruction is recorded, and changes no other record. -/
theorem Recorded.next (inScope : Scoped operations) (recorded : Recorded operations history values)
    {instr : Instr} (found : operations[history.length]? = some instr.operation) :
    Recorded operations (history ++ [Storage.separate.action compute history.length values instr])
      (Storage.separate.next values instr.operation
        (Storage.separate.action compute history.length values instr).written) := by
  intro definition temp before defined
  rw [List.length_append, List.length_singleton] at before
  rcases Nat.lt_succ_iff_lt_or_eq.mp before with earlier | rfl
  · obtain ⟨writing, value, atWriting, written, holds⟩ := recorded definition temp earlier defined
    refine ⟨writing, value, ?_, written, ?_⟩
    · rw [List.getElem?_append_left earlier]
      exact atWriting
    · cases isDest : instr.operation.defined with
      | none =>
        rw [Storage.next_of_none isDest]
        exact holds
      | some dest =>
        -- No other position defines the temp, so its record is not overwritten.
        have other : temp.id ≠ dest.id := by
          intro same
          have here := inScope.once definition history.length temp dest defined
            ⟨_, found, isDest⟩ same
          exact Nat.ne_of_lt earlier here
        rw [Storage.written_of_some isDest, Storage.next_of_some isDest]
        exact (if_neg other).trans holds
  · obtain ⟨operation, found', isDest⟩ := defined
    rw [found] at found'
    obtain rfl := Option.some.inj found'
    rw [Storage.written_of_some isDest, Storage.next_of_some isDest]
    exact ⟨_, _, List.getElem?_concat_length, Storage.written_of_some isDest, if_pos rfl⟩

/-- **In separate storage, every read has the value of the definition.** -/
theorem readsDefinitions_of_recorded (inScope : Scoped operations) (rest : List Instr) :
    ∀ (history : List (Action V)) (values : TempId → Option V),
      operations.drop history.length = rest.map Instr.operation →
      Recorded operations history values →
      (∀ position < history.length, ReadsDefinitions operations history position) →
      ∀ position, ReadsDefinitions operations
        (history ++ Storage.separate.trace compute history.length values rest) position := by
  induction rest with
  | nil =>
    intro history values left recorded reads position operation found
    have inside : position < history.length :=
      Nat.lt_of_lt_of_le (List.getElem?_eq_some_iff.mp found).1 (List.drop_eq_nil_iff.mp left)
    rw [Storage.trace, List.append_nil]
    exact reads position inside operation found
  | cons instr rest ih =>
    intro history values left recorded reads position
    obtain ⟨found, left⟩ := of_drop_eq_cons left
    let action := Storage.separate.action compute history.length values instr
    have length : (history ++ [action]).length = history.length + 1 := by
      rw [List.length_append, List.length_singleton]
    have reads' : ∀ position < (history ++ [action]).length,
        ReadsDefinitions operations (history ++ [action]) position := by
      intro position inside
      rw [length] at inside
      rcases Nat.lt_succ_iff_lt_or_eq.mp inside with earlier | rfl
      · exact (reads position earlier).append _
      · exact recorded.reads inScope found
    rw [← length] at left
    have step := ih (history ++ [action]) _ left (recorded.next inScope found) reads' position
    rw [length, List.append_assoc] at step
    exact step

end Separate

/-! ## The machine holds what separate storage holds -/

section Allocated

variable {file : RegisterFile} {assignment : Assignment} {operations : List Operation}
  {position : Nat} {machine : Machine V} {values : TempId → Option V} {compute : Semantics V}

/-- Storage by assignment agrees with separate storage on the temps that are defined and will be
mentioned again. -/
def Kept (file : RegisterFile) (assignment : Assignment) (operations : List Operation)
    (position : Nat) (machine : Machine V) (values : TempId → Option V) : Prop :=
  ∀ definition temp, definition < position → DefinedAt operations definition temp →
    (∃ later other, position ≤ later ∧ MentionedAt operations later other ∧
      other.id = temp.id) →
    (Storage.allocated file assignment).read machine temp = values temp.id

/-- What liveness and allocation have to do with a program: intervals start at definitions and
cover mentions, each temp has a place, and overlapping intervals have places apart. -/
structure Placement (file : RegisterFile) (operations : List Operation)
    (assignment : Assignment) : Prop where
  inScope : Scoped operations
  settled : NoUseAfterFree operations
  covered : ∀ interval ∈ (Liveness.ofOperations operations).intervals,
    ∃ place, assignment.get? interval.temp = some place
  free : ConflictFree file (Liveness.ofOperations operations).intervals assignment

/-- What is defined has a place. -/
theorem Placement.exists_place (placement : Placement file operations assignment) {temp : Temp}
    (defined : DefinedAt operations position temp) :
    ∃ place, assignment.get? temp.id = some place := by
  obtain ⟨interval, member, isTemp, -⟩ :=
    placement.inScope.exists_interval_of_defined placement.settled defined
  rw [← isTemp]
  exact placement.covered interval member

/-- **A result lives apart from all that is needed after it.** -/
theorem Placement.apart (placement : Placement file operations assignment) {dest temp other : Temp}
    {definition later : Nat} (result : DefinedAt operations position dest)
    (defined : DefinedAt operations definition temp) (before : definition < position)
    (behind : position < later) (mention : MentionedAt operations later other)
    (same : other.id = temp.id) {place place' : Location}
    (atDest : assignment.get? dest.id = some place)
    (atTemp : assignment.get? temp.id = some place') :
    place.Apart file dest.size place' temp.size := by
  obtain ⟨a, memberA, tempA, startA, sizeA, coversA⟩ :=
    placement.inScope.exists_interval_of_defined placement.settled result
  obtain ⟨b, memberB, tempB, startB, sizeB, coversB⟩ :=
    placement.inScope.exists_interval_of_defined placement.settled defined
  have differ : a.temp ≠ b.temp := by
    rw [tempA, tempB]
    intro sameTemp
    exact Nat.ne_of_gt before
      (placement.inScope.once position definition dest temp result defined sameTemp)
  have overlap : a.overlaps b = true := by
    have reached : position ≤ a.stop := coversA position dest result.mentionedAt rfl
    have alive : later ≤ b.stop := coversB later other mention same
    simp only [Interval.overlaps, Bool.and_eq_true, decide_eq_true_eq]
    omega
  rw [← sizeA, ← sizeB]
  rw [← tempA] at atDest
  rw [← tempB] at atTemp
  exact placement.free a memberA b memberB differ overlap place place' atDest atTemp

/-- Writing a result keeps what is needed after it. -/
theorem Kept.write (placement : Placement file operations assignment)
    (kept : Kept file assignment operations position machine values) {dest : Temp}
    (result : DefinedAt operations position dest) (value : V) :
    Kept file assignment operations (position + 1)
      ((Storage.allocated file assignment).write machine dest value)
      (Storage.separate.write values dest value) := by
  obtain ⟨place, atDest⟩ := placement.exists_place result
  have written : (Storage.allocated file assignment).write machine dest value
      = machine.write file (place.cell dest.size) value := by
    simp only [Storage.allocated, atDest]
  intro definition temp before defined ⟨later, other, behind, mention, same⟩
  obtain ⟨place', atTemp⟩ := placement.exists_place defined
  rw [written]
  rcases Nat.lt_succ_iff_lt_or_eq.mp before with earlier | rfl
  · -- An older temp that is needed again is live across the write, so its cell is untouched.
    have apart := placement.apart result defined earlier behind mention same atDest atTemp
    have differ : temp.id ≠ dest.id := by
      intro sameTemp
      exact Nat.ne_of_lt earlier
        (placement.inScope.once definition position temp dest defined result sameTemp)
    have old := kept definition temp earlier defined
      ⟨later, other, Nat.le_of_succ_le behind, mention, same⟩
    simp only [Storage.allocated, atTemp, Option.bind_some] at old ⊢
    rw [Machine.write_of_not_meets machine value
      (apart.cell_ne (placement.inScope.sized position dest result)).symm apart.not_meets, old]
    exact (if_neg differ).symm
  · -- The result itself is read back from where it was written.
    obtain rfl := defined.unique result
    rw [atDest] at atTemp
    obtain rfl := Option.some.inj atTemp
    simp only [Storage.allocated, atDest, Option.bind_some]
    rw [Machine.write_self]
    exact (if_pos rfl).symm

/-- **One instruction** reads the same from both kinds of storage. -/
theorem Kept.action_eq (placement : Placement file operations assignment)
    (kept : Kept file assignment operations position machine values) {instr : Instr}
    (found : operations[position]? = some instr.operation) :
    (Storage.allocated file assignment).action compute position machine instr =
      Storage.separate.action compute position values instr := by
  have reads : instr.operation.used.map ((Storage.allocated file assignment).read machine)
      = instr.operation.used.map (Storage.separate.read values) := by
    refine List.map_congr_left fun temp isSource => ?_
    obtain ⟨definition, before, defined⟩ := placement.inScope.known position instr.operation found
      temp (List.mem_append_left _ isSource)
    have mention : MentionedAt operations position temp := by
      refine ⟨instr.operation, found, ?_⟩
      simp [Operation.mentioned, isSource]
    exact kept definition temp before defined ⟨position, temp, Nat.le_refl _, mention, rfl⟩
  rw [Storage.action, Storage.action, reads]

/-- **One instruction** keeps what is needed after it. -/
theorem Kept.next (placement : Placement file operations assignment)
    (kept : Kept file assignment operations position machine values) {instr : Instr}
    (found : operations[position]? = some instr.operation) :
    Kept file assignment operations (position + 1)
      ((Storage.allocated file assignment).next machine instr.operation
        (Storage.separate.action compute position values instr).written)
      (Storage.separate.next values instr.operation
        (Storage.separate.action compute position values instr).written) := by
  cases isDest : instr.operation.defined with
  | some dest =>
    rw [Storage.written_of_some isDest, Storage.next_of_some isDest, Storage.next_of_some isDest]
    exact kept.write placement ⟨_, found, isDest⟩ _
  | none =>
    rw [Storage.next_of_none isDest, Storage.next_of_none isDest]
    intro definition temp before defined ⟨later, other, behind, mention⟩
    rcases Nat.lt_succ_iff_lt_or_eq.mp before with earlier | rfl
    · exact kept definition temp earlier defined
        ⟨later, other, Nat.le_of_succ_le behind, mention⟩
    · obtain ⟨operation, found', isDefined⟩ := defined
      rw [found] at found'
      obtain rfl := Option.some.inj found'
      rw [isDest] at isDefined
      cases isDefined

/-- **A whole run** cannot tell the two kinds of storage apart. -/
theorem Kept.trace_eq (placement : Placement file operations assignment) (compute : Semantics V)
    (rest : List Instr) :
    ∀ {position : Nat} {machine : Machine V} {values : TempId → Option V},
      operations.drop position = rest.map Instr.operation →
      Kept file assignment operations position machine values →
      (Storage.allocated file assignment).trace compute position machine rest =
        Storage.separate.trace compute position values rest := by
  induction rest with
  | nil =>
    intro position machine values left kept
    rfl
  | cons instr rest ih =>
    intro position machine values left kept
    obtain ⟨found, left⟩ := of_drop_eq_cons left
    rw [Storage.trace, Storage.trace, kept.action_eq placement found]
    exact congrArg _ (ih left (kept.next placement found))

end Allocated

/-! ## Completed runs -/

variable {catalog : Catalog} {options : Options} {allocator : Allocator} {source : String}
  {program : List Instr} {stackBase : Nat} {run : CompletedRun}

/-- **Values survive allocation.**  A program that was read and mentions no temp behind its free
marker, executed on a machine with the places that a completed run assigns, does what it does
in separate storage, from whatever the machine holds at the start: every source that is read
has the value that its one definition wrote. -/
theorem trace_allocated (read : Program.ofText source = .ok program)
    (settled : NoUseAfterFree (program.map Instr.operation)) (built : catalog.Built)
    (reachable : Allocator.Reachable catalog options allocator)
    (done : allocator.runFrom (program.map Instr.operation) stackBase = .ok run)
    (compute : Semantics V) (machine : Machine V) (values : TempId → Option V) :
    (Storage.allocated catalog.registers run.allocation.assignment).trace compute 0 machine program
        = Storage.separate.trace compute 0 values program ∧
      ∀ position, ReadsDefinitions (program.map Instr.operation)
        ((Storage.allocated catalog.registers run.allocation.assignment).trace compute 0 machine
          program) position := by
  have inScope := scoped_of_ofText read
  obtain ⟨scan, position, sound, same⟩ := reachable.sound_runFrom built done
  have placement : Placement catalog.registers (program.map Instr.operation)
      run.allocation.assignment := by
    rw [← same]
    exact ⟨inScope, settled, sound.covered, sound.conflictFree⟩
  have kept : Kept catalog.registers run.allocation.assignment (program.map Instr.operation) 0
      machine values := by
    intro definition temp before
    cases before
  have recorded : Recorded (program.map Instr.operation) [] values := by
    intro definition temp before
    cases before
  have traces := Kept.trace_eq placement compute program rfl kept
  refine ⟨traces, ?_⟩
  rw [traces]
  refine readsDefinitions_of_recorded inScope program [] values rfl recorded ?_
  intro position before
  cases before

/-- A narrow value, a wide one made from it, and a third that has to go to the stack. -/
def widening : List Instr :=
  let narrow : Temp := .ofType ⟨0⟩ .i32
  let wide : Temp := .ofType ⟨1⟩ .i64
  let double : Temp := .ofType ⟨2⟩ .i64
  [.param narrow, .op "widen" (some wide) [.temp narrow],
    .op "double" (some double) [.temp wide, .const 2], .free narrow,
    .op "store" none [.temp double, .temp wide]]

/-- Instructions that add up what they read, on top of their position. -/
def addUp : Semantics Nat := fun position _ reads =>
  reads.foldl (fun total value => total + value.getD 0) position

/-- Of three values that are live at once, one is in a part of the first register, one in the
second register and one on the stack; all are read as they were written. -/
theorem trace_allocated_widening :
    Program.ofText
        "param t0:i32\nt1:i64 = widen t0\nt2:i64 = double t1, 2\nfree t0\nstore t2, t1"
      = .ok widening ∧
    NoUseAfterFree (widening.map Instr.operation) ∧ (Catalog.small Entry.nested).Built ∧
    ∃ run, (Allocator.ofCatalog (.small Entry.nested) {}).runFrom (widening.map Instr.operation) 16
        = .ok run ∧
      run.allocation.assignment.get? ⟨0⟩ = some (.register ⟨1⟩) ∧
      run.allocation.assignment.get? ⟨1⟩ = some (.register ⟨2⟩) ∧
      run.allocation.assignment.get? ⟨2⟩ = some (.stack 16) ∧
      ((Storage.allocated (Catalog.small Entry.nested).registers run.allocation.assignment).trace
          addUp 0 (fun _ => none) widening
        = Storage.separate.trace addUp 0 (fun _ => none) widening ∧
      ∀ position, ReadsDefinitions (widening.map Instr.operation)
        ((Storage.allocated (Catalog.small Entry.nested).registers
          run.allocation.assignment).trace addUp 0 (fun _ => none) widening) position) := by
  have read : Program.ofText
      "param t0:i32\nt1:i64 = widen t0\nt2:i64 = double t1, 2\nfree t0\nstore t2, t1"
        = .ok widening := by
    decide +kernel
  have settled : NoUseAfterFree (widening.map Instr.operation) := by decide
  have intervals : (Liveness.ofOperations (widening.map Instr.operation)).intervals
      = [⟨⟨0⟩, 0, 3, 4, .i32⟩, ⟨⟨1⟩, 1, 4, 8, .i64⟩, ⟨⟨2⟩, 2, 4, 8, .i64⟩] := by
    rw [Liveness.intervals_eq]
    rfl
  obtain ⟨run, done, places⟩ :
      ∃ run, (Allocator.ofCatalog (.small Entry.nested) {}).runFrom
          (widening.map Instr.operation) 16 = .ok run ∧
        run.allocation.assignment.get? ⟨0⟩ = some (.register ⟨1⟩) ∧
        run.allocation.assignment.get? ⟨1⟩ = some (.register ⟨2⟩) ∧
        run.allocation.assignment.get? ⟨2⟩ = some (.stack 16) := by
    rw [Allocator.runFrom_eq, intervals]
    exact ⟨_, rfl, rfl, rfl, rfl⟩
  exact ⟨read, settled, Catalog.built_nested, run, done, places.1, places.2.1, places.2.2,
    trace_allocated read settled Catalog.built_nested .fresh done addUp (fun _ => none)
      (fun _ => none)⟩

end LinearScan
