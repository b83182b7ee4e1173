import LinearScan.Register.Builder

/-!
# Register files

The full register set of one target, frozen from its declarations.

## Main Definitions

* `RegisterFile` — registers by id and by name
* `RegisterFile.ofBuilder` — freezes declarations
* `RegisterFile.intersects` — whether two registers share storage
* `RegisterFile.disableM`, `RegisterFile.disable` — takes a register and its overlaps out of
  allocation

## Design Notes

A register flagged unusable takes what shares its storage with it, but only directly:
overlap is not transitive, and a register that merely overlaps an overlap stays usable.
-/

namespace LinearScan

/-- The registers of a target. -/
structure RegisterFile where
  /-- The registers, each at the index of its id. -/
  registers : Array Register
  /-- The id of each register name. -/
  byName : Std.HashMap String RegisterId

namespace RegisterFile

/-- Takes the given registers out of allocation. -/
def reserve (registers : Array Register) (ids : List RegisterId) : Array Register :=
  ids.foldl
    (fun registers id => registers.modify id.index fun register =>
      { register with usable := false })
    registers

/-- Freezes declarations.  What shares storage with an unusable register is unusable. -/
def ofBuilder (builder : RegisterBuilder) : RegisterFile :=
  let reserved := (builder.registers.toList.filter (!·.usable)).flatMap (·.overlaps)
  ⟨reserve builder.registers reserved, builder.byName⟩

/-- The number of registers. -/
def size (file : RegisterFile) : Nat :=
  file.registers.size

/-- The register of an id. -/
def get? (file : RegisterFile) (id : RegisterId) : Option Register :=
  file.registers[id.index]?

/-- The register of an id that the caller knows to be valid. -/
def get (file : RegisterFile) (id : RegisterId) : Except Fault Register :=
  match file.get? id with
  | some register => .ok register
  | none => .error (.unknownRegister id)

/-- The name of a register that the caller knows to be valid. -/
def name (file : RegisterFile) (id : RegisterId) : Except Fault String :=
  (file.get id).map (·.name)

/-- The names of those of the given ids that are in the file. -/
def names (file : RegisterFile) (ids : List RegisterId) : List String :=
  ids.filterMap fun id => (file.get? id).map (·.name)

/-- The id of a name. -/
def lookup? (file : RegisterFile) (name : String) : Option RegisterId :=
  file.byName[name]?

/-- Whether a register may be handed out; an unknown id may not. -/
def isUsable (file : RegisterFile) (id : RegisterId) : Bool :=
  (file.get? id).any (·.usable)

/-- Whether two registers share storage, where the first has to be in the file unless
the two are the same. -/
def intersectsChecked (file : RegisterFile) (a b : RegisterId) : Except Fault Bool :=
  if a = b then .ok true
  else (file.get a).map (·.overlaps.contains b)

/-- Whether two registers share storage.  What is not in the file shares storage with
itself only. -/
def intersects (file : RegisterFile) (a b : RegisterId) : Bool :=
  match file.intersectsChecked a b with
  | .ok shares => shares
  | .error _ => false

/-- The request to take a register and all that shares its storage out of allocation for
good. -/
def disableM (name : String) : Request RegisterError RegisterFile Unit := do
  match (← getThe RegisterFile).lookup? name with
  | none => throw (.disableUnknown name)
  | some id => modify fun file : RegisterFile =>
    let overlaps := ((file.get? id).map (·.overlaps)).getD []
    { file with registers := reserve file.registers overlaps }

/-- Takes a register and all that shares its storage out of allocation for good. -/
def disable (file : RegisterFile) (name : String) : Except RegisterError RegisterFile :=
  ((disableM name).answer file).map (·.2)

end RegisterFile

end LinearScan
