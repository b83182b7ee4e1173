import LinearScan.Fault
import Std.Data.HashMap

/-!
# Declaring registers

Registers are declared one after the other, linked where they share storage, and
flagged where they must not be handed out.  `RegisterFile.ofBuilder` freezes the
result.

## Main Definitions

* `RegisterBuilder` — the registers declared so far, with an index of their names
* `RegisterBuilder.declareM`, `RegisterBuilder.declare` — adds one register
* `RegisterBuilder.aliasPair`, `RegisterBuilder.aliasGroup` — record shared storage

## Design Notes

Bad declarations are errors, and the builder that they leave is as it was.  An id that was
never declared is a fault.
-/

namespace LinearScan

/-- Why a register cannot be declared or taken out of use. -/
inductive RegisterError where
  | zeroSize (name : String)
  | declaredTwice (name : String)
  | tooMany
  | disableUnknown (name : String)
deriving DecidableEq

/-- What a register error says. -/
def RegisterError.message : RegisterError → String
  | zeroSize name => s!"register {name} declared with zero size"
  | declaredTwice name => s!"register {name} declared twice"
  | tooMany => "too many registers declared"
  | disableUnknown name => s!"cannot disable unknown register {name}"

/-- Registers declared so far. -/
structure RegisterBuilder where
  /-- The registers, each at the index of its id. -/
  registers : Array Register
  /-- The id of each declared name. -/
  byName : Std.HashMap String RegisterId

namespace RegisterBuilder

/-- Ids are 16 bits wide, so a file holds at most this many registers. -/
def capacity : Nat := 65536

/-- No register declared yet. -/
def empty : RegisterBuilder :=
  ⟨#[], ∅⟩

/-- The id of a declared name. -/
def lookup? (builder : RegisterBuilder) (name : String) : Option RegisterId :=
  builder.byName[name]?

/-- Why a register cannot be declared, if there is a reason. -/
def refusal? (builder : RegisterBuilder) (name : String) (size : Nat) : Option RegisterError :=
  if size = 0 then some (.zeroSize name)
  else if builder.byName.contains name then some (.declaredTwice name)
  else if capacity ≤ builder.registers.size then some .tooMany
  else none

/-- The id of the register that is declared next. -/
def nextId (builder : RegisterBuilder) : RegisterId :=
  ⟨builder.registers.size⟩

/-- Adds a register that overlaps nothing but itself and may be handed out. -/
def add (builder : RegisterBuilder) (name : String) (size : Nat) (storage : StorageClass)
    (calleeSaved : Bool) : RegisterBuilder :=
  let id := builder.nextId
  { registers := builder.registers.push
      { id, name, size, storage, calleeSaved, usable := true, overlaps := [id] }
    byName := builder.byName.insert name id }

/-- The request to declare a register. -/
def declareM (name : String) (size : Nat) (storage : StorageClass) (calleeSaved : Bool) :
    Request RegisterError RegisterBuilder RegisterId := do
  if let some error := (← get).refusal? name size then
    throw error
  modifyGet fun builder => (builder.nextId, builder.add name size storage calleeSaved)

/-- Declares a register. -/
def declare (builder : RegisterBuilder) (name : String) (size : Nat) (storage : StorageClass)
    (calleeSaved : Bool) : Except RegisterError (RegisterId × RegisterBuilder) :=
  (declareM name size storage calleeSaved).answer builder

/-- Changes the register of an id; an id that was never declared changes nothing. -/
def update (builder : RegisterBuilder) (id : RegisterId) (change : Register → Register) :
    RegisterBuilder :=
  { builder with registers := builder.registers.modify id.index change }

/-- Records in the first register's overlap set that it shares storage with the second. -/
def addOverlap (builder : RegisterBuilder) (id other : RegisterId) : RegisterBuilder :=
  builder.update id fun register =>
    { register with overlaps := RegisterId.insert other register.overlaps }

/-- Records that two declared registers share storage. -/
def link (builder : RegisterBuilder) (a b : RegisterId) : RegisterBuilder :=
  (builder.addOverlap a b).addOverlap b a

/-- Says whether a declared register may be handed out. -/
def flag (builder : RegisterBuilder) (id : RegisterId) (usable : Bool) : RegisterBuilder :=
  builder.update id fun register => { register with usable }

/-- Checks that an id was declared. -/
def require (builder : RegisterBuilder) (id : RegisterId) : Except Fault Unit :=
  if id.index < builder.registers.size then .ok () else .error (.unknownRegister id)

/-- Records that two registers share storage. -/
def aliasPair (builder : RegisterBuilder) (a b : RegisterId) : Except Fault RegisterBuilder := do
  builder.require a
  builder.require b
  return builder.link a b

/-- Records that every two registers of a group share storage. -/
def aliasGroup (builder : RegisterBuilder) : List RegisterId → Except Fault RegisterBuilder
  | [] => .ok builder
  | id :: rest => do
    let builder ← rest.foldlM (fun builder other => builder.aliasPair id other) builder
    builder.aliasGroup rest

/-- Says whether a register may be handed out. -/
def setUsable (builder : RegisterBuilder) (id : RegisterId) (usable : Bool) :
    Except Fault RegisterBuilder := do
  builder.require id
  return builder.flag id usable

end RegisterBuilder

end LinearScan
