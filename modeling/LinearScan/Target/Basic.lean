import LinearScan.Register.File
import LinearScan.Event

/-!
# Targets

A target says which registers exist, which value types each may hold, and at which
sizes.

## Main Definitions

* `Entry` — one allocatable register with the sizes and types it serves
* `Target`, `Target.make` — a register file with entries that fit it
* `Target.identity` — the text by which equal targets are recognised

## Design Notes

The order of the entries is the order in which registers are preferred.
-/

namespace LinearScan

/-- One allocatable register. -/
structure Entry where
  register : RegisterId
  /-- The value sizes that the register serves. -/
  sizes : List Nat
  accepts : TypePredicate

/-- The register description of a target. -/
structure Target where
  name : String
  registers : RegisterFile
  /-- In order of preference. -/
  entries : List Entry

/-- Why a target cannot be described or found. -/
inductive TargetError where
  | unknownTarget (name : String)
  | registers (error : RegisterError)
  | declaration (target : String) (error : RegisterError)
  | vanished (register : String)
  | overlapsUnknown (target register other : String)
  | acceptsUnknown (target register predicate : String)
  | unknownEntry (target : String) (id : RegisterId)
  | noSize (target register : String)
  | badSize (target register : String) (bytes size : Nat)
  /-- A contract broken on the way, which no declaration can bring about. -/
  | fault (broken : Fault)
deriving DecidableEq

/-- What a target error says. -/
def TargetError.message : TargetError → String
  | unknownTarget name => s!"unknown target {name}"
  | registers error => error.message
  | declaration target error => s!"target {target}: {error.message}"
  | vanished register => s!"register {register} vanished"
  | overlapsUnknown target register other =>
    s!"target {target}: register {register} overlaps unknown register {other}"
  | acceptsUnknown target register predicate =>
    s!"target {target}: register {register} accepts unknown value class {predicate}"
  | unknownEntry target id => s!"target {target}: entry names unknown register {id.describe}"
  | noSize target register => s!"target {target}: register {register} serves no size"
  | badSize target register bytes size =>
    s!"target {target}: register {register} ({bytes} bytes) cannot serve size {size}"
  | fault broken => broken.message

/-- Whether a register of the given size can serve values of the given size. -/
def Entry.serves (bytes size : Nat) : Bool :=
  0 < size && size ≤ bytes

/-- Checks that an entry names a register that can serve all its sizes. -/
def Entry.check (target : String) (registers : RegisterFile) (entry : Entry) :
    Except TargetError Unit :=
  match registers.get? entry.register with
  | none => .error (.unknownEntry target entry.register)
  | some register =>
    if entry.sizes.isEmpty then .error (.noSize target register.name)
    else
      match entry.sizes.find? fun size => !Entry.serves register.size size with
      | some size => .error (.badSize target register.name register.size size)
      | none => .ok ()

namespace Target

/-- A target whose entries all fit its register file. -/
def make (name : String) (registers : RegisterFile) (entries : List Entry) :
    Except TargetError Target := do
  entries.forM (Entry.check name registers)
  return { name, registers, entries }

/-- Takes a register and all that shares its storage out of allocation for good. -/
def disable (target : Target) (register : String) : Except TargetError Target :=
  match target.registers.disable register with
  | .ok registers => .ok { target with registers }
  | .error error => .error (.registers error)

/-- A register as part of an identity. -/
def registerKey (file : RegisterFile) (register : Register) : String :=
  let overlaps := (file.names register.overlaps).mergeSort fun a b => !(b < a)
  let usable := if register.usable then "u" else "-"
  let saved := if register.calleeSaved then "s" else "-"
  s!"|{register.name}:{register.size}:{register.storage.name}:{usable}:{saved}:"
    ++ ",".intercalate overlaps

/-- An entry as part of an identity. -/
def entryKey (file : RegisterFile) (entry : Entry) : String :=
  "|" ++ String.join (file.names [entry.register]) ++ bracketed (entry.sizes.map Nat.repr)
    ++ entry.accepts.name

/-- A text that covers every register and entry of a target. -/
def identity (target : Target) : String :=
  target.name
    ++ String.join (target.registers.registers.toList.map (registerKey target.registers))
    ++ String.join (target.entries.map (entryKey target.registers))

end Target

end LinearScan
