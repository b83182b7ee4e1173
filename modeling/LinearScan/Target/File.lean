import LinearScan.Target.X86
import LinearScan.Toml.Decode

/-!
# Target files

A target is read from a TOML document such as

    name = "toy"

    [[register]]
    name = "r0"
    size = 8
    class = "integer"
    accepts = "integer"
    sizes = [4, 8]          # by default [size]
    overlaps = ["w0"]
    callee_saved = false
    usable = true

## Main Definitions

* `TargetDecl.ofText` — the declaration that a text gives
* `Target.ofText` — the target that a text describes

## Design Notes

A register may also be given as an array that holds its fields in the order above, where
the last three may be left out.
-/

namespace LinearScan

namespace RegisterDecl

/-- The keys of a register. -/
def fields : List String :=
  ["name", "size", "class", "accepts", "sizes", "overlaps", "callee_saved", "usable"]

/-- What a message calls a register. -/
def expected : String := "struct RegisterDecl"

/-- A register of which some fields have been read. -/
structure Draft where
  name : Option String := none
  size : Option Nat := none
  storage : Option StorageClass := none
  accepts : Option String := none
  sizes : Option (List Nat) := none
  overlaps : List String := []
  calleeSaved : Bool := false
  usable : Bool := true

/-- Reads a storage class. -/
def readStorage : Toml.Value → Except Toml.DecodeError StorageClass :=
  Toml.Value.asChoice (StorageClass.all.map (·.name)) StorageClass.ofName?

/-- Reads one key. -/
def Draft.setField (draft : Draft) (entry : String × Toml.Value) :
    Except Toml.DecodeError Draft :=
  let (name, value) := entry
  match name with
  | "name" => value.asString.map fun name => { draft with name := some name }
  | "size" => value.asWord.map fun size => { draft with size := some size }
  | "class" => (readStorage value).map fun storage => { draft with storage := some storage }
  | "accepts" => value.asString.map fun accepts => { draft with accepts := some accepts }
  | "sizes" => (value.asList Toml.Value.asWord).map fun sizes =>
    { draft with sizes := some sizes }
  | "overlaps" => (value.asList Toml.Value.asString).map fun overlaps =>
    { draft with overlaps }
  | "callee_saved" => value.asBoolean.map fun calleeSaved => { draft with calleeSaved }
  | "usable" => value.asBoolean.map fun usable => { draft with usable }
  | _ => .error (.unknownField name RegisterDecl.fields)

/-- The declaration, once the fields without a default are there. -/
def Draft.complete (draft : Draft) : Except Toml.DecodeError RegisterDecl := do
  let name ← Toml.required "name" draft.name
  let size ← Toml.required "size" draft.size
  let storage ← Toml.required "class" draft.storage
  return { name, size, storage,
           accepts := draft.accepts
           sizes := draft.sizes
           overlaps := draft.overlaps
           calleeSaved := draft.calleeSaved
           usable := draft.usable }

/-- Reads a register given by its keys. -/
def ofEntries (entries : Toml.Entries) : Except Toml.DecodeError RegisterDecl := do
  let draft ← entries.foldlM Draft.setField {}
  draft.complete

/-- Reads a register given by its fields in order: whatever is there is read before a
missing field is reported, and more than all fields are ignored. -/
def ofItems (items : List Toml.Value) : Except Toml.DecodeError RegisterDecl := do
  let draft ← (RegisterDecl.fields.zip items).foldlM Draft.setField {}
  if items.length < 5 then
    .error (.invalidLength items.length s!"{expected} with {RegisterDecl.fields.length} elements")
  else
    draft.complete

/-- Reads a register. -/
def ofValue : Toml.Value → Except Toml.DecodeError RegisterDecl
  | .array items => ofItems items
  | .tableArray tables => ofItems tables
  | value =>
    match value.entries? with
    | some entries => ofEntries entries
    | none => .error (.invalidType value.shape expected)

end RegisterDecl

namespace TargetDecl

/-- The keys of a target file. -/
def fields : List String :=
  ["name", "register"]

/-- A target of which some fields have been read. -/
structure Draft where
  name : Option String := none
  registers : List RegisterDecl := []

/-- Reads one key. -/
def Draft.setField (draft : Draft) (entry : String × Toml.Value) :
    Except Toml.DecodeError Draft :=
  let (name, value) := entry
  match name with
  | "name" => value.asString.map fun name => { draft with name := some name }
  | "register" => (value.asList RegisterDecl.ofValue).map fun registers =>
    { draft with registers }
  | _ => .error (.unknownField name TargetDecl.fields)

/-- Reads a target given by its keys. -/
def ofEntries (entries : Toml.Entries) : Except Toml.DecodeError TargetDecl := do
  let draft ← entries.foldlM Draft.setField {}
  let name ← Toml.required "name" draft.name
  return { name, registers := draft.registers }

/-- The declaration that a text gives. -/
def ofText (source : String) : Except Toml.Error TargetDecl :=
  Toml.decode source ofEntries

end TargetDecl

/-- Why a text gives no target. -/
inductive TargetTextError where
  | toml (error : Toml.Error)
  | target (error : TargetError)
deriving DecidableEq

/-- What an error says. -/
def TargetTextError.message : TargetTextError → String
  | toml error => error.message
  | target error => error.message

/-- The target that a text describes. -/
def Target.ofText (source : String) : Except TargetTextError Target :=
  match TargetDecl.ofText source with
  | .error error => .error (.toml error)
  | .ok decl =>
    match decl.toTarget with
    | .error error => .error (.target error)
    | .ok target => .ok target

end LinearScan
