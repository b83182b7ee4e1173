import LinearScan.Value

/-!
# Temps and operations

A temp is a value that a program names once and reads until it frees it.  An
operation is all that register allocation sees of an instruction.

## Main Definitions

* `TempId`, `Temp` — a temp's identity, and with it what its value needs
* `Operation` — the temps that one instruction reads, defines and frees
-/

namespace LinearScan

/-- The identity of a temp. -/
structure TempId where
  index : Nat
deriving DecidableEq

namespace TempId

/-- The spelling of a temp in program text. -/
def text (id : TempId) : String :=
  s!"t{id.index}"

/-- How an id is shown in diagnostics. -/
def describe (id : TempId) : String :=
  s!"TempId({id.index})"

end TempId

/-- A temp together with what its value needs. -/
structure Temp where
  id : TempId
  /-- Size in bytes. -/
  size : Nat
  type : ValueType
deriving DecidableEq

namespace Temp

/-- A temp of its type's natural size. -/
def ofType (id : TempId) (type : ValueType) : Temp :=
  ⟨id, type.size, type⟩

/-- A temp with its type, as a definition spells it. -/
def text (temp : Temp) : String :=
  s!"{temp.id.text}:{temp.type.name}"

end Temp

/-- What register allocation sees of an instruction. -/
structure Operation where
  /-- The temps that are read, in operand order. -/
  used : List Temp
  /-- The temp that is defined. -/
  defined : Option Temp
  /-- The temp whose lifetime ends here. -/
  freed : Option Temp
deriving DecidableEq

/-- Every temp that an operation mentions: what it reads, then what it defines, then
what it frees. -/
def Operation.mentioned (operation : Operation) : List Temp :=
  operation.used ++ operation.defined.toList ++ operation.freed.toList

end LinearScan
