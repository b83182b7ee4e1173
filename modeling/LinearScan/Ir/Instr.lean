import LinearScan.Ir.Temp

/-!
# Instructions

The instructions that program text consists of, and how they are written.

## Main Definitions

* `Operand`, `Instr` — instructions over constants and temps
* `Instr.text` — the line that spells an instruction
* `Instr.operation` — what register allocation sees of it
-/

namespace LinearScan

/-- An operand of an instruction. -/
inductive Operand where
  | const (value : Int)
  | temp (source : Temp)
deriving DecidableEq

namespace Operand

/-- The spelling of an operand; a temp is written without its type. -/
def text : Operand → String
  | const value => toString value
  | temp source => source.id.text

/-- The temp that an operand reads. -/
def temp? : Operand → Option Temp
  | const _ => none
  | temp source => some source

end Operand

/-- An instruction. -/
inductive Instr where
  /-- An incoming value, defined at function entry. -/
  | param (dest : Temp)
  /-- A named operation with an optional result. -/
  | op (name : String) (dest : Option Temp) (srcs : List Operand)
  /-- The end of a temp's lifetime. -/
  | free (temp : Temp)
deriving DecidableEq

namespace Instr

/-- What register allocation sees of an instruction. -/
def operation : Instr → Operation
  | param dest => { used := [], defined := some dest, freed := none }
  | op _ dest srcs => { used := srcs.filterMap Operand.temp?, defined := dest, freed := none }
  | free temp => { used := [], defined := none, freed := some temp }

/-- Operands as they follow the name of an operation. -/
def operandsText (srcs : List Operand) : String :=
  match srcs with
  | [] => ""
  | _ => " " ++ ", ".intercalate (srcs.map Operand.text)

/-- The line that spells an instruction. -/
def text : Instr → String
  | param dest => s!"param {dest.text}"
  | op name none srcs => name ++ operandsText srcs
  | op name (some dest) srcs => s!"{dest.text} = {name}{operandsText srcs}"
  | free temp => s!"free {temp.id.text}"

end Instr

end LinearScan
