/-!
# Views of the x86 registers

A general purpose register of the x86 family can be named at several widths, each
naming the low bits of the same storage.

## Main Definitions

* `X86.Family` — the sixteen general purpose registers
* `X86.View` — a family seen at a width in bits
* `X86.View.name` — the assembly name of a view
-/

namespace LinearScan.X86

/-- The general purpose registers. -/
inductive Family where
  | rax
  | rbx
  | rcx
  | rdx
  | rsi
  | rdi
  | rbp
  | rsp
  | r8
  | r9
  | r10
  | r11
  | r12
  | r13
  | r14
  | r15
deriving DecidableEq

namespace Family

/-- The names of the 8, 16, 32 and 64-bit views. -/
def viewNames : Family → String × String × String × String
  | rax => ("al", "ax", "eax", "rax")
  | rbx => ("bl", "bx", "ebx", "rbx")
  | rcx => ("cl", "cx", "ecx", "rcx")
  | rdx => ("dl", "dx", "edx", "rdx")
  | rsi => ("sil", "si", "esi", "rsi")
  | rdi => ("dil", "di", "edi", "rdi")
  | rbp => ("bpl", "bp", "ebp", "rbp")
  | rsp => ("spl", "sp", "esp", "rsp")
  | r8 => ("r8b", "r8w", "r8d", "r8")
  | r9 => ("r9b", "r9w", "r9d", "r9")
  | r10 => ("r10b", "r10w", "r10d", "r10")
  | r11 => ("r11b", "r11w", "r11d", "r11")
  | r12 => ("r12b", "r12w", "r12d", "r12")
  | r13 => ("r13b", "r13w", "r13d", "r13")
  | r14 => ("r14b", "r14w", "r14d", "r14")
  | r15 => ("r15b", "r15w", "r15d", "r15")

/-- Whether a function has to restore the register before it returns. -/
def calleeSaved : Family → Bool
  | rbx | rbp | r12 | r13 | r14 | r15 => true
  | _ => false

end Family

/-- A general purpose register seen at a width in bits. -/
structure View where
  family : Family
  width : Nat
deriving DecidableEq

namespace View

/-- The widths every family can be seen at, narrowest first. -/
def widths : List Nat :=
  [8, 16, 32, 64]

/-- The size of a view in whole bytes. -/
def byteSize (view : View) : Nat :=
  view.width / 8

/-- The same family at another width. -/
def withWidth (view : View) (width : Nat) : View :=
  { view with width }

/-- All views of a family, narrowest first. -/
def views (view : View) : List View :=
  widths.map view.withWidth

/-- The assembly name of a view.  A width without a name of its own is written behind
the name of the widest view. -/
def name (view : View) : String :=
  let (byte, word, long, quad) := view.family.viewNames
  match view.width with
  | 8 => s!"%{byte}"
  | 16 => s!"%{word}"
  | 32 => s!"%{long}"
  | 64 => s!"%{quad}"
  | width => s!"%{quad}<{width}>"

end View

/-- The size of a vector register in bytes. -/
def xmmBytes : Nat := 16

/-- The name of a vector register. -/
def xmmName (number : Nat) : String :=
  s!"%xmm{number}"

/-- The size of an entry of the x87 stack in bytes. -/
def x87Bytes : Nat := 10

/-- The name of an entry of the x87 stack. -/
def x87Name (number : Nat) : String :=
  s!"%st{number}"

end LinearScan.X86
