import LinearScan.Target.Decl
import LinearScan.X86.View

/-!
# The x86 targets

The two built-in targets are the two modes of a processor.  They differ in the registers that
exist and in the views at which these can be seen, and are put together in the same way.

## Main Definitions

* `X86.Mode` — what is particular to a mode
* `X86.Mode.toTarget` — its target
* `X86.Mode.x86_64`, `X86.Mode.i386` — long mode and protected mode
* `TargetDecl.builtin?` — the built-in target of a name

## Design Notes

Registers that a call may overwrite come first, so that short-lived temps do not force
a save in the prologue.  Stack and frame pointer are declared but never handed out.  In
protected mode the vector registers exist but hold no values.
-/

namespace LinearScan.X86

/-- A mode of the processor. -/
structure Mode where
  name : String
  /-- The families that are handed out, in order of preference. -/
  pool : List Family
  /-- The widths at which a family of the pool can be seen. -/
  widths : Family → List Nat
  /-- Whether a function has to restore a family of the pool. -/
  calleeSaved : Family → Bool
  /-- The widths at which stack and frame pointer can be seen. -/
  frameWidths : List Nat
  /-- The number of vector registers. -/
  vectors : Nat
  /-- Whether vector registers hold values. -/
  vectorsUsable : Bool

/-- The families that hold the frame together. -/
def framePointers : List Family :=
  [.rsp, .rbp]

/-- The sizes of the values that a vector register serves. -/
def vectorSizes : List Nat :=
  [4, 8, 16]

/-- The number of entries of the x87 stack. -/
def x87Count : Nat :=
  8

/-- A family seen at the given widths. -/
def viewsAt (widths : List Nat) (family : Family) : List View :=
  widths.map fun width => ⟨family, width⟩

/-- A target in the making: the registers and entries so far. -/
structure Layout where
  builder : RegisterBuilder
  entries : List Entry

/-- Declares the given views of one family. -/
def declareViews (calleeSaved : Bool) (builder : RegisterBuilder) :
    List View → Except TargetError (List RegisterId × RegisterBuilder)
  | [] => .ok ([], builder)
  | view :: rest => do
    let (id, builder) ←
      (builder.declare view.name view.byteSize .integer calleeSaved).mapError .registers
    let (ids, builder) ← declareViews calleeSaved builder rest
    return (id :: ids, builder)

/-- Declares the given views of one family and records that they share storage. -/
def declareFamily (builder : RegisterBuilder) (views : List View) (calleeSaved : Bool) :
    Except TargetError (List RegisterId × RegisterBuilder) := do
  let (ids, builder) ← declareViews calleeSaved builder views
  let builder ← (builder.aliasGroup ids).mapError .fault
  return (ids, builder)

namespace Layout

/-- Nothing declared yet. -/
def empty : Layout :=
  ⟨.empty, []⟩

/-- Adds the views of a family that is handed out. -/
def addPool (layout : Layout) (views : List View) (calleeSaved : Bool) :
    Except TargetError Layout := do
  let (ids, builder) ← declareFamily layout.builder views calleeSaved
  let entries := (views.zip ids).map fun (view, id) => ⟨id, [view.byteSize], .integer⟩
  return ⟨builder, layout.entries ++ entries⟩

/-- Adds the views of a family that is never handed out. -/
def addReserved (layout : Layout) (views : List View) : Except TargetError Layout := do
  let (ids, builder) ← declareFamily layout.builder views true
  let builder ← ids.foldlM (fun builder id => (builder.setUsable id false).mapError .fault) builder
  return { layout with builder }

/-- Adds a vector register, which serves lanes of several sizes. -/
def addVector (usable : Bool) (layout : Layout) (number : Nat) : Except TargetError Layout := do
  let (id, builder) ←
    (layout.builder.declare (xmmName number) xmmBytes .sse false).mapError .registers
  let builder ← (builder.setUsable id usable).mapError .fault
  return ⟨builder, layout.entries ++ [⟨id, vectorSizes, .sse⟩]⟩

/-- Adds an entry of the x87 stack. -/
def addX87 (layout : Layout) (number : Nat) : Except TargetError Layout := do
  let (id, builder) ←
    (layout.builder.declare (x87Name number) x87Bytes .x87 false).mapError .registers
  return ⟨builder, layout.entries ++ [⟨id, [x87Bytes], .extended⟩]⟩

end Layout

namespace Mode

/-- The registers and entries of a mode. -/
def layout (mode : Mode) : Except TargetError Layout := do
  let layout ← mode.pool.foldlM (fun layout family =>
    layout.addPool (viewsAt (mode.widths family) family) (mode.calleeSaved family)) .empty
  let layout ← framePointers.foldlM (fun layout family =>
    layout.addReserved (viewsAt mode.frameWidths family)) layout
  let layout ← (List.range mode.vectors).foldlM (Layout.addVector mode.vectorsUsable) layout
  (List.range x87Count).foldlM Layout.addX87 layout

/-- The target of a mode. -/
def toTarget (mode : Mode) : Except TargetError Target := do
  let layout ← mode.layout
  Target.make mode.name (.ofBuilder layout.builder) layout.entries

/-- The families that can be seen at 8 bits outside of long mode. -/
def byteAddressable : List Family :=
  [.rax, .rcx, .rdx, .rbx]

/-- Long mode under the System V conventions. -/
def x86_64 : Mode where
  name := "x86_64"
  pool := [.rax, .rdi, .rsi, .rdx, .rcx, .r8, .r9, .r10, .r11, .rbx, .r12, .r13, .r14, .r15]
  widths _ := View.widths
  calleeSaved := Family.calleeSaved
  frameWidths := View.widths
  vectors := 16
  vectorsUsable := true

/-- Protected mode. -/
def i386 : Mode where
  name := "i386"
  pool := [.rax, .rcx, .rdx, .rbx, .rsi, .rdi]
  widths family := if family ∈ byteAddressable then [8, 16, 32] else [16, 32]
  calleeSaved family := family ∈ [.rbx, .rsi, .rdi]
  frameWidths := [16, 32]
  vectors := 8
  vectorsUsable := false

end Mode

end LinearScan.X86

namespace LinearScan

/-- The built-in target that a name stands for; some have several names. -/
def TargetDecl.builtin? (name : String) : Option X86.Mode :=
  if name ∈ ["x86_64", "x86-64", "amd64"] then some .x86_64
  else if name ∈ ["i386", "x86"] then some .i386
  else none

end LinearScan
