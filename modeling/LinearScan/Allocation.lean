import LinearScan.Ir.Temp
import LinearScan.Register.Basic

/-!
# Allocations

The result of register allocation: where each temp lives, and what that costs.

## Main Definitions

* `Location` — a register or a slot of the spill area
* `Assignment` — the location of each temp
* `Allocation` — an assignment with its frame and its diagnostics

## Design Notes

An assignment is a list of pairs in ascending order of the temps, so equal assignments
are equal lists, and reports come out in temp order.
-/

namespace LinearScan

/-- Where a temp lives for its whole lifetime. -/
inductive Location where
  | register (id : RegisterId)
  /-- A byte offset into the spill area of the frame. -/
  | stack (offset : Nat)
deriving DecidableEq

namespace Location

/-- The register of a location that is one. -/
def register? : Location → Option RegisterId
  | register id => some id
  | stack _ => none

end Location

/-- The location of each temp. -/
structure Assignment where
  /-- Ascending by temp, each temp once. -/
  entries : List (TempId × Location)
deriving DecidableEq

namespace Assignment

/-- No temp has a location. -/
def empty : Assignment :=
  ⟨[]⟩

/-- Puts a temp's location among pairs in ascending order, in place of an earlier one. -/
def insertEntry (temp : TempId) (location : Location) :
    List (TempId × Location) → List (TempId × Location)
  | [] => [(temp, location)]
  | entry :: rest =>
    if temp.index < entry.1.index then (temp, location) :: entry :: rest
    else if temp = entry.1 then (temp, location) :: rest
    else entry :: insertEntry temp location rest

/-- Says where a temp lives, in place of what was said before. -/
def insert (assignment : Assignment) (temp : TempId) (location : Location) : Assignment :=
  ⟨insertEntry temp location assignment.entries⟩

/-- Where a temp lives. -/
def get? (assignment : Assignment) (temp : TempId) : Option Location :=
  (assignment.entries.find? fun entry => entry.1 == temp).map (·.2)

/-- The number of temps. -/
def size (assignment : Assignment) : Nat :=
  assignment.entries.length

/-- The registers that temps live in, ascending and without repetition. -/
def registers (assignment : Assignment) : List RegisterId :=
  (assignment.entries.filterMap fun entry => entry.2.register?).foldl
    (fun ids id => RegisterId.insert id ids) []

end Assignment

/-- What was odd about a program, although it could be allocated. -/
inductive Diagnostic where
  /-- Temps without a free marker, which live up to the last position. -/
  | unfreedTemps (temps : List TempId)
deriving DecidableEq

/-- What a diagnostic says. -/
def Diagnostic.message : Diagnostic → String
  | unfreedTemps temps =>
    s!"{temps.length} unfreed registers encountered, this indicates a defect in IR generation ("
      ++ " ".intercalate (temps.map TempId.text) ++ ")"

/-- The outcome of one allocation run. -/
structure Allocation where
  assignment : Assignment
  /-- Where the spill area starts. -/
  stackBase : Nat
  /-- Where the spill area ends: the size of the frame to reserve. -/
  frameSize : Nat
  /-- The number of times an interval went to the stack, evicted ones included. -/
  spills : Nat
  evictions : Nat
  /-- The callee-saved registers that temps live in, ascending. -/
  calleeSaved : List RegisterId
  diagnostics : List Diagnostic
deriving DecidableEq

end LinearScan
