import LinearScan.Allocator
import LinearScan.Text.Json

/-!
# Reports

The texts in which allocations and intervals are shown.

## Main Definitions

* `Report.listing` — an allocation for people to read
* `Report.json` — an allocation for programs to read
* `Report.intervals` — live intervals, one a line
-/

namespace LinearScan

/-- A temp's location with the register's name resolved. -/
inductive NamedLocation where
  | register (name : String)
  | stack (offset : Nat)
deriving DecidableEq

namespace Allocation

/-- The location of each temp, in temp order, with register names resolved. -/
def records (allocation : Allocation) (file : RegisterFile) : List (TempId × NamedLocation) :=
  allocation.assignment.entries.map fun (temp, location) =>
    match location with
    | .register id => (temp, .register (String.join (file.names [id])))
    | .stack offset => (temp, .stack offset)

/-- The names of the callee-saved registers in use. -/
def calleeSavedNames (allocation : Allocation) (file : RegisterFile) : List String :=
  file.names allocation.calleeSaved

end Allocation

namespace Report

/-- A text moved to the right end of a column. -/
def alignRight (width : Nat) (text : String) : String :=
  String.ofList (List.replicate (width - text.length) ' ') ++ text

/-- A location as a listing shows it. -/
def locationText : NamedLocation → String
  | .register name => name
  | .stack offset => s!"stack+{offset}"

/-- The lines of a listing. -/
def listingLines (file : RegisterFile) (allocation : Allocation) : List String :=
  let saved := allocation.calleeSavedNames file
  (allocation.records file).map (fun (temp, location) =>
    s!"{alignRight 6 temp.text} -> {locationText location}")
  ++ [s!"frame size: {allocation.frameSize}",
      s!"spills: {allocation.spills} (evictions: {allocation.evictions})"]
  ++ (if saved.isEmpty then [] else ["callee-saved: " ++ " ".intercalate saved])
  ++ allocation.diagnostics.map fun diagnostic => s!"warning: {diagnostic.message}"

/-- Lines, each ended by a newline. -/
def ofLines (lines : List String) : String :=
  String.join (lines.map (· ++ "\n"))

/-- An allocation for people to read. -/
def listing (catalog : Catalog) (allocation : Allocation) : String :=
  ofLines (listingLines catalog.registers allocation)

/-- A location as a field of a JSON report. -/
def locationJson : NamedLocation → Text.Json
  | .register name => .object [("register", .string name)]
  | .stack offset => .object [("stack", .number offset)]

/-- An allocation as a JSON value. -/
def jsonValue (catalog : Catalog) (allocation : Allocation) : Text.Json :=
  .object
    [("target", .string catalog.name),
     ("frame_size", .number allocation.frameSize),
     ("spills", .number allocation.spills),
     ("evictions", .number allocation.evictions),
     ("callee_saved",
      .array ((allocation.calleeSavedNames catalog.registers).map .string)),
     ("diagnostics", .array (allocation.diagnostics.map fun d => .string d.message)),
     ("allocations", .array ((allocation.records catalog.registers).map fun (temp, location) =>
       .object [("temp", .string temp.text), ("location", locationJson location)]))]

/-- An allocation for programs to read. -/
def json (catalog : Catalog) (allocation : Allocation) : String :=
  (jsonValue catalog allocation).pretty ++ "\n"

/-- Live intervals, one a line. -/
def intervals (intervals : List Interval) : String :=
  ofLines (intervals.map Interval.text)

end Report

end LinearScan
