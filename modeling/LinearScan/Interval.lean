import LinearScan.Fault
import LinearScan.Ir.Temp

/-!
# Live intervals

A temp is live over a closed range of positions in its program.

## Main Definitions

* `Interval` — the range, with what the temp's value needs
* `Interval.make` — an interval from its parts, which must be in order
* `Interval.overlaps` — whether two temps are live at one position
-/

namespace LinearScan

/-- The closed range of positions over which a temp is live. -/
structure Interval where
  temp : TempId
  start : Nat
  stop : Nat
  /-- Size of the value in bytes. -/
  size : Nat
  type : ValueType
deriving DecidableEq

namespace Interval

/-- An interval from its parts; its end must not lie before its start. -/
def make (temp : TempId) (start stop size : Nat) (type : ValueType) : Except Fault Interval :=
  if start ≤ stop then .ok { temp, start, stop, size, type }
  else .error (.reversedInterval temp.index start stop)

/-- The interval of a temp that is live at one position only. -/
def point (temp : Temp) (position : Nat) : Interval :=
  { temp := temp.id, start := position, stop := position, size := temp.size, type := temp.type }

/-- Whether two intervals have a position in common. -/
def overlaps (a b : Interval) : Bool :=
  a.start ≤ b.stop && b.start ≤ a.stop

/-- How an interval is written. -/
def text (interval : Interval) : String :=
  s!"{interval.temp.text}:{interval.type.name} [{interval.start}, {interval.stop}]"

/-- Overlap is symmetric. -/
theorem overlaps_comm (a b : Interval) : a.overlaps b = b.overlaps a := by
  simp [overlaps, Bool.and_comm]

end Interval

end LinearScan
