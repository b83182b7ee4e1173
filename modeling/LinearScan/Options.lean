/-!
# Allocator options

## Main Definitions

* `Options` — what a caller may choose about an allocation
-/

namespace LinearScan

/-- Choices for an allocation run. -/
structure Options where
  /-- Bytes of the frame that are reserved before the first spill slot. -/
  stackBase : Nat := 0
  /-- Whether an incoming interval may take the register of an active one that lives
  longer.  Otherwise the incoming interval is the one to go to the stack. -/
  eviction : Bool := true
  /-- Whether every temp goes to the stack. -/
  allStack : Bool := false
deriving DecidableEq

end LinearScan
