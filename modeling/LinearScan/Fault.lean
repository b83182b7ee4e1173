import LinearScan.Register.Basic

/-!
# Faults and refusals

A fault is a broken contract between a caller and the library, as opposed to bad
input, which every reader reports as an error of its own.  A computation that meets
a fault has no result.  A request that is refused has one, an error, and whatever the
request was made to is still there afterwards.

## Main Definitions

* `Fault` — the contracts that can be broken
* `Request` — calls that may be refused, with the state that they leave
-/

namespace LinearScan

/-- A broken contract. -/
inductive Fault where
  /-- A register id outside its file. -/
  | unknownRegister (id : RegisterId)
  /-- A bank position outside the catalog. -/
  | unknownBank (sizeIndex bankIndex : Nat)
  /-- The place of an interval that is not there. -/
  | unknownInterval (index : Nat)
  /-- A temp that was not met. -/
  | unknownTemp (temp : Nat)
  /-- An interval that ends before it starts. -/
  | reversedInterval (temp start stop : Nat)
  /-- Intervals that are not in ascending order of their starts. -/
  | unsortedIntervals
  /-- A register given back to a bank in which it is free. -/
  | returnedTwice (id : RegisterId)
  /-- A spill area that grows beyond the largest frame offset. -/
  | frameOverflow (cursor size : Nat)
deriving DecidableEq

namespace Fault

/-- What a fault says. -/
def message : Fault → String
  | unknownRegister id => s!"no register has the id {id.index}"
  | unknownBank sizeIndex bankIndex => s!"no bank at ({sizeIndex}, {bankIndex})"
  | unknownInterval index => s!"no interval at {index}"
  | unknownTemp temp => s!"t{temp} was not met"
  | reversedInterval temp start stop =>
    s!"the interval [{start}, {stop}] of t{temp} ends before it starts"
  | unsortedIntervals => "intervals are not sorted by start"
  | returnedTwice id => s!"register {id.index} returned twice"
  | frameOverflow cursor size => s!"no room for {size} bytes at stack+{cursor}"

end Fault

/-- A call on something that it may change.  It ends in an answer or in an error, and beside
either stands the state that it leaves. -/
abbrev Request (ε σ α : Type) :=
  EStateM ε σ α

namespace Request

variable {ε σ α : Type}

/-- The state that a request leaves, answered or not. -/
def leaves (request : Request ε σ α) (state : σ) : σ :=
  match request.run state with
  | .ok _ left => left
  | .error _ left => left

/-- The answer to a request with the state that it leaves, or the error alone. -/
def answer (request : Request ε σ α) (state : σ) : Except ε (α × σ) :=
  match request.run state with
  | .ok answer left => .ok (answer, left)
  | .error error _ => .error error

end Request

end LinearScan
