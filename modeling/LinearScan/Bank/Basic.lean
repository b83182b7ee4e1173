import LinearScan.Register.Basic
import LinearScan.Value

/-!
# Banks

A bank is an ordered pool of registers that serve values of one size.

## Main Definitions

* `Bank` — the pool, which does not change once a catalog is built
* `Bank.push` — adds a register behind the others
-/

namespace LinearScan

/-- An ordered pool of registers that serve values of one size. -/
structure Bank where
  /-- The value size in bytes. -/
  size : Nat
  predicate : TypePredicate
  /-- In order of preference, without repetition. -/
  registers : List RegisterId

namespace Bank

/-- A bank without registers. -/
def empty (size : Nat) (predicate : TypePredicate) : Bank :=
  ⟨size, predicate, []⟩

/-- Whether a register belongs to the bank. -/
def contains (bank : Bank) (register : RegisterId) : Bool :=
  bank.registers.contains register

/-- Adds a register behind the others, unless it is there already. -/
def push (bank : Bank) (register : RegisterId) : Bank :=
  if bank.contains register then bank
  else { bank with registers := bank.registers ++ [register] }

/-- Whether values of a type may live in the bank. -/
def accepts (bank : Bank) (type : ValueType) : Bool :=
  bank.predicate.accepts type

/-- Whether values of a type and size may live in the bank. -/
def admits (bank : Bank) (type : ValueType) (size : Nat) : Bool :=
  size ≤ bank.size && bank.accepts type

/-- Adding a register adds exactly that register. -/
@[simp] theorem mem_registers_push {bank : Bank} {register other : RegisterId} :
    other ∈ (bank.push register).registers ↔ other ∈ bank.registers ∨ other = register := by
  unfold push
  split
  · next h =>
    constructor
    · exact Or.inl
    · rintro (h' | rfl)
      · exact h'
      · simpa [contains] using h
  · simp

/-- Adding registers never makes a repetition. -/
theorem nodup_registers_push {bank : Bank} (h : bank.registers.Nodup) (register : RegisterId) :
    (bank.push register).registers.Nodup := by
  unfold push
  split
  · exact h
  · next hc =>
    have : register ∉ bank.registers := by simpa [contains] using hc
    refine List.nodup_append.2 ⟨h, by simp, fun a ha b hb => ?_⟩
    rintro rfl
    exact this (by simpa using List.mem_singleton.1 hb ▸ ha)

end Bank

end LinearScan
