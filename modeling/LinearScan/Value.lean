/-!
# Value types

The types of the values that a program computes, and the predicates by which a
register says which of them it takes.

## Main Definitions

* `ValueType` — the eight types, each with a name, a natural size and a class
* `TypePredicate` — a named test on value types

## Design Notes

Predicates are told apart by name alone.  Two registers whose predicates carry
one name are served from one pool, and that pool keeps the test it was made with.
-/

namespace LinearScan

/-- The broad kinds of value a register may be built for. -/
inductive ValueClass where
  /-- Integers and pointers. -/
  | integer
  /-- Single and double precision. -/
  | floating
  /-- The 80-bit format. -/
  | extended
deriving DecidableEq

/-- The type of a value. -/
inductive ValueType where
  | i8
  | i16
  | i32
  | i64
  | ptr
  | f32
  | f64
  | f80
deriving DecidableEq

namespace ValueType

/-- Every value type, integers first and each kind by ascending size. -/
def all : List ValueType :=
  [i8, i16, i32, i64, ptr, f32, f64, f80]

/-- The spelling of a type in program text. -/
def name : ValueType → String
  | i8 => "i8"
  | i16 => "i16"
  | i32 => "i32"
  | i64 => "i64"
  | ptr => "ptr"
  | f32 => "f32"
  | f64 => "f64"
  | f80 => "f80"

/-- The natural size of a type in bytes. -/
def size : ValueType → Nat
  | i8 => 1
  | i16 => 2
  | i32 | f32 => 4
  | i64 | ptr | f64 => 8
  | f80 => 10

/-- The class a type belongs to. -/
def valueClass : ValueType → ValueClass
  | i8 | i16 | i32 | i64 | ptr => .integer
  | f32 | f64 => .floating
  | f80 => .extended

/-- The type of a given name. -/
def ofName? (name : String) : Option ValueType :=
  all.find? fun type => type.name == name

/-- The list of all types misses none. -/
theorem mem_all (type : ValueType) : type ∈ all := by
  cases type <;> decide

/-- A type is found again under its own name. -/
@[simp] theorem ofName?_name (type : ValueType) : ofName? type.name = some type := by
  cases type <;> decide

end ValueType

/-- A named test of whether a value type may live in a register. -/
structure TypePredicate where
  /-- What target descriptions call the predicate. -/
  name : String
  /-- The test itself. -/
  accepts : ValueType → Bool

namespace TypePredicate

/-- Integers and pointers. -/
def integer : TypePredicate :=
  ⟨"integer", fun type => type.valueClass == .integer⟩

/-- Any floating type, extended precision included. -/
def floating : TypePredicate :=
  ⟨"floating", fun type => type.valueClass != .integer⟩

/-- Floating types that fit a vector lane, so not extended precision. -/
def sse : TypePredicate :=
  ⟨"sse", fun type => type.valueClass == .floating⟩

/-- Extended precision only. -/
def extended : TypePredicate :=
  ⟨"extended", fun type => type.valueClass == .extended⟩

/-- Every type. -/
def any : TypePredicate :=
  ⟨"any", fun _ => true⟩

/-- The predicates that a target file may name. -/
def builtin : List TypePredicate :=
  [integer, floating, sse, extended, any]

/-- The built-in predicate of a given name. -/
def ofName? (name : String) : Option TypePredicate :=
  builtin.find? fun predicate => predicate.name == name

/-- The types that a predicate accepts, in the order of `ValueType.all`. -/
def acceptedTypes (predicate : TypePredicate) : List ValueType :=
  ValueType.all.filter predicate.accepts

/-- How a predicate is shown in diagnostics. -/
def describe (predicate : TypePredicate) : String :=
  s!"TypePredicate({predicate.name})"

/-- A type is listed as accepted exactly if the test says so. -/
@[simp] theorem mem_acceptedTypes {predicate : TypePredicate} {type : ValueType} :
    type ∈ predicate.acceptedTypes ↔ predicate.accepts type = true := by
  simp [acceptedTypes, ValueType.mem_all]

end TypePredicate

end LinearScan
