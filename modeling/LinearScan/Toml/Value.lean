import LinearScan.Decimal.Shortest

/-!
# TOML values

What a TOML document holds.

## Main Definitions

* `Toml.Value` — a value; a document is a table
* `Toml.TableOrigin` — how a table came about
* `Toml.Entries` — the keys of a table in the order of the document

## Design Notes

A table remembers how it came about, since that decides what may still be added to it.
The contents of dates and times are not kept: the format has them, but no description
here asks for one.
-/

namespace LinearScan.Toml

/-- How a table came about. -/
inductive TableOrigin where
  /-- By a header of its own, or as an element of an array of tables. -/
  | header
  /-- By the header of a table inside it. -/
  | ancestor
  /-- By a dotted key. -/
  | dotted
  /-- As a value between braces. -/
  | inlined
  /-- By a dotted key between braces. -/
  | inlinedDotted
deriving DecidableEq

/-- Whether a table came about by a dotted key. -/
def TableOrigin.isDotted : TableOrigin → Bool
  | dotted | inlinedDotted => true
  | header | ancestor | inlined => false

/-- A TOML value. -/
inductive Value where
  | string (text : String)
  | integer (value : Int)
  | float (value : Double)
  | boolean (value : Bool)
  /-- A date, a time, or both. -/
  | datetime
  | array (items : List Value)
  /-- Tables under one header, each of them a `table`. -/
  | tableArray (tables : List Value)
  | table (origin : TableOrigin) (entries : List (String × Value))

/-- The keys of a table with their values, in the order of the document. -/
abbrev Entries := List (String × Value)

namespace Entries

/-- The value of a key. -/
def get? (entries : Entries) (key : String) : Option Value :=
  (entries.find? (·.1 == key)).map (·.2)

/-- Adds a key behind all others. -/
def push (entries : Entries) (key : String) (value : Value) : Entries :=
  entries ++ [(key, value)]

/-- Changes the value of a key that is present. -/
def replace (entries : Entries) (key : String) (value : Value) : Entries :=
  entries.map fun entry => if entry.1 = key then (key, value) else entry

/-- Removes a key. -/
def erase (entries : Entries) (key : String) : Entries :=
  entries.filter (·.1 != key)

end Entries

end LinearScan.Toml
