import LinearScan.Toml.Value

/-!
# Putting tables together

The keys of a document name places in nested tables.  Whether a place may still be added
to depends on how the tables on the way came about.

## Main Definitions

* `Toml.Descent` — a way to go down into tables
* `Toml.Entries.alter?` — changes the table at the end of a path
* `Toml.Entries.define?` — gives a key its value
* `Toml.Entries.addTable?`, `Toml.Entries.addElement?` — add what stands under a header

## Design Notes

A table is defined once.  Its own header may come behind those of the tables inside it,
and then the table moves to the end of its parent.  Dotted keys add only to tables that
dotted keys made.
-/

namespace LinearScan.Toml

/-- A way to go down into nested tables. -/
inductive Descent where
  /-- Along the path of a header. -/
  | header
  /-- Along a dotted key of a line. -/
  | dotted
  /-- Along a dotted key between braces. -/
  | inlined
deriving DecidableEq

namespace Descent

/-- The tables that are made on the way where there are none. -/
def makes : Descent → TableOrigin
  | header => .ancestor
  | dotted => .dotted
  | inlined => .inlinedDotted

/-- The tables that the way may lead through. -/
def enters : Descent → TableOrigin → Bool
  | header, .header | header, .ancestor | header, .dotted => true
  | dotted, .ancestor | dotted, .dotted => true
  | inlined, .inlinedDotted => true
  | _, _ => false

end Descent

namespace Entries

/-- Changes the table that a path leads to, given the table it starts in with its origin.
A path leads through the last element of an array of tables. -/
def alter? (descent : Descent) (change : TableOrigin → Entries → Option Entries) :
    List String → TableOrigin → Entries → Option Entries
  | [], origin, entries => change origin entries
  | key :: path, _, entries =>
    match entries.get? key with
    | none => do
      let child ← alter? descent change path descent.makes []
      return entries.push key (.table descent.makes child)
    | some (.table origin child) =>
      if descent.enters origin then do
        let child ← alter? descent change path origin child
        return entries.replace key (.table origin child)
      else none
    | some (.tableArray tables) =>
      match tables.getLast? with
      | some (.table origin child) => do
        let child ← alter? descent change path origin child
        return entries.replace key (.tableArray (tables.dropLast ++ [.table origin child]))
      | _ => none
    | some _ => none

/-- Gives a key its value, in a table that the parts before the last lead to. -/
def define? (descent : Descent) (origin : TableOrigin) (entries : Entries) (key : List String)
    (value : Value) : Option Entries := do
  let name ← key.getLast?
  let path := key.dropLast
  entries.alter? descent (fun origin table =>
    if origin.isDotted = path.isEmpty ∨ (table.get? name).isSome then none
    else some (table.push name value)) path origin

/-- Fills a table with keys and their values. -/
def fill? (descent : Descent) (origin : TableOrigin) (entries : Entries)
    (pairs : List (List String × Value)) : Option Entries :=
  pairs.foldlM (fun entries (key, value) => entries.define? descent origin key value) entries

/-- Adds the table of a header with what stands under it. -/
def addTable? (root : Entries) (key : List String) (pairs : List (List String × Value)) :
    Option Entries := do
  let name ← key.getLast?
  root.alter? .header (fun _ parent => do
    let table ←
      match parent.get? name with
      | none => some []
      | some (.table .ancestor table) => some table
      | some _ => none
    let table ← fill? .dotted .header table pairs
    return (parent.erase name).push name (.table .header table)) key.dropLast .header

/-- Adds an element to the array of tables of a header, with what stands under it. -/
def addElement? (root : Entries) (key : List String) (pairs : List (List String × Value)) :
    Option Entries := do
  let name ← key.getLast?
  root.alter? .header (fun _ parent => do
    let table ← fill? .dotted .header [] pairs
    match parent.get? name with
    | none => return parent.push name (.tableArray [.table .header table])
    | some (.tableArray tables) =>
      return parent.replace name (.tableArray (tables ++ [.table .header table]))
    | some _ => none) key.dropLast .header

end Entries

end LinearScan.Toml
