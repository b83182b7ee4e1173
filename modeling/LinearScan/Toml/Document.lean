import LinearScan.Toml.Number
import LinearScan.Toml.Table
import LinearScan.Toml.Text

/-!
# TOML documents

A document is read line by line into statements, which are then put together into one
table.

## Main Definitions

* `Toml.value?` — a value, nested less deep than a limit
* `Toml.Statement` — what a line says
* `Toml.Document.ofText?` — the table that a text describes
-/

namespace LinearScan.Toml

/-- Reads the items of an array, behind its opening bracket.  A comma may follow the last
item, and comments and newlines may stand anywhere between. -/
def items? (item : Reader Value) (cs : List Char) : Option (List Value × List Char) := do
  let start ← skipFiller cs
  match start with
  | ']' :: rest => return ([], rest)
  | _ =>
    let (value, rest) ← item start
    let rest ← skipFiller rest
    match rest with
    | ']' :: rest => return ([value], rest)
    | ',' :: rest =>
      if rest.length < cs.length then
        let (values, rest) ← items? item rest
        return (value :: values, rest)
      else none
    | _ => none
termination_by cs.length

/-- Reads a key with its value, which is read by the given reader. -/
def pair? (item : Reader Value) (cs : List Char) :
    Option ((List String × Value) × List Char) := do
  let (key, rest) ← key? cs
  match rest with
  | '=' :: rest =>
    let (value, rest) ← item (skipBlanks rest)
    return ((key, value), rest)
  | _ => none

/-- Reads the pairs of a table between braces, behind the opening brace, of which there is
at least one. -/
def pairs? (item : Reader Value) (cs : List Char) :
    Option (List (List String × Value) × List Char) := do
  let (pair, rest) ← pair? item cs
  match skipBlanks rest with
  | '\x7d' :: rest => return ([pair], rest)
  | ',' :: rest =>
    if rest.length < cs.length then
      let (pairs, rest) ← pairs? item rest
      return (pair :: pairs, rest)
    else none
  | _ => none
termination_by cs.length

/-- Reads a table between braces, behind the opening brace. -/
def inlineTable? (item : Reader Value) (cs : List Char) : Option (Value × List Char) := do
  let (pairs, rest) ←
    match skipBlanks cs with
    | '\x7d' :: rest => some ([], rest)
    | _ => pairs? item cs
  let entries ← Entries.fill? .inlined .inlined [] pairs
  return (.table .inlined entries, rest)

/-- Reads a value that holds no other values. -/
def scalar? (cs : List Char) : Option (Value × List Char) :=
  match cs with
  | [] => none
  | c :: _ =>
    if c = '"' ∨ c = '\'' then (string? cs).map fun (text, rest) => (.string text, rest)
    else if c = '+' ∨ c = '-' ∨ c.isDigit then number? cs
    else if c = 't' then (word? ['t', 'r', 'u', 'e'] cs).map (.boolean true, ·)
    else if c = 'f' then (word? ['f', 'a', 'l', 's', 'e'] cs).map (.boolean false, ·)
    else (specialFloat? cs).map fun (value, rest) => (.float value, rest)

/-- Reads a value that is nested at most to the given depth. -/
def value? : Nat → Reader Value
  | 0 => scalar?
  | depth + 1 => fun cs =>
    match cs with
    | '[' :: rest => (items? (value? depth) rest).map fun (items, rest) => (.array items, rest)
    | '\x7b' :: rest => inlineTable? (value? depth) rest
    | _ => scalar? cs

/-- A header. -/
inductive Header where
  /-- The header of a table. -/
  | table (key : List String)
  /-- The header of an element of an array of tables. -/
  | element (key : List String)

/-- What a line says. -/
inductive Statement where
  | pair (key : List String) (value : Value)
  | header (header : Header)

/-- Reads a header, behind its opening brackets. -/
def header? (closing : List Char) (cs : List Char) : Option (List String × List Char) := do
  let (key, rest) ← key? cs
  let rest ← word? closing rest
  return (key, rest)

/-- Reads the statement of a line that is not empty, up to what may follow it. -/
def statement? : Reader Statement
  | '[' :: '[' :: rest => (header? [']', ']'] rest).map fun (key, rest) => (.header (.element key), rest)
  | '[' :: rest => (header? [']'] rest).map fun (key, rest) => (.header (.table key), rest)
  | cs => (pair? (value? (nestingLimit - 1)) cs).map fun ((key, value), rest) =>
    (.pair key value, rest)

/-- Reads the statements of a text. -/
def statements? (cs : List Char) : Option (List Statement) :=
  match lineEnd? cs with
  | some [] => some []
  | some rest => if rest.length < cs.length then statements? rest else none
  | none => do
    let (statement, rest) ← statement? (skipBlanks cs)
    let rest ← lineEnd? rest
    if rest.length < cs.length then
      let statements ← statements? rest
      return statement :: statements
    else none
termination_by cs.length

/-- A header with what stands under it. -/
structure Section where
  header : Header
  pairs : List (List String × Value)

/-- Groups statements under their headers; those before the first header come first. -/
def groupSections : List Statement → List (List String × Value) × List Section
  | [] => ([], [])
  | .pair key value :: rest =>
    let (pairs, sections) := groupSections rest
    ((key, value) :: pairs, sections)
  | .header header :: rest =>
    let (pairs, sections) := groupSections rest
    ([], ⟨header, pairs⟩ :: sections)

/-- Adds a section to a document. -/
def Section.addTo? (group : Section) (root : Entries) : Option Entries :=
  match group.header with
  | .table key => root.addTable? key group.pairs
  | .element key => root.addElement? key group.pairs

namespace Document

/-- Drops the mark by which a text may say that it is Unicode. -/
def skipMark : List Char → List Char
  | '\ufeff' :: rest => rest
  | cs => cs

/-- The table that a text describes, if it is a TOML document. -/
def ofText? (source : String) : Option Entries := do
  let statements ← statements? (skipMark source.toList)
  let (pairs, sections) := groupSections statements
  let root ← Entries.fill? .dotted .header [] pairs
  sections.foldlM (fun root group => group.addTo? root) root

end Document

end LinearScan.Toml
