/-!
# JSON text

Reports are written as JSON with two blanks of indentation a level.

## Main Definitions

* `Text.Json` — the values that reports hold
* `Text.Json.pretty` — a value as text over several lines
-/

namespace LinearScan.Text

/-- A JSON value, as far as reports need it. -/
inductive Json where
  | string (text : String)
  | number (value : Nat)
  | array (items : List Json)
  /-- Fields in the order in which they are written. -/
  | object (fields : List (String × Json))

namespace Json

/-- A hexadecimal number of four digits. -/
def fourHexDigits (n : Nat) : String :=
  let digits := Nat.toDigits 16 n
  String.ofList (List.replicate (4 - digits.length) '0' ++ digits)

/-- How a character is written between quotes. -/
def escape (c : Char) : String :=
  if c = '"' then "\\\""
  else if c = '\\' then "\\\\"
  else if c = '\x08' then "\\b"
  else if c = '\x0c' then "\\f"
  else if c = '\n' then "\\n"
  else if c = '\r' then "\\r"
  else if c = '\t' then "\\t"
  else if c < ' ' then "\\u" ++ fourHexDigits c.toNat
  else c.toString

/-- A text between quotes. -/
def quote (text : String) : String :=
  "\"" ++ String.join (text.toList.map escape) ++ "\""

/-- A line break with the indentation of a level. -/
def lineBreak (level : Nat) : String :=
  "\n" ++ String.ofList (List.replicate (2 * level) ' ')

/-- Items between brackets, each on a line of its own. -/
def block (opening closing : String) (level : Nat) (items : List String) : String :=
  match items with
  | [] => opening ++ closing
  | _ =>
    opening ++ ",".intercalate (items.map fun item => lineBreak (level + 1) ++ item)
      ++ lineBreak level ++ closing

mutual

/-- A value as text, whose first line stands at the given level. -/
def prettyAt (level : Nat) : Json → String
  | string text => quote text
  | number value => toString value
  | array items => block "[" "]" level (prettyItems (level + 1) items)
  | object fields => block "\x7b" "\x7d" level (prettyFields (level + 1) fields)

/-- The items of an array as text. -/
def prettyItems (level : Nat) : List Json → List String
  | [] => []
  | item :: rest => prettyAt level item :: prettyItems level rest

/-- The fields of an object as text. -/
def prettyFields (level : Nat) : List (String × Json) → List String
  | [] => []
  | (name, value) :: rest =>
    (quote name ++ ": " ++ prettyAt level value) :: prettyFields level rest

end

/-- A value as text over several lines. -/
def pretty (value : Json) : String :=
  prettyAt 0 value

end Json

end LinearScan.Text
