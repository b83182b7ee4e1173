import LinearScan.Text.Invisible

/-!
# Quoted text

Messages quote pieces of input between double quotes, so that their ends and every
character in them can be seen.

## Main Definitions

* `Text.escape` — how one character is written between the quotes
* `Text.quote` — a whole text, quoted
-/

namespace LinearScan.Text

/-- The code of a character in lower-case hexadecimal digits. -/
def hexCode (c : Char) : String :=
  String.ofList (Nat.toDigits 16 c.toNat)

/-- How a character is written between quotes: the two marks and the usual blanks behind
a backslash, other characters that do not show by their code, all else as it is. -/
def escape (c : Char) : String :=
  if c = '\x00' then "\\0"
  else if c = '\t' then "\\t"
  else if c = '\n' then "\\n"
  else if c = '\r' then "\\r"
  else if c = '"' then "\\\""
  else if c = '\\' then "\\\\"
  else if isInvisible c then "\\u\x7b" ++ hexCode c ++ "\x7d"
  else c.toString

/-- A text between double quotes. -/
def quote (text : String) : String :=
  "\"" ++ String.join (text.toList.map escape) ++ "\""

end LinearScan.Text
