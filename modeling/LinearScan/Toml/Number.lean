import LinearScan.Toml.Lexical
import LinearScan.Toml.Value

/-!
# Numbers and dates of TOML

## Main Definitions

* `Toml.integer?` — an integer in one of four bases
* `Toml.float?` — a decimal with a fraction or an exponent, or a special value
* `Toml.datetime?` — a date, a time, or both

## Design Notes

Digits may be set apart by single underscores.  Each reader takes what it can and leaves
the rest: a value that is followed by more than its line allows is refused there.
-/

namespace LinearScan.Toml

/-- Reads on in a run of digits, some of which may stand behind an underscore. -/
def moreDigits (isDigit : Char → Bool) : List Char → List Char × List Char
  | [] => ([], [])
  | [c] => if isDigit c then ([c], []) else ([], [c])
  | c :: d :: rest =>
    if isDigit c then
      let (digits, rest) := moreDigits isDigit (d :: rest)
      (c :: digits, rest)
    else if c = '_' ∧ isDigit d then
      let (digits, rest) := moreDigits isDigit rest
      (d :: digits, rest)
    else ([], c :: d :: rest)

/-- Reads a run of digits, which starts with one. -/
def digits? (isDigit : Char → Bool) : Reader (List Char)
  | c :: rest =>
    if isDigit c then
      let (digits, rest) := moreDigits isDigit rest
      some (c :: digits, rest)
    else none
  | [] => none

/-- The value of a digit of any base. -/
def digitValue (c : Char) : Nat :=
  if c.isDigit then c.toNat - '0'.toNat
  else if 'a' ≤ c then c.toNat - 'a'.toNat + 10
  else c.toNat - 'A'.toNat + 10

/-- The number that digits of a base spell. -/
def ofDigitsIn (base : Nat) (digits : List Char) : Nat :=
  digits.foldl (fun value digit => base * value + digitValue digit) 0

/-- Reads a sign, and says whether it is a minus. -/
def sign : List Char → Bool × List Char
  | '-' :: rest => (true, rest)
  | '+' :: rest => (false, rest)
  | cs => (false, cs)

/-- Reads decimal digits without an idle zero in front. -/
def wholeDigits? : Reader (List Char)
  | '0' :: rest => some (['0'], rest)
  | cs => digits? Char.isDigit cs

/-- Hexadecimal digits. -/
def isHexDigit (c : Char) : Bool :=
  c.isDigit || ('a' ≤ c && c ≤ 'f') || ('A' ≤ c && c ≤ 'F')

/-- Reads an integer, not yet held to its range. -/
def unboundedInteger? : Reader Int
  | '0' :: 'x' :: rest => (digits? isHexDigit rest).map fun (digits, rest) =>
    (ofDigitsIn 16 digits, rest)
  | '0' :: 'o' :: rest => (digits? (fun c => '0' ≤ c && c ≤ '7') rest).map fun (digits, rest) =>
    (ofDigitsIn 8 digits, rest)
  | '0' :: 'b' :: rest => (digits? (fun c => c == '0' || c == '1') rest).map fun (digits, rest) =>
    (ofDigitsIn 2 digits, rest)
  | cs => do
    let (negative, cs) := sign cs
    let (digits, rest) ← wholeDigits? cs
    let value : Int := ofDigitsIn 10 digits
    return (if negative then -value else value, rest)

/-- Reads an integer of 64 signed bits. -/
def integer? (cs : List Char) : Option (Int × List Char) := do
  let (value, rest) ← unboundedInteger? cs
  if -9223372036854775808 ≤ value ∧ value ≤ 9223372036854775807 then return (value, rest)
  else none

/-- Reads the digits behind a point. -/
def fraction? : Reader (List Char)
  | '.' :: rest => digits? Char.isDigit rest
  | _ => none

/-- Reads a power of ten. -/
def exponent? : Reader Int
  | c :: rest =>
    if c = 'e' ∨ c = 'E' then do
      let (negative, rest) := sign rest
      let (digits, rest) ← digits? Char.isDigit rest
      let value : Int := ofDigitsIn 10 digits
      return (if negative then -value else value, rest)
    else none
  | [] => none

/-- The double nearest to a decimal.  Beyond the largest there is only negative infinity. -/
def nearestDouble? (negative : Bool) (digits : Nat) (exponent : Int) : Option Double :=
  match Magnitude.ofDecimal? digits exponent with
  | some magnitude => some (.finite negative magnitude)
  | none => if negative then some (.infinite true) else none

/-- Reads a decimal with a fraction, an exponent, or both. -/
def decimal? (cs : List Char) : Option (Double × List Char) := do
  let (negative, cs) := sign cs
  let (whole, cs) ← wholeDigits? cs
  let (places, exponent, rest) ←
    match fraction? cs with
    | some (places, cs) =>
      match exponent? cs with
      | some (exponent, rest) => some (places, exponent, rest)
      | none => some (places, 0, cs)
    | none => (exponent? cs).map fun (exponent, rest) => ([], exponent, rest)
  let double ← nearestDouble? negative (ofDigitsIn 10 (whole ++ places))
    (exponent - places.length)
  return (double, rest)

/-- Reads an infinity or a value that is no number. -/
def specialFloat? (cs : List Char) : Option (Double × List Char) :=
  let (negative, cs) := sign cs
  match word? ['i', 'n', 'f'] cs with
  | some rest => some (.infinite negative, rest)
  | none => (word? ['n', 'a', 'n'] cs).map (.nan, ·)

/-- Reads a floating point number. -/
def float? (cs : List Char) : Option (Double × List Char) :=
  match decimal? cs with
  | some result => some result
  | none => specialFloat? cs

/-- Reads a number of exactly the given count of digits, within bounds. -/
def fixedDigits? (count low high : Nat) (cs : List Char) : Option (Nat × List Char) :=
  let digits := cs.take count
  let value := ofDigitsIn 10 digits
  if digits.length = count ∧ digits.all Char.isDigit ∧ low ≤ value ∧ value ≤ high then
    some (value, cs.drop count)
  else none

/-- The number of days of a month. -/
def daysIn (year month : Nat) : Nat :=
  if month = 2 then
    if year % 4 = 0 ∧ (year % 100 ≠ 0 ∨ year % 400 = 0) then 29 else 28
  else if month ∈ [4, 6, 9, 11] then 30
  else 31

/-- What follows a date. -/
def date? (cs : List Char) : Option (List Char) := do
  let (year, cs) ← fixedDigits? 4 0 9999 cs
  let cs ← word? ['-'] cs
  let (month, cs) ← fixedDigits? 2 1 12 cs
  let cs ← word? ['-'] cs
  let (_, cs) ← fixedDigits? 2 1 (daysIn year month) cs
  return cs

/-- What follows the fraction of a second, if there is one. -/
def skipSecondFraction : List Char → List Char
  | '.' :: c :: rest => if c.isDigit then rest.dropWhile Char.isDigit else '.' :: c :: rest
  | cs => cs

/-- What follows a time of day. -/
def time? (cs : List Char) : Option (List Char) := do
  let (_, cs) ← fixedDigits? 2 0 23 cs
  let cs ← word? [':'] cs
  let (_, cs) ← fixedDigits? 2 0 59 cs
  let cs ← word? [':'] cs
  let (_, cs) ← fixedDigits? 2 0 60 cs
  return skipSecondFraction cs

/-- What follows an offset from universal time. -/
def offset? : List Char → Option (List Char)
  | c :: rest =>
    if c = 'Z' ∨ c = 'z' then some rest
    else if c = '+' ∨ c = '-' then do
      let (_, cs) ← fixedDigits? 2 0 23 rest
      let cs ← word? [':'] cs
      let (_, cs) ← fixedDigits? 2 0 59 cs
      return cs
    else none
  | [] => none

/-- What follows a time of day behind a date, with an optional offset. -/
def timeOfDate? : List Char → Option (List Char)
  | c :: rest =>
    if c = 'T' ∨ c = 't' ∨ c = ' ' then
      (time? rest).map fun rest => (offset? rest).getD rest
    else none
  | [] => none

/-- What follows a date, a time, or both. -/
def datetime? (cs : List Char) : Option (List Char) :=
  match date? cs with
  | some rest => some ((timeOfDate? rest).getD rest)
  | none => time? cs

/-- Reads a number, a date or a time. -/
def number? (cs : List Char) : Option (Value × List Char) :=
  match datetime? cs with
  | some rest => some (.datetime, rest)
  | none =>
    match float? cs with
    | some (value, rest) => some (.float value, rest)
    | none => (integer? cs).map fun (value, rest) => (.integer value, rest)

end LinearScan.Toml
