import LinearScan.Toml.Lexical

/-!
# Strings and keys of TOML

Strings stand between one or three marks.  Between double marks a backslash starts an
escape; between single marks every character stands for itself.

## Main Definitions

* `Toml.string?` — a string of any of the four kinds
* `Toml.key?` — a key, whose parts are separated by dots

## Design Notes

Up to two marks may stand directly before the three that close a string.  A newline in a
string is one character, however the document writes it, and one directly behind the
opening marks is dropped.
-/

namespace LinearScan.Toml

/-- The value of a hexadecimal digit. -/
def hexValue? (c : Char) : Option Nat :=
  if c.isDigit then some (c.toNat - '0'.toNat)
  else if 'a' ≤ c ∧ c ≤ 'f' then some (c.toNat - 'a'.toNat + 10)
  else if 'A' ≤ c ∧ c ≤ 'F' then some (c.toNat - 'A'.toNat + 10)
  else none

/-- The character of a code in hexadecimal digits. -/
def hexChar? (digits : List Char) : Option Char := do
  let values ← digits.mapM hexValue?
  let code := values.foldl (fun code value => 16 * code + value) 0
  if code.isValidChar then return Char.ofNat code else none

/-- The character that a letter behind a backslash stands for. -/
def escaped? (c : Char) : Option Char :=
  match c with
  | 'b' => some '\x08'
  | 't' => some '\t'
  | 'n' => some '\n'
  | 'f' => some '\x0c'
  | 'r' => some '\r'
  | '"' => some '"'
  | '\\' => some '\\'
  | _ => none

/-- Reads an escape, behind its backslash. -/
def escape? : Reader Char
  | 'u' :: rest =>
    if 4 ≤ rest.length then (hexChar? (rest.take 4)).map (·, rest.drop 4) else none
  | 'U' :: rest =>
    if 8 ≤ rest.length then (hexChar? (rest.take 8)).map (·, rest.drop 8) else none
  | c :: rest => (escaped? c).map (·, rest)
  | [] => none

/-- An escape takes at least one character. -/
theorem length_escape? {cs rest : List Char} {c : Char} (h : escape? cs = some (c, rest)) :
    rest.length < cs.length := by
  unfold escape? at h
  split at h
  · split at h
    · obtain ⟨_, _, h⟩ := Option.map_eq_some_iff.1 h
      cases h
      simp only [List.length_drop, List.length_cons]
      omega
    · cases h
  · split at h
    · obtain ⟨_, _, h⟩ := Option.map_eq_some_iff.1 h
      cases h
      simp only [List.length_drop, List.length_cons]
      omega
    · cases h
  · obtain ⟨_, _, h⟩ := Option.map_eq_some_iff.1 h
    cases h; simp
  · cases h

/-- Drops blanks and newlines. -/
def skipLines (cs : List Char) : List Char :=
  match _h : newline? (skipBlanks cs) with
  | some rest => skipLines rest
  | none => skipBlanks cs
termination_by cs.length
decreasing_by
  have h₁ := length_newline? _h
  have h₂ := length_dropWhile_le isBlank cs
  simp only [skipBlanks] at *
  omega

/-- Dropping lines makes no text longer. -/
theorem length_skipLines_le (cs : List Char) : (skipLines cs).length ≤ cs.length := by
  fun_induction skipLines cs with
  | case1 cs rest h ih =>
    have h₁ := length_newline? h
    have h₂ := length_dropWhile_le isBlank cs
    simp only [skipBlanks] at *
    omega
  | case2 cs h => exact length_dropWhile_le isBlank cs

/-- What follows a line end behind a backslash, with the blank space that comes after. -/
def lineContinuation? (cs : List Char) : Option (List Char) :=
  (newline? (skipBlanks cs)).map skipLines

/-- A line continuation takes at least one character. -/
theorem length_lineContinuation? {cs rest : List Char} (h : lineContinuation? cs = some rest) :
    rest.length < cs.length := by
  obtain ⟨next, hn, rfl⟩ := Option.map_eq_some_iff.1 h
  have h₁ := length_newline? hn
  have h₂ := length_skipLines_le next
  have h₃ := length_dropWhile_le isBlank cs
  simp only [skipBlanks] at *
  omega

/-- A kind of string. -/
structure StringKind where
  /-- The character that opens and closes the string. -/
  mark : Char
  /-- Whether a backslash starts an escape. -/
  escapes : Bool
  /-- Whether the string stands between three marks and may hold newlines. -/
  multiline : Bool

/-- The marks that still belong to a string whose closing marks have just been read. -/
def StringKind.trailing (kind : StringKind) (cs : List Char) : List Char × List Char :=
  let count := ((cs.take 2).takeWhile (· == kind.mark)).length
  (cs.take count, cs.drop count)

/-- Whether a text goes on with the second and third closing mark. -/
def StringKind.closes (kind : StringKind) (cs : List Char) : Bool :=
  cs.take 2 == [kind.mark, kind.mark]

/-- Reads the characters of a string, behind its opening, up to and with its closing. -/
def StringKind.body? (kind : StringKind) (cs : List Char) : Option (List Char × List Char) :=
  match cs with
  | [] => none
  | c :: rest =>
    if c = kind.mark then
      if !kind.multiline then some ([], rest)
      else if kind.closes rest then some (kind.trailing (rest.drop 2))
      else (kind.body? rest).map fun (text, rest) => (c :: text, rest)
    else if c = '\\' ∧ kind.escapes then
      match _h : lineContinuation? rest, kind.multiline with
      | some next, true => kind.body? next
      | _, _ =>
        match _h : escape? rest with
        | some (escaped, next) =>
          (kind.body? next).map fun (text, rest) => (escaped :: text, rest)
        | none => none
    else
      match _h : newline? (c :: rest), kind.multiline with
      | some next, true => (kind.body? next).map fun (text, rest) => ('\n' :: text, rest)
      | _, _ =>
        if isTextChar c then (kind.body? rest).map fun (text, rest) => (c :: text, rest)
        else none
termination_by cs.length
decreasing_by
  · simp
  · have := length_lineContinuation? _h
    simp only [List.length_cons]
    omega
  · have := length_escape? _h
    simp only [List.length_cons]
    omega
  · exact length_newline? _h
  · simp

/-- Reads a string of a kind, behind its opening marks. -/
def StringKind.read? (kind : StringKind) (cs : List Char) : Option (String × List Char) :=
  let start := if kind.multiline then (newline? cs).getD cs else cs
  (kind.body? start).map fun (text, rest) => (String.ofList text, rest)

/-- Reads a string between single marks of either kind. -/
def lineString? : Reader String
  | '"' :: rest => StringKind.read? ⟨'"', true, false⟩ rest
  | '\'' :: rest => StringKind.read? ⟨'\'', false, false⟩ rest
  | _ => none

/-- Reads a string of any kind. -/
def string? : Reader String
  | '"' :: '"' :: '"' :: rest => StringKind.read? ⟨'"', true, true⟩ rest
  | '\'' :: '\'' :: '\'' :: rest => StringKind.read? ⟨'\'', false, true⟩ rest
  | cs => lineString? cs

/-- Characters of a key that stands without marks. -/
def isKeyChar (c : Char) : Bool :=
  c.isAlphanum || c == '_' || c == '-'

/-- Reads one part of a key. -/
def keyPart? (cs : List Char) : Option (String × List Char) :=
  match lineString? cs with
  | some result => some result
  | none =>
    match cs.takeWhile isKeyChar with
    | [] => none
    | part => some (String.ofList part, cs.dropWhile isKeyChar)

/-- Reads the parts of a key, of which at most the given number may follow; blanks may
stand around each. -/
def keyParts? : Nat → Reader (List String)
  | 0, _ => none
  | count + 1, cs => do
    let (part, rest) ← keyPart? (skipBlanks cs)
    match skipBlanks rest with
    | '.' :: rest =>
      let (parts, rest) ← keyParts? count rest
      return (part :: parts, rest)
    | rest => return ([part], rest)

/-- Values and keys may be nested less deep than this. -/
def nestingLimit : Nat := 80

/-- Reads a key. -/
def key? : Reader (List String) :=
  keyParts? (nestingLimit - 1)

end LinearScan.Toml
