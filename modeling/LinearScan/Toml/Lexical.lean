/-!
# Characters and blanks of TOML

## Main Definitions

* `Toml.Reader` — reads something off the front of a text
* `Toml.isTextChar` — the characters that comments and strings may hold
* `Toml.skipFiller` — blanks, comments and newlines between the items of an array
* `Toml.lineEnd?` — the end of a line, with an optional comment before it
-/

namespace LinearScan.Toml

/-- Reads something off the front of a text and returns it with the rest, or fails. -/
abbrev Reader (α : Type) := List Char → Option (α × List Char)

/-- Blanks inside a line. -/
def isBlank (c : Char) : Bool :=
  c == ' ' || c == '\t'

/-- The characters that a comment or a string may hold as they are: no control characters
except the tab. -/
def isTextChar (c : Char) : Bool :=
  c == '\t' || (' ' ≤ c && c != '\x7f')

/-- Drops the blanks in front. -/
def skipBlanks (cs : List Char) : List Char :=
  cs.dropWhile isBlank

/-- What follows a newline, of either kind. -/
def newline? : List Char → Option (List Char)
  | '\n' :: rest => some rest
  | '\r' :: '\n' :: rest => some rest
  | _ => none

/-- What follows a comment, if there is one. -/
def skipComment : List Char → List Char
  | '#' :: rest => rest.dropWhile isTextChar
  | cs => cs

/-- What follows the end of a line, in front of which blanks and a comment may stand. -/
def lineEnd? (cs : List Char) : Option (List Char) :=
  match skipComment (skipBlanks cs) with
  | [] => some []
  | rest => newline? rest

/-- Dropping characters makes no text longer. -/
theorem length_dropWhile_le (p : Char → Bool) (cs : List Char) :
    (cs.dropWhile p).length ≤ cs.length :=
  (List.dropWhile_suffix p).length_le

/-- A newline takes at least one character. -/
theorem length_newline? {cs rest : List Char} (h : newline? cs = some rest) :
    rest.length < cs.length := by
  unfold newline? at h
  split at h
  · cases h; simp
  · cases h
    simp only [List.length_cons]
    omega
  · cases h

/-- A comment takes no more than what is there. -/
theorem length_skipComment_le (cs : List Char) : (skipComment cs).length ≤ cs.length := by
  unfold skipComment
  split
  · have := length_dropWhile_le isTextChar ‹List Char›
    simp only [List.length_cons]
    omega
  · exact Nat.le_refl _

/-- Drops blanks, comments and newlines.  A comment must be ended by a newline. -/
def skipFiller (cs : List Char) : Option (List Char) :=
  let text := skipBlanks cs
  let rest := skipComment text
  match _h : newline? rest with
  | some next => skipFiller next
  | none => if rest.length < text.length then none else some text
termination_by cs.length
decreasing_by
  have h₁ : next.length < (skipComment (skipBlanks cs)).length := length_newline? _h
  have h₂ := length_skipComment_le (skipBlanks cs)
  have h₃ : (skipBlanks cs).length ≤ cs.length := length_dropWhile_le isBlank cs
  omega

/-- Reads a fixed word. -/
def word? (word : List Char) (cs : List Char) : Option (List Char) :=
  if cs.take word.length = word then some (cs.drop word.length) else none

end LinearScan.Toml
