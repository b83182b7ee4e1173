/-!
# Tokens

Program text is cut into lexemes from left to right, each as long as it can be.
Blanks and comments stand between lexemes and are dropped; whatever fits no rule is a
lexeme of its own, marked invalid, and cutting goes on behind it.

## Main Definitions

* `Token` — what a lexeme says
* `Lexeme` — a token with its text and its place
* `Lexeme.ofText` — cuts a text into lexemes

## Design Notes

A word is cut whole before it is classified, so `t1x` is a name and `t1` a temp.  A
number or temp that is out of range is one invalid lexeme over all its characters.
Places are byte offsets into the UTF-8 text.
-/

namespace LinearScan

/-- What a lexeme says. -/
inductive Token where
  | temp (index : Nat)
  | number (value : Int)
  | ident (name : String)
  | param
  | free
  | colon
  | assign
  | comma
  | newline
  /-- Characters that fit no rule, or a number out of range. -/
  | invalid
deriving DecidableEq

namespace Token

/-- The name of a token's kind, as error messages give it. -/
def kind : Token → String
  | temp _ => "Temp"
  | number _ => "Number"
  | ident _ => "Ident"
  | param => "Param"
  | free => "Free"
  | colon => "Colon"
  | assign => "Assgn"
  | comma => "Comma"
  | newline => "Newline"
  | invalid => "Error"

/-- Temps are numbered with 32 bits. -/
def maxTemp : Nat := 4294967295

/-- The smallest number, that of 64 signed bits. -/
def minNumber : Int := -9223372036854775808

/-- The largest number, that of 64 signed bits. -/
def maxNumber : Int := 9223372036854775807

end Token

/-- Blanks that separate lexemes; a newline is a lexeme of its own. -/
def isBlank (c : Char) : Bool :=
  c == ' ' || c == '\t' || c == '\r' || c == '\x0c'

/-- Characters that start a word. -/
def isWordStart (c : Char) : Bool :=
  c.isAlpha || c == '_'

/-- Characters that continue a word. -/
def isWordChar (c : Char) : Bool :=
  c.isAlphanum || c == '_' || c == '.'

/-- The number that decimal digits spell. -/
def ofDigits (digits : List Char) : Nat :=
  digits.foldl (fun value digit => 10 * value + (digit.toNat - '0'.toNat)) 0

namespace Token

/-- The token of a temp's digits. -/
def ofTempDigits (digits : List Char) : Token :=
  let index := ofDigits digits
  if index ≤ maxTemp then temp index else invalid

/-- The token of a number. -/
def ofNumber (value : Int) : Token :=
  if minNumber ≤ value ∧ value ≤ maxNumber then number value else invalid

/-- The token of a whole word: a temp, a keyword or a name. -/
def ofWord (word : List Char) : Token :=
  let name := ident (String.ofList word)
  match word with
  | 't' :: digits =>
    if digits ≠ [] ∧ digits.all Char.isDigit then ofTempDigits digits else name
  | _ =>
    if word = "param".toList then param
    else if word = "free".toList then free
    else name

end Token

/-- A piece cut off a text, one character of which was already read. -/
structure Piece where
  /-- What the piece says; `none` for blanks and comments. -/
  token? : Option Token
  /-- The characters of the piece behind the first one. -/
  tail : List Char
  /-- The text behind the piece. -/
  rest : List Char

namespace Piece

/-- The piece that consists of the first character alone. -/
def single (token? : Option Token) (cs : List Char) : Piece :=
  ⟨token?, [], cs⟩

/-- The piece that goes on as long as the characters satisfy a test. -/
def span (p : Char → Bool) (cs : List Char) (token? : List Char → Option Token) : Piece :=
  ⟨token? (cs.takeWhile p), cs.takeWhile p, cs.dropWhile p⟩

/-- Cuts the first piece off a text that starts with `c`. -/
def ofText (c : Char) (cs : List Char) : Piece :=
  if isBlank c then .span isBlank cs fun _ => none
  else if c = ';' then .span (· != '\n') cs fun _ => none
  else if c = '\n' then single (some .newline) cs
  else if c = ':' then single (some .colon) cs
  else if c = '=' then single (some .assign) cs
  else if c = ',' then single (some .comma) cs
  else if c.isDigit then
    .span Char.isDigit cs fun digits => some (.ofNumber (ofDigits (c :: digits)))
  else if c = '-' ∧ (cs.head?.any Char.isDigit) then
    .span Char.isDigit cs fun digits => some (.ofNumber (-(ofDigits digits : Int)))
  else if isWordStart c then
    .span isWordChar cs fun word => some (.ofWord (c :: word))
  else single (some .invalid) cs

/-- Cutting loses no character and adds none. -/
theorem ofText_append (c : Char) (cs : List Char) :
    (ofText c cs).tail ++ (ofText c cs).rest = cs := by
  unfold ofText
  repeat' split
  all_goals simp [single, Piece.span, List.takeWhile_append_dropWhile]

/-- What is left behind a piece is no longer than the text was. -/
theorem length_rest_ofText (c : Char) (cs : List Char) :
    (ofText c cs).rest.length ≤ cs.length := by
  have h := congrArg List.length (ofText_append c cs)
  rw [List.length_append] at h
  omega

end Piece

/-- The number of bytes that characters take in UTF-8. -/
def utf8Length : List Char → Nat
  | [] => 0
  | c :: cs => c.utf8Size + utf8Length cs

/-- A token with its text and its place. -/
structure Lexeme where
  token : Token
  text : List Char
  /-- Byte offset of the first character. -/
  start : Nat

namespace Lexeme

/-- Byte offset just behind the last character. -/
def stop (lexeme : Lexeme) : Nat :=
  lexeme.start + utf8Length lexeme.text

/-- Cuts characters that stand at a byte offset into lexemes. -/
def scan (offset : Nat) (cs : List Char) : List Lexeme :=
  match cs with
  | [] => []
  | c :: cs =>
    let piece := Piece.ofText c cs
    let lexemes := scan (offset + utf8Length (c :: piece.tail)) piece.rest
    match piece.token? with
    | none => lexemes
    | some token => ⟨token, c :: piece.tail, offset⟩ :: lexemes
termination_by cs.length
decreasing_by
  have := Piece.length_rest_ofText c cs
  simp only [List.length_cons]
  omega

/-- Cuts a text into lexemes. -/
def ofText (source : String) : List Lexeme :=
  scan 0 source.toList

end Lexeme

end LinearScan
