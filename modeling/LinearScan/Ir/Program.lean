import LinearScan.Ir.Instr
import LinearScan.Ir.Token
import LinearScan.Text.Quoted

/-!
# Programs

Program text holds one instruction a line:

    param t0:i64
    t1:i32 = add t0, 4
    store t1, t0
    free t0

## Main Definitions

* `ParseError` — a line number with what is wrong there
* `Program.ofText` — reads a text into instructions

## Design Notes

An invalid lexeme anywhere is reported before any line is read.  A line sees the temps
that earlier lines define, and its own result comes into scope behind its operands.
-/

namespace LinearScan

/-- What is wrong with a line. -/
inductive ParseCause where
  | unexpectedInput (text : String)
  | unknownType (name : String)
  | definedTwice (temp : TempId)
  | usedBeforeDefinition (temp : TempId)
  | unexpectedToken (token : Token)
  | danglingComma
  | malformed
deriving DecidableEq

/-- What a cause says. -/
def ParseCause.message : ParseCause → String
  | unexpectedInput text => s!"unexpected input {Text.quote text}"
  | unknownType name => s!"unknown value type {name}"
  | definedTwice temp => s!"{temp.text} defined twice"
  | usedBeforeDefinition temp => s!"{temp.text} used before definition"
  | unexpectedToken token => s!"unexpected {token.kind} in operand list"
  | danglingComma => "dangling comma in operand list"
  | malformed => "malformed instruction"

/-- Why a program cannot be read. -/
structure ParseError where
  /-- The number of the line, counted from one. -/
  line : Nat
  cause : ParseCause
deriving DecidableEq

/-- What a parse error says. -/
def ParseError.message (error : ParseError) : String :=
  s!"line {error.line}: {error.cause.message}"

/-- The temps defined so far. -/
structure Scope where
  temps : List Temp

namespace Scope

/-- No temp defined yet. -/
def empty : Scope := ⟨[]⟩

/-- The definition of a temp. -/
def get? (scope : Scope) (id : TempId) : Option Temp :=
  scope.temps.find? fun temp => temp.id == id

/-- The definition of a temp that a line mentions. -/
def lookup (scope : Scope) (id : TempId) : Except ParseCause Temp :=
  match scope.get? id with
  | some temp => .ok temp
  | none => .error (.usedBeforeDefinition id)

/-- Defines a temp with a type of the given name. -/
def declare (scope : Scope) (id : TempId) (typeName : String) :
    Except ParseCause (Temp × Scope) :=
  match ValueType.ofName? typeName with
  | none => .error (.unknownType typeName)
  | some type =>
    if (scope.get? id).isSome then .error (.definedTwice id)
    else
      let temp := Temp.ofType id type
      .ok (temp, ⟨temp :: scope.temps⟩)

/-- Reads one operand. -/
def operand (scope : Scope) : Token → Except ParseCause Operand
  | .temp index => (scope.lookup ⟨index⟩).map .temp
  | .number value => .ok (.const value)
  | token => .error (.unexpectedToken token)

/-- Reads operands that are separated by commas; there may be none. -/
def operands (scope : Scope) : List Token → Except ParseCause (List Operand)
  | [] => .ok []
  | [token] => do
    let operand ← scope.operand token
    return [operand]
  | [token, separator] => do
    let _ ← scope.operand token
    if separator = .comma then .error .danglingComma else .error (.unexpectedToken separator)
  | token :: separator :: next :: rest => do
    let operand ← scope.operand token
    if separator = .comma then
      let operands ← scope.operands (next :: rest)
      return operand :: operands
    else
      .error (.unexpectedToken separator)

/-- Reads one line.  An empty line holds no instruction. -/
def instr (scope : Scope) : List Token → Except ParseCause (Option Instr × Scope)
  | [] => .ok (none, scope)
  | [.param, .temp index, .colon, .ident typeName] => do
    let (dest, scope) ← scope.declare ⟨index⟩ typeName
    return (some (.param dest), scope)
  | [.free, .temp index] => do
    let temp ← scope.lookup ⟨index⟩
    return (some (.free temp), scope)
  | .temp index :: .colon :: .ident typeName :: .assign :: .ident name :: rest => do
    let srcs ← scope.operands rest
    let (dest, scope) ← scope.declare ⟨index⟩ typeName
    return (some (.op name (some dest) srcs), scope)
  | .ident name :: rest => do
    let srcs ← scope.operands rest
    return (some (.op name none srcs), scope)
  | _ => .error .malformed

end Scope

namespace Program

/-- The error of the first invalid lexeme, if there is one; the first of the given
lexemes stands on the given line. -/
def firstInvalid? (line : Nat) : List Lexeme → Option ParseError
  | [] => none
  | lexeme :: rest =>
    match lexeme.token with
    | .invalid => some ⟨line, .unexpectedInput (String.ofList lexeme.text)⟩
    | .newline => firstInvalid? (line + 1) rest
    | _ => firstInvalid? line rest

/-- The tokens of each line.  There is one line more than there are newlines. -/
def tokenLines : List Token → List (List Token)
  | [] => [[]]
  | .newline :: rest => [] :: tokenLines rest
  | token :: rest =>
    match tokenLines rest with
    | [] => [[token]]
    | line :: lines => (token :: line) :: lines

/-- Reads lines in order, the first of which has the given number. -/
def ofLines (scope : Scope) (number : Nat) :
    List (List Token) → Except ParseError (List Instr)
  | [] => .ok []
  | line :: lines =>
    match scope.instr line with
    | .error cause => .error ⟨number, cause⟩
    | .ok (instr?, scope) => do
      let instrs ← ofLines scope (number + 1) lines
      return instr?.toList ++ instrs

/-- Reads a text into instructions. -/
def ofText (source : String) : Except ParseError (List Instr) :=
  let lexemes := Lexeme.ofText source
  match firstInvalid? 1 lexemes with
  | some error => .error error
  | none => ofLines .empty 1 (tokenLines (lexemes.map (·.token)))

/-- A program as text, one instruction a line. -/
def text (instrs : List Instr) : String :=
  "\n".intercalate (instrs.map Instr.text)

end Program

end LinearScan
