import LinearScan.Text.Quoted
import LinearScan.Toml.Document

/-!
# Reading data out of TOML

A description expects certain keys with values of certain types.  What does not fit is
reported in the order of the document, and what is missing after that.

## Main Definitions

* `Toml.DecodeError` — how a document fails to fit a description
* `Toml.Value.asString`, `Toml.Value.asWord`, `Toml.Value.asBoolean`, `Toml.Value.asList`,
  `Toml.Value.asChoice` — values of expected types
* `Toml.Error` — why a text cannot be used at all
-/

namespace LinearScan.Toml

/-- What an error message says of a value that does not fit. -/
inductive Shape where
  | string (text : String)
  | integer (value : Int)
  | float (value : Double)
  | boolean (value : Bool)
  | sequence
  | map
deriving DecidableEq

/-- How a message names a value. -/
def Shape.text : Shape → String
  | string text => s!"string {Text.quote text}"
  | integer value => s!"integer `{value}`"
  | float value => s!"floating point `{value.text}`"
  | boolean value => s!"boolean `{value}`"
  | sequence => "sequence"
  | map => "map"

/-- How a document fails to fit a description. -/
inductive DecodeError where
  | missingField (name : String)
  | unknownField (name : String) (expected : List String)
  | invalidType (found : Shape) (expected : String)
  | invalidInteger (value : Int) (expected : String)
  | invalidLength (length : Nat) (expected : String)
  | unknownVariant (name : String) (expected : List String)
  /-- A choice that is given neither by name nor as a table. -/
  | notAChoice
  /-- A choice given as a table without a key. -/
  | noChoice
  /-- A choice given as a table with several keys. -/
  | severalChoices
  /-- A choice that is given contents, where it has none. -/
  | tableNotEmpty
  | arrayNotEmpty
  | notATable (found : String)
deriving DecidableEq

/-- Alternatives as messages list them. -/
def oneOf (names : List String) : String :=
  match names.map fun name => s!"`{name}`" with
  | [] => "nothing"
  | [a] => a
  | [a, b] => s!"{a} or {b}"
  | many => "one of " ++ ", ".intercalate many

/-- What a decode error says. -/
def DecodeError.message : DecodeError → String
  | missingField name => s!"missing field `{name}`"
  | unknownField name expected => s!"unknown field `{name}`, expected {oneOf expected}"
  | invalidType found expected => s!"invalid type: {found.text}, expected {expected}"
  | invalidInteger value expected => s!"invalid value: integer `{value}`, expected {expected}"
  | invalidLength length expected => s!"invalid length {length}, expected {expected}"
  | unknownVariant name expected => s!"unknown variant `{name}`, expected {oneOf expected}"
  | notAChoice => "wanted string or table"
  | noChoice => "wanted exactly 1 element, found 0 elements"
  | severalChoices => "wanted exactly 1 element, more than 1 element"
  | tableNotEmpty => "expected empty table"
  | arrayNotEmpty => "expected empty array"
  | notATable found => s!"expected table, found {found}"

/-- Why a text cannot be used. -/
inductive Error where
  /-- The text is no TOML document. -/
  | malformed
  /-- The document does not fit its description. -/
  | data (error : DecodeError)
deriving DecidableEq

/-- What an error says. -/
def Error.message : Error → String
  | malformed => "TOML parse error"
  | data error => s!"TOML parse error: {error.message}"

namespace Value

/-- What a message says of a value. -/
def shape : Value → Shape
  | .string text => .string text
  | .integer value => .integer value
  | .float value => .float value
  | .boolean value => .boolean value
  | .datetime | .table .. => .map
  | .array _ | .tableArray _ => .sequence

/-- A text. -/
def asString : Value → Except DecodeError String
  | .string text => .ok text
  | value => .error (.invalidType value.shape "a string")

/-- A truth value. -/
def asBoolean : Value → Except DecodeError Bool
  | .boolean value => .ok value
  | value => .error (.invalidType value.shape "a boolean")

/-- A number of 32 bits without a sign. -/
def asWord : Value → Except DecodeError Nat
  | .integer value =>
    if 0 ≤ value ∧ value ≤ 4294967295 then .ok value.toNat
    else .error (.invalidInteger value "u32")
  | value => .error (.invalidType value.shape "u32")

/-- A sequence of values, each read by the given reader. -/
def asList (item : Value → Except DecodeError α) : Value → Except DecodeError (List α)
  | .array items => items.mapM item
  | .tableArray tables => tables.mapM item
  | value => .error (.invalidType value.shape "a sequence")

/-- The key under which a date stands where a table is expected. -/
def datetimeKey : String := "$__toml_private_datetime"

/-- The keys of a value that can stand for a table. -/
def entries? : Value → Option Entries
  | .table _ entries => some entries
  | .datetime => some [(datetimeKey, .datetime)]
  | _ => none

/-- Checks that a choice without contents is given none. -/
def checkEmpty : Value → Except DecodeError Unit
  | .table _ entries => if entries.isEmpty then .ok () else .error .tableNotEmpty
  | .array items => if items.isEmpty then .ok () else .error .tableNotEmpty
  | .tableArray tables => if tables.isEmpty then .ok () else .error .arrayNotEmpty
  | .string _ => .error (.notATable "string")
  | .integer _ => .error (.notATable "integer")
  | .float _ => .error (.notATable "float")
  | .boolean _ => .error (.notATable "boolean")
  | .datetime => .error (.notATable "datetime")

/-- A choice between names.  It is given by its name, or as the only key of a table with
empty contents. -/
def asChoice (choices : List String) (choose? : String → Option α) :
    Value → Except DecodeError α
  | .string name => choose name
  | .table _ [] => .error .noChoice
  | .table _ [(name, contents)] => do
    let choice ← choose name
    contents.checkEmpty
    return choice
  | .table .. => .error .severalChoices
  | _ => .error .notAChoice
where
  /-- The choice of a name. -/
  choose (name : String) : Except DecodeError α :=
    match choose? name with
    | some choice => .ok choice
    | none => .error (.unknownVariant name choices)

end Value

/-- A field that has to be present. -/
def required (name : String) : Option α → Except DecodeError α
  | some value => .ok value
  | none => .error (.missingField name)

/-- Reads a document by the given reader of its entries. -/
def decode (source : String) (reader : Entries → Except DecodeError α) : Except Error α :=
  match Document.ofText? source with
  | none => .error .malformed
  | some entries =>
    match reader entries with
    | .ok value => .ok value
    | .error error => .error (.data error)

end LinearScan.Toml
