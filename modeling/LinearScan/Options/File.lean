import LinearScan.Options
import LinearScan.Toml.Decode

/-!
# Option files

Options are read from a TOML document in which every key may be left out.

## Main Definitions

* `Options.ofText` — the options that a text describes
-/

namespace LinearScan

namespace Options

/-- The keys of an option file. -/
def fields : List String :=
  ["stack_base", "eviction", "all_stack"]

/-- Reads one key. -/
def setField (options : Options) (entry : String × Toml.Value) :
    Except Toml.DecodeError Options :=
  let (name, value) := entry
  match name with
  | "stack_base" => value.asWord.map fun stackBase => { options with stackBase }
  | "eviction" => value.asBoolean.map fun eviction => { options with eviction }
  | "all_stack" => value.asBoolean.map fun allStack => { options with allStack }
  | _ => .error (.unknownField name fields)

/-- The options that a text describes. -/
def ofText (source : String) : Except Toml.Error Options :=
  Toml.decode source fun entries => entries.foldlM setField {}

end Options

end LinearScan
