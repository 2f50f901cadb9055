import ExactLisp.Folder
import ExactLisp.Toml.Read
import ExactLisp.Value.Display

/-!
# Configuration

The settings of the read-eval-print loop. They come from a configuration document; every setting has
a default, keys that name no setting are ignored, and a setting of the wrong type is an error.
-/

namespace ExactLisp

/-- The settings. -/
structure Config where
  /-- Shown before each line that is read. -/
  prompt : String := "lispy> "
  /-- Whether the time that a form took is shown after its value. -/
  showTiming : Bool := false
  /-- Fraction digits shown of a float. -/
  floatDigits : Nat := Value.defaultDigits
  /-- Which log messages are wanted. -/
  logFilter : String := "warn"
  /-- Where earlier input lines are kept. -/
  historyFile : Option String := none
  deriving DecidableEq, Repr

/-- Why there are no settings. -/
inductive ConfigError where
  /-- The file cannot be read. -/
  | unreadable (path : String) (failure : ReadFailure)
  /-- The text is no configuration document, or a setting has the wrong type. -/
  | invalid
  deriving DecidableEq, Repr

/-- The text of a configuration error. -/
def ConfigError.message : ConfigError → String
  | unreadable path failure =>
    "Failed to read config file '" ++ path ++ "': " ++ failure.message
  | invalid => "Invalid config: not a document of settings"

/-- The causes of a configuration error, from the outside in. -/
def ConfigError.causes (error : ConfigError) : List String :=
  match error with
  | unreadable _ failure => [error.message, failure.message]
  | invalid => [error.message]

namespace Config

/-- A setting that is a string. -/
def stringSetting (table : Toml.Table) (key : String) (default : String) : Option String :=
  match table.get? key with
  | none => some default
  | some (.string value) => some value
  | some _ => none

/-- A setting that is a boolean. -/
def booleanSetting (table : Toml.Table) (key : String) (default : Bool) : Option Bool :=
  match table.get? key with
  | none => some default
  | some (.boolean value) => some value
  | some _ => none

/-- A setting that is a count. -/
def naturalSetting (table : Toml.Table) (key : String) (default : Nat) : Option Nat :=
  match table.get? key with
  | none => some default
  | some (.integer value) => if 0 ≤ value then some value.toNat else none
  | some _ => none

/-- A setting that may be absent. -/
def optionalSetting (table : Toml.Table) (key : String) : Option (Option String) :=
  match table.get? key with
  | none => some none
  | some (.string value) => some (some value)
  | some _ => none

/-- The settings of a document. -/
def ofTable? (table : Toml.Table) : Option Config := do
  let default : Config := {}
  let prompt ← stringSetting table "prompt" default.prompt
  let showTiming ← booleanSetting table "show_timing" default.showTiming
  let floatDigits ← naturalSetting table "float_digits" default.floatDigits
  let logFilter ← stringSetting table "log_filter" default.logFilter
  let historyFile ← optionalSetting table "history_file"
  return { prompt, showTiming, floatDigits, logFilter, historyFile }

/-- The settings that a text describes. -/
def ofText (text : String) : Except ConfigError Config :=
  match (Toml.read? text).bind ofTable? with
  | some config => .ok config
  | none => .error .invalid

/-- The settings that a file describes. -/
def ofFile (files : FileReader) (path : String) : Except ConfigError Config :=
  match files.text path with
  | .ok text => ofText text
  | .error failure => .error (.unreadable path failure)

end Config

end ExactLisp
