import ColumnFlow.Number.Shortest
import ColumnFlow.Settings.Basic
import ColumnFlow.Yaml.Reader
import ColumnFlow.Yaml.Value

/-!
# Layers of settings

Settings come from several sources. Each is a layer of named values, and an upper layer wins over a lower one.
Values are read leniently: a number may be written as a text, and a single text stands for a list.
-/

namespace ColumnFlow

/-- Named values, those of upper layers first. -/
abbrev Layer := List (String × Yaml.Value)

/-- A setting has a value of the wrong kind. -/
structure WrongKind where
  setting : String
  deriving DecidableEq, Repr

namespace Layer

/-- The value of a setting. If no name is the same, one that differs only by case is taken. -/
def value (layer : Layer) (name : String) : Yaml.Value :=
  match layer.lookup name with
  | some value => value
  | none => ((layer.find? fun (other, _) => Text.equalFold other name).map (·.2)).getD .null

end Layer

namespace LenientValue

open Yaml (Value)

def text? : Value → Option String
  | .null => some ""
  | .text s => some s
  | .bool b => some (if b then "1" else "0")
  | .int n => some (toString n)
  | .float x => some x.text
  | _ => none

/-- A list of texts; `split` says what a single text stands for. -/
def texts? (split : String → List String) : Value → Option (List String)
  | .null => some []
  | .text s => some (split s)
  | .list items => items.mapM text?
  | .map [] => some []
  | value => (text? value).map ([·])

/-- A number of 64 bits. One without a sign is taken as one with a sign, and a fraction is dropped. -/
def integer? : Value → Option Int
  | .null => some 0
  | .int n => some (Text.wrapSigned n)
  | .float x => some x.whole
  | .bool b => some (if b then 1 else 0)
  | .text s => if s == "" then some 0 else (Text.readInteger s).toOption
  | _ => none

/-- Words for truth values. -/
def flagOfText? (s : String) : Option Bool :=
  if ["1", "t", "T", "true", "TRUE", "True"].contains s then some true
  else if ["0", "f", "F", "false", "FALSE", "False"].contains s then some false
  else none

def flag? : Value → Option Bool
  | .null => some false
  | .bool b => some b
  | .int n => some (n != 0)
  | .float x => some !x.isZero
  | .text s => if s == "" then some false else flagOfText? s
  | _ => none

/-- A span of time; a number counts nanoseconds. -/
def duration? : Value → Option Duration
  | .text s => Duration.ofText? s
  | value => (integer? value).map Duration.mk

end LenientValue

/-- The items of a text between commas. -/
def splitCommas (s : String) : List String := if s == "" then [] else s.splitOn ","

namespace Layer

/-- Read one setting. -/
def read {α : Type} (layer : Layer) (name : String) (reader : Yaml.Value → Option α) : Except WrongKind α :=
  match reader (layer.value name) with
  | some x => .ok x
  | none => .error { setting := name }

/-- The settings of a project. `split` says what a single text stands for where a list is wanted. -/
def projectSettings (layer : Layer) (split : String → List String) : Except WrongKind ProjectSettings := do
  return {
    defaultSchema := ← layer.read "default_schema" LenientValue.text?
    schemaFile := ← layer.read "schema_file" LenientValue.text?
    paths := ← layer.read "paths" (LenientValue.texts? split)
    workers := ← layer.read "workers" LenientValue.integer?
    extensions := ← layer.read "extensions" (LenientValue.texts? split)
    exclude := ← layer.read "exclude" (LenientValue.texts? split)
    failOnRisk := ← layer.read "fail_on_risk" LenientValue.text? }

def settings (layer : Layer) : Except WrongKind Settings := do
  return {
    toProjectSettings := ← layer.projectSettings splitCommas
    verbose := ← layer.read "verbose" LenientValue.flag?
    logLevel := ← layer.read "log_level" LenientValue.text?
    output := ← layer.read "output" LenientValue.text?
    debounce := ← layer.read "watch_debounce" LenientValue.duration? }

/-- What holds where no other layer says anything. -/
def defaults : Layer :=
  [("default_schema", .text "dbo"), ("workers", .int 4), ("extensions", .list [.text ".sql"]),
   ("fail_on_risk", .text "High"), ("verbose", .bool false), ("log_level", .text "warn"),
   ("output", .text "auto"), ("watch_debounce", .text "200ms")]

/-- The layer of a settings file, unless it is not well formed. -/
def ofDocument? (text : String) : Option Layer := do
  let root ← Yaml.document? text
  match (Yaml.Value.ofNode root).toOption with
  | some (.map entries) => return entries
  | some .null => return []
  | _ => none

def environmentLead : String := "SQLLINEAGE_"

/-- A value below a path of names. -/
def nested : List String → Yaml.Value → Yaml.Value
  | [], value => value
  | name :: rest, value => .map [(name, nested rest value)]

/-- The names and values of the variables that start with the lead. -/
def environmentSettings (environment : List (String × String)) : List (List String × String) :=
  environment.filterMap fun (name, value) =>
    let lead := environmentLead.toList
    if lead.isPrefixOf name.toList && name != environmentLead then
      some ((Text.lower (String.ofList (name.toList.drop lead.length))).splitOn ".", value)
    else none

/-- The layer of the variables of the environment. A dot in a name leads into a map, unless there is a value for
the name before it. -/
def ofEnvironment (environment : List (String × String)) : Layer :=
  let settings := environmentSettings environment
  let (whole, parts) := settings.partition (·.1.length == 1)
  (whole ++ parts).filterMap fun (names, value) =>
    names.head?.map fun setting => (setting, nested names.tail (.text value))

end Layer

end ColumnFlow
