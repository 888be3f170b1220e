import ColumnFlow.Lineage.Risk
import ColumnFlow.Settings.Duration
import ColumnFlow.Settings.LogLevel

/-!
# Settings

What a project fixes about its definitions, and what a run of a command adds to it.
-/

namespace ColumnFlow

structure ProjectSettings where
  /-- The schema of tables that are named without one. -/
  defaultSchema : String := ""
  schemaFile : String := ""
  /-- Where definitions are looked for if no path is given. -/
  paths : List String := []
  workers : Int := 0
  extensions : List String := []
  exclude : List String := []
  /-- The risk from which on the gate fails, or `none`. -/
  failOnRisk : String := ""
  deriving DecidableEq, Repr, Inhabited

structure Settings extends ProjectSettings where
  verbose : Bool := false
  logLevel : String := ""
  output : String := ""
  /-- How long changes are gathered before a new run. -/
  debounce : Duration := ⟨0⟩
  projectRoot : String := ""
  configFile : String := ""
  deriving DecidableEq, Repr, Inhabited

inductive SettingsFault where
  | negativeWorkers (workers : Int)
  | extensionWithoutDot (extension : String)
  | unknownRisk (text : String)
  | unknownOutput (text : String)
  | badLogLevel (text : String) (fault : LogLevelFault)
  | negativeDebounce (debounce : Duration)
  deriving DecidableEq, Repr

/-- The output formats by name. -/
def outputFormats : List String := ["auto", "text", "markdown", "json"]

def SettingsFault.message : SettingsFault → String
  | .negativeWorkers workers => s!"workers must not be negative, got {workers}"
  | .extensionWithoutDot extension => s!"extension {Text.quoted extension} must start with a dot"
  | .unknownRisk text => s!"invalid fail_on_risk: {RiskLevel.unknownMessage text}"
  | .unknownOutput text =>
    s!"invalid output format {Text.quoted text}, must be one of: " ++ ", ".intercalate outputFormats
  | .badLogLevel text fault =>
    s!"invalid log_level {Text.quoted text}: slog: level string {Text.quoted text}: {fault.message}"
  | .negativeDebounce debounce => s!"watch_debounce must not be negative, got {debounce.text}"

namespace ProjectSettings

def withDefaults (s : ProjectSettings) : ProjectSettings :=
  { s with
    defaultSchema := if s.defaultSchema == "" then "dbo" else s.defaultSchema
    workers := if s.workers ≤ 0 then 4 else s.workers
    extensions := if s.extensions.isEmpty then [".sql"] else s.extensions
    failOnRisk := if s.failOnRisk == "" then "High" else s.failOnRisk }

/-- The risk at which the gate fails. An empty text or the word `none` switches the gate off. -/
def threshold (s : ProjectSettings) : Except SettingsFault (Option RiskLevel) :=
  let text := Text.trim s.failOnRisk
  if text == "" || Text.equalFold text "none" then .ok none
  else match RiskLevel.ofText? text with
    | some level => .ok (some level)
    | none => .error (.unknownRisk text)

/-- The first setting that is not allowed. -/
def validate (s : ProjectSettings) : Except SettingsFault Unit := do
  if s.workers < 0 then throw (.negativeWorkers s.workers)
  match s.extensions.find? fun extension => extension.toList.head? != some '.' with
  | some extension => throw (.extensionWithoutDot extension)
  | none => pure ()
  let _ ← s.threshold

end ProjectSettings

namespace Settings

/-- The level of the log. A verbose run logs everything. -/
def level (s : Settings) : Except SettingsFault Int :=
  if s.verbose then .ok LogLevel.debug
  else if s.logLevel == "" then .ok LogLevel.warn
  else (LogLevel.ofText s.logLevel).mapError (.badLogLevel s.logLevel)

def validate (s : Settings) : Except SettingsFault Unit := do
  s.toProjectSettings.validate
  if !outputFormats.contains (Text.lower s.output) then throw (.unknownOutput s.output)
  let _ ← s.level
  if s.debounce.nanoseconds < 0 then throw (.negativeDebounce s.debounce)

end Settings

end ColumnFlow
