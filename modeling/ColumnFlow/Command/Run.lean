import ColumnFlow.Catalog.File
import ColumnFlow.Command.Init
import ColumnFlow.Command.Usage
import ColumnFlow.Project.DefinitionFile
import ColumnFlow.Report.Health
import ColumnFlow.Report.Patterns
import ColumnFlow.Report.Trace

/-!
# Running commands

A command is a function of the workspace and its arguments. It gives the output, the workspace afterwards, and
a fault if it fails. A gate lets the command finish and then fails it.
-/

namespace ColumnFlow

inductive SchemaFault where
  | unreadable (fault : FileFault)
  | malformed (path : String)
  | repeatedTable (path : String) (entry : CatalogEntry)
  deriving DecidableEq, Repr

def SchemaFault.message : SchemaFault → String
  | .unreadable fault => s!"open schema file: {fault.message}"
  | .malformed path => s!"{path}: invalid schema file"
  | .repeatedTable path entry => s!"{path}: duplicate table: {entry.qualifiedName}"

/-- Why a finished command counts as failed. -/
inductive GateFault where
  | unparsed (definitions : Nat)
  | gaps (count : Nat)
  | risk (threshold : RiskLevel)
  deriving DecidableEq, Repr

def GateFault.message : GateFault → String
  | .unparsed definitions => s!"{definitions} definition(s) failed to parse"
  | .gaps count => s!"{count} coverage gap(s)"
  | .risk threshold => s!"dynamic SQL at or above {threshold.text} risk"

inductive RunFault where
  | usage (fault : UsageFault)
  | settings (fault : SettingsLoadFault)
  | setting (fault : SettingsFault)
  | schema (fault : SchemaFault)
  | load (fault : LoadFault)
  | gate (fault : GateFault)
  | unknownColumn (name : String)
  | unknownRisk (text : String)
  | unknownKind (text : String)
  | init (fault : InitFault)
  deriving DecidableEq, Repr

def RunFault.message : RunFault → String
  | .usage fault => fault.message
  | .settings fault => fault.message
  | .setting fault => fault.message
  | .schema fault => fault.message
  | .load fault => fault.message
  | .gate fault => fault.message
  | .unknownColumn name => s!"column {Text.quoted name} not found in lineage"
  | .unknownRisk text => RiskLevel.unknownMessage text
  | .unknownKind text => s!"finding kind {Text.quoted text} not found"
  | .init fault => fault.message

/-- The result of a run. -/
structure Outcome where
  output : String := ""
  fault : Option RunFault := none
  workspace : Workspace

/-! ### Analysis -/

namespace Workspace

/-- The catalog of a schema file. -/
def loadCatalog (w : Workspace) (path : String) : Except SchemaFault Catalog := do
  let text ← (w.read path).mapError fun fault =>
    if fault.cause == .isFolder then .malformed path else .unreadable fault
  let some root := Yaml.document? text | throw (.malformed path)
  let .ok file := SchemaFile.ofYaml root | throw (.malformed path)
  (Catalog.ofFile file "").mapError (.repeatedTable path)

/-- The paths to analyze: those given, else those of the settings, else the project. -/
def targets (settings : Settings) (arguments : List String) : List String :=
  if !arguments.isEmpty then arguments
  else if !settings.paths.isEmpty then settings.paths
  else [settings.projectRoot]

def discoveryOptions (settings : Settings) : DiscoveryOptions :=
  { extensions := settings.extensions, exclude := settings.exclude }

/-- The lineage of all definitions of the targets. -/
def analyze (w : Workspace) (settings : Settings) (arguments : List String) : Except RunFault Report := do
  let catalog ← if settings.schemaFile == "" then pure none
    else (w.loadCatalog settings.schemaFile).mapError .schema |>.map some
  let files ← (w.loadDefinitions (discoveryOptions settings) (targets settings arguments)).mapError .load
  let options : ExtractOptions :=
    { defaultSchema := settings.defaultSchema
      resolver := match catalog with
        | some catalog => catalog.columns?
        | none => fun _ _ => none }
  return Report.ofLineages (files.map (·.path)) (extractAll (files.map (·.definition)) options)

end Workspace

/-- What a strict run fails for: definitions that do not parse come before gaps. -/
def strictGate (report : Report) : Option GateFault :=
  if report.summary.failed > 0 then some (.unparsed report.summary.failed)
  else if report.summary.gaps > 0 then some (.gaps report.summary.gaps)
  else none

/-- What a risk report fails for. -/
def riskGate (report : RiskReport) : Option GateFault :=
  if report.exceeded then report.threshold.map .risk else none

/-! ### Commands -/

/-- How a command is run. -/
structure RunContext where
  workspace : Workspace
  settings : Settings
  mode : OutputMode
  parsed : ParsedArguments

namespace RunContext

def arguments (c : RunContext) : List String := c.parsed.arguments

def analyze (c : RunContext) : Except RunFault (String × Option GateFault) := do
  let report ← c.workspace.analyze c.settings c.arguments
  return (report.render c.mode, if c.parsed.isOn "strict" then strictGate report else none)

def risk (c : RunContext) : Except RunFault (String × Option GateFault) := do
  let threshold ← c.settings.threshold.mapError .setting
  let report ← c.workspace.analyze c.settings c.arguments
  let risks := RiskReport.ofReport report threshold
  return (risks.render c.mode, riskGate risks)

def doctor (c : RunContext) : Except RunFault String := do
  let threshold ← c.settings.threshold.mapError .setting
  let report ← c.workspace.analyze c.settings c.arguments
  let health := HealthReport.ofReport report
    { configFile := c.settings.configFile, schemaFile := c.settings.schemaFile, threshold }
  return health.render c.mode

def trace (c : RunContext) : Except RunFault String := do
  let column := c.arguments.headD ""
  let report ← c.workspace.analyze c.settings c.arguments.tail
  let graph := ColumnGraph.ofLineages (report.entries.map (·.lineage))
  let direction := if c.parsed.isOn "downstream" then TraceDirection.toTargets else .toSources
  match TraceReport.ofGraph? graph column direction with
  | some trace => return trace.render c.mode
  | none => throw (.unknownColumn column)

def patterns (c : RunContext) : Except RunFault String := do
  let kind := c.arguments.headD ""
  let risk := c.parsed.text "min-risk"
  let least ← if risk == "" then pure RiskLevel.low
    else match RiskLevel.ofText? risk with
      | some level => pure level
      | none => throw (.unknownRisk risk)
  let patterns := PatternList.select kind least
  if kind != "" && patterns.isEmpty then throw (.unknownKind kind)
  return PatternList.render { patterns, detailed := c.parsed.isOn "verbose" } c.mode

/-- Make a project. -/
def init (c : RunContext) : Outcome :=
  let template := if c.parsed.isOn "example" then ProjectTemplate.worked else .minimal
  let folder := c.arguments.headD "."
  match (Change.makeProject folder template (c.parsed.isOn "force")).run.run c.workspace with
  | (.ok _, workspace) => { output := template.report, workspace }
  | (.error fault, workspace) => { fault := some (.init fault), workspace }

/-- The outcome of a command that only writes. -/
def finish (c : RunContext) (result : Except RunFault (String × Option GateFault)) : Outcome :=
  match result with
  | .ok (output, gate) => { output, fault := gate.map .gate, workspace := c.workspace }
  | .error fault => { fault := some fault, workspace := c.workspace }

def run (c : RunContext) : CommandName → Outcome
  | .version => { output := joinLines [s!"{programName} v{releaseNumber}", slogan], workspace := c.workspace }
  | .analyze => c.finish c.analyze
  | .risk => c.finish c.risk
  | .watch =>
    let note := joinLines [styled "Watching for changes. Press Ctrl+C to stop."]
    c.finish (c.analyze.map fun (output, _) => (output ++ note, none))
  | .doctor => c.finish (c.doctor.map (·, none))
  | .trace => c.finish (c.trace.map (·, none))
  | .patterns => c.finish (c.patterns.map (·, none))
  | .init => c.init
  | .completion => { output := completionScript (c.arguments.headD ""), workspace := c.workspace }
  | .help =>
    { output := usageText (c.arguments.head?.bind CommandName.ofText?), workspace := c.workspace }

end RunContext

/-- Whether a command is run without settings. -/
def CommandName.isIndependent (command : CommandName) : Bool := command == .help || command == .completion

/-- Run a command line. `isTerminal` says where the output goes. -/
def Workspace.run (w : Workspace) (arguments : List String) (isTerminal : Bool) : Outcome :=
  match Invocation.ofArguments arguments with
  | .error fault => { fault := some (.usage fault), workspace := w }
  | .ok (.usage command) => { output := usageText command, workspace := w }
  | .ok .programVersion => { output := joinLines [s!"{programName} {releaseNumber}", slogan], workspace := w }
  | .ok (.run command parsed) =>
    let settings := if command.isIndependent then .ok {}
      else w.loadSettings (.ofFlags command.ownFlags parsed)
    match settings with
    | .error fault => { fault := some (.settings fault), workspace := w }
    | .ok settings =>
      let mode := (OutputMode.ofText settings.output).effective isTerminal
      RunContext.run { workspace := w, settings, mode, parsed } command

end ColumnFlow
