import ColumnFlow.Project.FileTree
import ColumnFlow.Settings.Layer

/-!
# Loading settings

A settings file stands in the root folder of a project. Paths that it or the environment names are relative to
that folder; those of the command line are relative to the current folder.
-/

namespace ColumnFlow

/-- The names of a settings file; the first is preferred. -/
def settingsFileNames : List String := ["sqllineage.yaml", "sqllineage.yml"]

inductive SettingsLoadFault where
  | unreadable (path : String) (fault : FileFault)
  | malformed (path : String)
  | wrongKind (fault : WrongKind)
  | invalid (fault : SettingsFault)
  deriving DecidableEq, Repr

def SettingsLoadFault.message : SettingsLoadFault → String
  | .unreadable path fault => s!"error reading config file {path}: {fault.message}"
  | .malformed path => s!"error reading config file {path}: invalid YAML"
  | .wrongKind fault => s!"unable to decode config: wrong type of {fault.setting}"
  | .invalid fault => s!"invalid configuration: {fault.message}"

namespace Workspace

/-- The settings file in a folder. -/
def settingsFile? (w : Workspace) (folder : String) : Option String :=
  (settingsFileNames.map (Path.join folder)).find? w.exists?

/-- The nearest folder with a settings file among a place and the given number of folders above it. -/
def projectRootFrom? (w : Workspace) (place : Place) : Nat → Option String
  | 0 => none
  | n + 1 =>
    if (w.settingsFile? (Path.ofPlace place)).isSome then some (Path.ofPlace place)
    else if place.isEmpty then none
    else w.projectRootFrom? place.dropLast n

/-- The nearest folder with a settings file, at most `levels` above the current one. -/
def findProjectRoot (w : Workspace) (levels : Int) : Option String :=
  w.projectRootFrom? w.folder (levels + 1).toNat

/-- The layer of a settings file. Its path is cleaned before it is opened. -/
def settingsLayer (w : Workspace) (path : String) : Except SettingsLoadFault Layer := do
  let text ← (w.read (Path.clean path)).mapError (.unreadable path)
  match Layer.ofDocument? text with
  | some layer => return layer
  | none => throw (.malformed path)

/-- The project settings of the current folder, if it has a settings file. -/
def loadProject (w : Workspace) : Except SettingsLoadFault (Option ProjectSettings) := do
  match w.settingsFile? (Path.ofPlace w.folder) with
  | none => return none
  | some path =>
    let layer ← w.settingsLayer path
    let settings ← (layer.projectSettings ([·])).mapError .wrongKind
    return some settings.withDefaults

end Workspace

/-- What the command line says about settings. -/
structure SettingsRequest where
  configFile : String := ""
  projectFolder : String := ""
  /-- Relative to the current folder. -/
  schemaFile : Option String := none
  layer : Layer := []

namespace Workspace

/-- How far up a settings file is looked for. -/
def searchLevels : Int := 10

/-- The root of the project: as requested, else the folder of the requested file, else the nearest folder with
a settings file, else the current folder. -/
def projectRoot (w : Workspace) (request : SettingsRequest) : String :=
  if request.projectFolder != "" then w.absolute request.projectFolder
  else if request.configFile != "" then Path.folder (w.absolute request.configFile)
  else (w.findProjectRoot searchLevels).getD (Path.ofPlace w.folder)

/-- A path that may be relative to a folder. -/
def relativeTo (folder path : String) : String :=
  if path == "" || Path.isAbsolute path then path else Path.join folder path

/-- The settings of a run. The command line wins over the environment, that over the file, and that over the
defaults. -/
def loadSettings (w : Workspace) (request : SettingsRequest) : Except SettingsLoadFault Settings := do
  let root := w.projectRoot request
  let configFile := if request.configFile != "" then request.configFile else (w.settingsFile? root).getD ""
  let fileLayer ← if configFile == "" then pure [] else w.settingsLayer configFile
  let layer := request.layer ++ Layer.ofEnvironment w.environment ++ fileLayer ++ Layer.defaults
  let settings ← (Layer.settings layer).mapError .wrongKind
  let schemaFile := match request.schemaFile with
    | some path => w.absolute path
    | none => relativeTo root settings.schemaFile
  let project := { settings.toProjectSettings with
    schemaFile
    paths := settings.paths.map (relativeTo root) }
  let settings := { settings with
    toProjectSettings := project.withDefaults
    projectRoot := root
    configFile }
  settings.validate.mapError .invalid
  return settings

end Workspace

end ColumnFlow
