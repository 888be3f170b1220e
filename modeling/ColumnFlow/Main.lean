import ColumnFlow.Command.Run
import ColumnFlow.Project.Watch

/-!
# The program

Reads the part of the disk that a command can look at into a workspace, runs the command on it, writes the files
that it made and prints its output. All decisions are made by the command itself.
-/

namespace ColumnFlow.Program

/-! ### Reading the disk -/

/-- The content of a file; one that is no text counts as empty. -/
def readContent (path : String) : IO String := do
  match ← (IO.FS.readBinFile path).toBaseIO with
  | .ok bytes => return (String.fromUTF8? bytes).getD ""
  | .error _ => return ""

/-- The tree at a path. Only files whose names are kept are read, and nothing below a hidden folder. -/
partial def readTree (keep : String → Bool) (path : String) : IO FileTree := do
  let real ← IO.FS.realPath path
  if ← real.isDir then
    let entries ← real.readDir
    let nodes ← entries.toList.mapM fun entry => do
      let below := path ++ "/" ++ entry.fileName
      if DiscoveryOptions.isHidden entry.fileName then
        return (entry.fileName, if ← entry.path.isDir then FileTree.empty else .file "")
      else return (entry.fileName, ← readTree keep below)
    return .folder nodes
  else if keep (Path.baseName path) then return .file (← readContent path)
  else return .file ""

/-- Add what stands at a path, if anything does. A file is read whatever its name. -/
def addPath (keep : String → Bool) (w : Workspace) (path : String) : IO Workspace := do
  if path == "" then return w
  match ← (IO.FS.realPath path).toBaseIO with
  | .error _ => return w
  | .ok real =>
    let node ← if ← real.isDir then readTree keep path else FileTree.file <$> readContent path
    return { w with tree := w.tree.put node (Path.place w.folder path) }

/-- Add the settings files of a folder and of those above it. -/
def addSettingsFiles (w : Workspace) : Nat → Place → IO Workspace
  | 0, _ => return w
  | n + 1, place => do
    let paths := settingsFileNames.map (Path.join (Path.ofPlace place))
    let w ← paths.foldlM (addPath fun _ => true) w
    if place.isEmpty then return w else addSettingsFiles w n place.dropLast

/-- The variables of the environment that can hold settings. -/
def environment : IO (List (String × String)) := do
  let names := ["paths", "schema_file", "exclude"] ++ Layer.defaults.map (·.1)
  let found ← names.mapM fun name => do
    let variableName := Layer.environmentLead ++ Text.upper name
    return (← IO.getEnv variableName).map (variableName, ·)
  return found.filterMap id

/-- The workspace of a command line: the settings files, and all that the settings and arguments name. -/
def workspaceFor (arguments : List String) : IO Workspace := do
  let folder := Path.place [] (← IO.currentDir).toString
  let start : Workspace := { tree := FileTree.empty.putFolder folder, folder, environment := ← environment }
  match Invocation.ofArguments arguments with
  | .ok (.run command parsed) =>
    let request := SettingsRequest.ofFlags command.ownFlags parsed
    let w ← addSettingsFiles start (Workspace.searchLevels.toNat + 1) folder
    let w ← addPath (fun _ => true) w request.configFile
    let w ← if request.projectFolder == "" then pure w
      else addSettingsFiles w 1 (Path.place folder request.projectFolder)
    match w.loadSettings request with
    | .error _ => return w
    | .ok settings =>
      let keep := (Workspace.discoveryOptions settings).hasExtension
      let named := if command == .trace then parsed.arguments.tail else parsed.arguments
      let targets := if command == .init then [parsed.arguments.headD "."] else Workspace.targets settings named
      let w ← targets.foldlM (addPath keep) w
      let w ← addSettingsFiles w (Workspace.searchLevels.toNat + 1) folder
      addPath keep w settings.schemaFile
  | _ => return start

/-! ### Writing -/

/-- Write the files of a tree that another one does not have, or has with other content. -/
def writeChanges (before after : FileTree) : IO Unit := do
  for (place, content) in after.filesBelow [] do
    let isSame := match before.node? place with
      | some (.file old) => old == content
      | _ => false
    if !isSame then
      IO.FS.createDirAll (Path.ofPlace place.dropLast)
      IO.FS.writeFile (Path.ofPlace place) content

def reportFault (fault : RunFault) : IO UInt32 := do
  IO.eprintln s!"Error: {fault.message}"
  return match fault with
    | .gate _ => 2
    | _ => 1

/-! ### Watching -/

/-- The files whose changes matter, with their content. -/
def watchedFiles (w : Workspace) (settings : Settings) : List (String × String) :=
  ((w.tree.filesBelow []).map fun (place, content) => (Path.ofPlace place, content)).filter
    fun (path, _) => isWatched path settings.extensions settings.schemaFile

/-- Look at the files again and again, and analyze them anew when some have changed. -/
partial def watch (arguments : List String) (settings : Settings) (isTerminal : Bool)
    (seen : List (String × String)) : IO Unit := do
  IO.sleep (max settings.debounce.milliseconds.toNat 50).toUInt32
  let w ← workspaceFor arguments
  let files := watchedFiles w settings
  match files.find? (!seen.contains ·), seen.find? fun file => !files.any (·.1 == file.1) with
  | none, none => watch arguments settings isTerminal seen
  | some (path, _), _ | none, some (path, _) =>
    IO.println s!"Change detected: {Path.baseName path}"
    let outcome := w.run ("analyze" :: arguments.filter (· != "watch")) isTerminal
    IO.print outcome.output
    if let some fault := outcome.fault then IO.eprintln s!"✗ {fault.message}"
    watch arguments settings isTerminal files

/-- Run a command line on the disk. -/
def run (arguments : List String) : IO UInt32 := do
  let w ← workspaceFor arguments
  let isTerminal ← (← IO.getStdout).isTty
  let outcome := w.run arguments isTerminal
  writeChanges w.tree outcome.workspace.tree
  IO.print outcome.output
  match outcome.fault, Invocation.ofArguments arguments with
  | some fault, _ => reportFault fault
  | none, .ok (.run .watch parsed) =>
    match w.loadSettings (.ofFlags CommandName.watch.ownFlags parsed) with
    | .ok settings =>
      watch arguments settings isTerminal (watchedFiles w settings)
      return 0
    | .error fault => reportFault (.settings fault)
  | none, _ => return 0

end ColumnFlow.Program

def main (arguments : List String) : IO UInt32 := ColumnFlow.Program.run arguments
