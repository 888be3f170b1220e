import ColumnFlow.Command.Template
import ColumnFlow.Settings.Load

/-!
# Making a project

Folders are made with those above them. A file that exists is kept, unless it is to be overwritten. What was
made before a fault stays.
-/

namespace ColumnFlow

inductive InitFault where
  | folder (path : String) (fault : FileFault)
  | settingsExist (name : String)
  | template (fault : FileFault)
  deriving DecidableEq, Repr

def InitFault.message : InitFault → String
  | .folder path fault => s!"failed to create directory {path}: {fault.message}"
  | .settingsExist name => s!"{name} already exists. Use --force to overwrite"
  | .template fault => s!"failed to initialize project: {fault.message}"

/-- A change of the files, which may fail half way. -/
abbrev Change (ε : Type) := ExceptT ε (StateM Workspace)

namespace Change

/-- The part of a path up to its last name, with the slash, and that name. Slashes at the end do not count. -/
def splitLast (path : String) : String × String :=
  let cs := path.toList.reverse.dropWhile (· == '/')
  let name := cs.takeWhile (· != '/')
  (String.ofList (cs.drop name.length).reverse, String.ofList name.reverse)

/-- Make one folder. It is no fault if the folder is there. -/
def makeFolder (path : String) : Change FileFault Unit := do
  let w ← get
  let (parent, name) := splitLast path
  let fail (cause : PathFault) : Change FileFault Unit := throw { action := "mkdir", path, cause }
  match w.find (if parent == "" then "." else parent) with
  | .error cause => fail cause
  | .ok (_, .file _) => fail .notFolder
  | .ok (place, .folder _) =>
    match w.find path with
    | .ok (_, .folder _) => pure ()
    | .ok (_, .file _) | .error .notFolder => fail .occupied
    | .error .missing =>
      if path == "" then fail .missing else set { w with tree := w.tree.put .empty (place ++ [name]) }
    | .error cause => fail cause

/-- Make a folder and those above it. A path has at most `depth` names. -/
def makeFolders : Nat → String → Change FileFault Unit
  | 0, _ => pure ()
  | depth + 1, path => do
    match (← get).find path with
    | .ok (_, .folder _) => pure ()
    | .ok (_, .file _) => throw { action := "mkdir", path, cause := .notFolder }
    | .error _ =>
      let parent := String.ofList (splitLast path).1.toList.dropLast
      if parent != "" then makeFolders depth parent
      makeFolder path

/-- Write a file into a folder that exists. -/
def writeFile (path content : String) : Change FileFault Unit := do
  let w ← get
  let fail (cause : PathFault) : Change FileFault Unit := throw { action := "open", path, cause }
  match w.find path with
  | .ok (_, .folder _) => fail .isFolder
  | .ok (place, .file _) => set { w with tree := w.tree.put (.file content) place }
  | .error .missing =>
    match w.find (Path.folder path) with
    | .ok (place, .folder _) =>
      set { w with tree := w.tree.put (.file content) (place ++ [Path.baseName path]) }
    | _ => fail .missing
  | .error cause => fail cause

/-- Make one item of a template in a folder. -/
def makeItem (folder : String) (overwrite : Bool) : TemplateItem → Change FileFault Unit
  | .folder path =>
    let path := Path.join folder path
    makeFolders (path.length + 1) path
  | .file path content => do
    let path := Path.join folder path
    if overwrite || !(← get).exists? path then writeFile path content

/-- Make a project in a folder. -/
def makeProject (folder : String) (template : ProjectTemplate) (overwrite : Bool) : Change InitFault Unit := do
  if folder != "." then
    ExceptT.adapt (InitFault.folder folder) (makeFolders (folder.length + 1) folder)
  match (← get).settingsFile? folder with
  | some existing => if !overwrite then throw (.settingsExist (Path.baseName existing))
  | none => pure ()
  ExceptT.adapt InitFault.template (template.items.forM (makeItem folder overwrite))

end Change

end ColumnFlow
