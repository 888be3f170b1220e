import ColumnFlow.Lineage.Source
import ColumnFlow.Project.FileTree
import ColumnFlow.Text.Case

/-!
# What is watched

Changes of definition files and of the schema file are of interest. They are seen through the folders that
hold them.
-/

namespace ColumnFlow

/-- The folders to watch for some targets, each once. A target that is no folder is watched through its
folder. -/
def Workspace.watchedFolders (w : Workspace) (targets : List String) (schemaFile : String) : List String :=
  let folderOf (target : String) : String :=
    match w.find target with
    | .ok (_, .folder _) => target
    | _ => Path.folder target
  let schema := if schemaFile == "" then [] else [Path.folder schemaFile]
  distinctBy id ((targets.map folderOf ++ schema).map w.absolute)

/-- Whether a change of a file matters. Hidden files do not, unless one is the schema file. -/
def isWatched (path : String) (extensions : List String) (schemaFile : String) : Bool :=
  if schemaFile != "" && Path.clean path == Path.clean schemaFile then true
  else if (Path.baseName path).toList.head? == some '.' then false
  else extensions.any fun extension => Text.equalFold (Path.extension path) extension

end ColumnFlow
