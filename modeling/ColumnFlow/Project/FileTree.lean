import ColumnFlow.Project.Path

/-!
# File trees

A file tree is a value: files with their content, and folders that hold named nodes.
-/

namespace ColumnFlow

inductive FileTree where
  | file (content : String)
  | folder (entries : List (String × FileTree))
  deriving Inhabited

namespace FileTree

def empty : FileTree := .folder []

def isFolder : FileTree → Bool
  | .folder _ => true
  | .file _ => false

def entries : FileTree → List (String × FileTree)
  | .folder entries => entries
  | .file _ => []

/-- The node of a name in a folder. -/
def child? (tree : FileTree) (name : String) : Option FileTree := tree.entries.lookup name

/-- The node at a place. -/
def node? (tree : FileTree) : Place → Option FileTree
  | [] => some tree
  | name :: rest => (tree.child? name).bind fun child => child.node? rest

/-- Put an entry into a list of entries, in place of one of the same name. -/
def putEntry (name : String) (node : FileTree) : List (String × FileTree) → List (String × FileTree)
  | [] => [(name, node)]
  | entry :: rest => if entry.1 == name then (name, node) :: rest else entry :: putEntry name node rest

/-- Put a node at a place, with folders on the way to it where there are none. -/
def put (tree : FileTree) (node : FileTree) : Place → FileTree
  | [] => node
  | name :: rest =>
    .folder (putEntry name (((tree.child? name).getD empty).put node rest) tree.entries)

/-- Make sure that there is a folder at a place. -/
def putFolder (tree : FileTree) (place : Place) : FileTree :=
  match tree.node? place with
  | some (.folder _) => tree
  | _ => tree.put empty place

mutual

/-- All files with their places below a place. -/
def filesBelow (place : Place) : FileTree → List (Place × String)
  | .file content => [(place, content)]
  | .folder entries => filesOfEntries place entries

def filesOfEntries (place : Place) : List (String × FileTree) → List (Place × String)
  | [] => []
  | entry :: rest => filesOfEntry place entry ++ filesOfEntries place rest

def filesOfEntry (place : Place) : String × FileTree → List (Place × String)
  | (name, node) => filesBelow (place ++ [name]) node

end

end FileTree

/-- Why a path cannot be used. -/
inductive PathFault where
  | missing
  | notFolder
  | isFolder
  | occupied
  | nameTooLong
  /-- The path holds a character that no path can hold. -/
  | malformed
  deriving DecidableEq, Repr

def PathFault.message : PathFault → String
  | .missing => "no such file or directory"
  | .notFolder => "not a directory"
  | .isFolder => "is a directory"
  | .occupied => "file exists"
  | .nameTooLong => "file name too long"
  | .malformed => "invalid argument"

/-- The most bytes that a name in a folder can have. -/
def longestName : Nat := 255

/-- The most bytes that a path can have. -/
def longestPath : Nat := 4095

namespace FileTree

/-- Follow a path name by name. Each name but the last has to be a folder, also before `.` and `..`, and so
does the last one if a slash follows it. How long a name is matters only once its folder is found. -/
def follow (tree : FileTree) : Place → List String → Except PathFault Place
  | place, [] => .ok place
  | place, name :: rest =>
    match tree.node? place with
    | some (.folder entries) =>
      if name == "" || name == "." then follow tree place rest
      else if name == ".." then follow tree place.dropLast rest
      else if name.utf8ByteSize > longestName then .error .nameTooLong
      else if (entries.lookup name).isSome then follow tree (place ++ [name]) rest
      else .error .missing
    | some (.file _) => .error .notFolder
    | none => .error .missing

end FileTree

/-- Where a command runs: the files, the current folder and the variables of the environment. -/
structure Workspace where
  tree : FileTree
  folder : Place
  environment : List (String × String) := []

namespace Workspace

/-- The place and node that a path leads to. -/
def find (w : Workspace) (path : String) : Except PathFault (Place × FileTree) := do
  if path.toList.contains '\x00' then throw .malformed
  if path == "" then throw .missing
  if path.utf8ByteSize > longestPath then throw .nameTooLong
  let place ← w.tree.follow (if Path.isAbsolute path then [] else w.folder) (Path.parts path)
  match w.tree.node? place with
  | some node => return (place, node)
  | none => throw .missing

def exists? (w : Workspace) (path : String) : Bool :=
  match w.find path with
  | .ok _ => true
  | .error _ => false

/-- The full path of a path that may be relative to the current folder. -/
def absolute (w : Workspace) (path : String) : String := Path.ofPlace (Path.place w.folder path)

end Workspace

/-- A use of a path that failed. -/
structure FileFault where
  action : String
  path : String
  cause : PathFault
  deriving DecidableEq, Repr

def FileFault.message (f : FileFault) : String := s!"{f.action} {f.path}: {f.cause.message}"

/-- The content of a file. -/
def Workspace.read (w : Workspace) (path : String) : Except FileFault String :=
  match w.find path with
  | .ok (_, .file content) => .ok content
  | .ok (_, .folder _) => .error { action := "read", path, cause := .isFolder }
  | .error cause => .error { action := "open", path, cause }

end ColumnFlow
