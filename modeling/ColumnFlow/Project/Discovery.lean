import ColumnFlow.Lineage.Source
import ColumnFlow.Project.FileTree
import ColumnFlow.Project.Glob
import ColumnFlow.Text.Case

/-!
# Discovery of definition files

A root that is a file is a definition, whatever its extension. Below a root that is a folder, definitions are
the files with one of the extensions, in the order of their names, unless they or a folder on the way to them
are hidden or excluded.
-/

namespace ColumnFlow

structure DiscoveryOptions where
  /-- With the dot, in any case; `.sql` if there are none. -/
  extensions : List String := []
  /-- Patterns for names, and for paths below the root. -/
  exclude : List String := []

namespace DiscoveryOptions

def effectiveExtensions (o : DiscoveryOptions) : List String :=
  if o.extensions.isEmpty then [".sql"] else o.extensions

def hasExtension (o : DiscoveryOptions) (name : String) : Bool :=
  o.effectiveExtensions.any fun extension => Text.equalFold extension (Path.extension name)

/-- Whether a name is hidden by its first character. -/
def isHidden (name : String) : Bool :=
  name.toList.head? == some '.' && name != "." && name != ".."

/-- Whether a node is excluded, by its names from the root or by its own name. -/
def isExcluded (o : DiscoveryOptions) (names : Place) (name : String) : Bool :=
  o.exclude.any fun pattern =>
    Glob.globMatches pattern ("/".intercalate names) || Glob.globMatches pattern name

def isSkipped (o : DiscoveryOptions) (names : Place) (name : String) : Bool :=
  isHidden name || o.isExcluded names name

end DiscoveryOptions

/-- The results of entries, in the order of their names. -/
def inNameOrder {α : Type} (entries : List (String × List α)) : List α :=
  (entries.mergeSort fun a b => decide (a.1 ≤ b.1)).flatMap (·.2)

namespace FileTree

mutual

/-- The definitions at or below a node with the given names from the root. -/
def definitionsAt (o : DiscoveryOptions) (names : Place) (name : String) : FileTree → List Place
  | .file _ => if o.hasExtension name then [names] else []
  | .folder entries => inNameOrder (definitionsOf o names entries)

/-- The definitions of each entry of a folder. -/
def definitionsOf (o : DiscoveryOptions) (names : Place) : List (String × FileTree) → List (String × List Place)
  | [] => []
  | entry :: rest => definitionsOfEntry o names entry :: definitionsOf o names rest

def definitionsOfEntry (o : DiscoveryOptions) (names : Place) : String × FileTree → String × List Place
  | (name, node) =>
    (name, if o.isSkipped (names ++ [name]) name then [] else definitionsAt o (names ++ [name]) name node)

end

/-- The definitions below a folder, by their names from it. -/
def definitions (o : DiscoveryOptions) (tree : FileTree) : List Place :=
  inNameOrder (definitionsOf o [] tree.entries)

end FileTree

/-- The definition files of one root. -/
def Workspace.discoverRoot (w : Workspace) (o : DiscoveryOptions) (root : String) :
    Except PathFault (List Place) := do
  let place := Path.place w.folder root
  match ← w.find root with
  | (_, .file _) => return [place]
  | (_, .folder entries) => return ((FileTree.folder entries).definitions o).map (place ++ ·)

/-- A root that cannot be used. -/
structure RootFault where
  root : String
  cause : PathFault
  deriving DecidableEq, Repr

def RootFault.message (f : RootFault) : String := s!"stat {f.root}: stat {f.root}: {f.cause.message}"

/-- The definition files of all roots, each once. Fails with the first root that cannot be used. -/
def Workspace.discover (w : Workspace) (o : DiscoveryOptions) (roots : List String) :
    Except RootFault (List Place) := do
  let found ← roots.mapM fun root =>
    match w.discoverRoot o root with
    | .ok places => Except.ok places
    | .error cause => .error { root, cause }
  return distinctBy Path.ofPlace found.flatten

end ColumnFlow
