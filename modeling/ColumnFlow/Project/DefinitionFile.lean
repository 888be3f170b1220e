import ColumnFlow.Lineage.Extract
import ColumnFlow.Project.Discovery
import ColumnFlow.Project.FrontMatter

/-!
# Definition files

Each file is one definition. Its name is that of its front matter, else that of the file without extension.
-/

namespace ColumnFlow

structure DefinitionFile where
  path : String
  frontMatter : FrontMatter
  definition : Definition

inductive LoadFault where
  | root (fault : RootFault)
  | noDefinitions (roots : List String)
  | unreadable (fault : FileFault)
  | frontMatter (path : String) (fault : FrontMatterFault)
  deriving DecidableEq, Repr

def LoadFault.message : LoadFault → String
  | .root fault => fault.message
  | .noDefinitions roots => "no definition files found in " ++ ", ".intercalate roots
  | .unreadable fault => s!"read definition: {fault.message}"
  | .frontMatter path fault => s!"{path}: {fault.message}"

/-- The front matter with a name, taken from the file if it has none. -/
def FrontMatter.withDefaults (f : FrontMatter) (fileName : String) : FrontMatter :=
  if f.name == "" then { f with name := Path.stem fileName } else f

namespace Workspace

/-- Read one definition file. -/
def readDefinition (w : Workspace) (path : String) : Except LoadFault DefinitionFile := do
  let sql ← (w.read path).mapError .unreadable
  let found ← (FrontMatter.ofText? sql).mapError (.frontMatter path)
  let frontMatter := (found.getD {}).withDefaults (Path.baseName path)
  return {
    path
    frontMatter
    definition := { name := frontMatter.name, sql, defaultSchema := frontMatter.defaultSchema } }

/-- The definition files of all roots, without those that ask to be left out. -/
def loadDefinitions (w : Workspace) (o : DiscoveryOptions) (roots : List String) :
    Except LoadFault (List DefinitionFile) := do
  let found ← (w.discover o roots).mapError .root
  if found.isEmpty then throw (.noDefinitions roots)
  let files ← found.mapM fun place => w.readDefinition (Path.ofPlace place)
  return files.filter (!·.frontMatter.skip)

end Workspace

end ColumnFlow
