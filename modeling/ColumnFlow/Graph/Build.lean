import ColumnFlow.Graph.Basic
import ColumnFlow.Lineage.Result

/-!
# The graph of many definitions

Every edge into a column of a table counts, and of its sources those that are columns of tables. A local
temporary table or a table variable lives as long as its definition, so its columns are named after the
definition and do not join definitions of different names. Global temporary tables are shared under their own names.
-/

namespace ColumnFlow

/-- Whether a table is a local temporary table or a table variable. -/
def isLocalTable (table : String) : Bool :=
  match table.toList with
  | '@' :: _ => true
  | '#' :: '#' :: _ => false
  | '#' :: _ => true
  | _ => false

def isGlobalTemp (table : String) : Bool :=
  match table.toList with
  | '#' :: '#' :: _ => true
  | _ => false

/-- The name of a column in the graph. A table without a schema that is not temporary is a derived or common
table, whose columns take no part. -/
def nodeName? (definition schema table qualified : String) : Option String :=
  if schema != "" then some qualified
  else if isLocalTable table then some (definition ++ "::" ++ qualified)
  else if isGlobalTemp table then some qualified
  else none

namespace Edge

/-- The column of the graph that an edge writes. -/
def targetNode? (e : Edge) (definition : String) : Option String :=
  if e.target.table == "" || e.column == wildcardColumn || e.isRemoval then none
  else nodeName? definition e.target.schema e.target.table e.targetName

end Edge

/-- The column of the graph that a source stands for. -/
def SourceColumn.node? (c : SourceColumn) (definition : String) : Option String :=
  if c.isResolved && c.kind == some .plain then nodeName? definition c.schema c.table c.qualifiedName
  else none

namespace ColumnGraph

/-- Add a source of a target column. -/
def addSource (definition target : String) (g : ColumnGraph) (source : SourceColumn) : ColumnGraph :=
  match source.node? definition with
  | none => g
  | some name =>
    let g := g.addNode name
    if key name == target then g else (g.connect (key name) target).1

def addEdge (definition : String) (g : ColumnGraph) (e : Edge) : ColumnGraph :=
  match e.targetNode? definition with
  | none => g
  | some name =>
    let target := key name
    e.sources.foldl (addSource definition target) ((g.addNode name).addWriter target definition)

def addLineage (g : ColumnGraph) (l : Lineage) : ColumnGraph := l.edges.foldl (addEdge l.name) g

/-- The graph of the results of many definitions. -/
def ofLineages (ls : List Lineage) : ColumnGraph := ls.foldl addLineage {}

end ColumnGraph

end ColumnFlow
