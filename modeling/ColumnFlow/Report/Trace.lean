import ColumnFlow.Graph.Build
import ColumnFlow.Graph.Reach
import ColumnFlow.Report.Render

/-!
# Traces

All columns that a column is derived from, or all that are derived from it.
-/

namespace ColumnFlow

/-- Which way a trace goes: to what a column is derived from, or to what is derived from it. -/
inductive TraceDirection where
  | toSources | toTargets
  deriving DecidableEq, Repr

def TraceDirection.text : TraceDirection → String
  | .toSources => "upstream"
  | .toTargets => "downstream"

structure TraceReport where
  column : ColumnNode
  direction : TraceDirection
  reached : List ColumnNode

namespace TraceReport

/-- The trace of a column, unless the graph does not hold it. -/
def ofGraph? (graph : ColumnGraph) (name : String) (direction : TraceDirection) : Option TraceReport :=
  (graph.node? name).map fun column =>
    let ids := match direction with
      | .toSources => graph.ancestors [column.id]
      | .toTargets => graph.descendants [column.id]
    { column, direction, reached := ids.filterMap graph.node? }

def nodeFields (name : String) (n : ColumnNode) (between : List (String × JsonValue)) : List (String × JsonValue) :=
  (name, .text n.name) :: between ++ JsonValue.listField "writers" (n.writers.map .text)

def json (r : TraceReport) : JsonValue :=
  .record <| nodeFields "column" r.column [("direction", .text r.direction.text)]
    ++ [("columns", .list (r.reached.map fun n => .record (nodeFields "name" n [])))]

def writerText (n : ColumnNode) : String := "written by " ++ ", ".intercalate n.writers

def textLines (r : TraceReport) : List String :=
  let line (n : ColumnNode) : String :=
    "  " ++ n.name ++ if n.writers.isEmpty then "" else styled ("  " ++ writerText n)
  ["", styled s!"{r.column.name} ({r.direction.text})", ""]
    ++ (if r.reached.isEmpty then [styled s!"  No {r.direction.text} columns"] else r.reached.map line)
    ++ [""]

def markdownLines (r : TraceReport) : List String :=
  let line (n : ColumnNode) : String :=
    "- `" ++ n.name ++ "`" ++ if n.writers.isEmpty then "" else s!" ({writerText n})"
  [Markdown.header 1 r.column.name, "", s!"{r.reached.length} {r.direction.text} column(s)", ""]
    ++ r.reached.map line ++ [""]

/-- The trace in a mode that is not `auto`. -/
def render (r : TraceReport) (mode : OutputMode) : String :=
  match mode with
  | .json => r.json.render
  | .markdown => joinLines r.markdownLines
  | _ => joinLines r.textLines

end TraceReport

end ColumnFlow
