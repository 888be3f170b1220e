import ColumnFlow.Lineage.Source

/-!
# Scopes

A scope is a stack of levels, innermost first. A level holds the table sources of one query block and the
common tables that its `FROM` clauses may name. Names are compared by their folded keys.
-/

namespace ColumnFlow

/-- A table source as a query block sees it. -/
structure TableSource where
  name : String
  schema : String := ""
  database : String := ""
  aliasName : String := ""
  kind : TableKind
  deriving DecidableEq, Repr

/-- The name the source is known by: its alias, if it has one. -/
def TableSource.visibleName (t : TableSource) : String := if t.aliasName != "" then t.aliasName else t.name

/-- A table source bound to a key. -/
structure Binding where
  key : String
  source : TableSource
  /-- All columns of the source, if they are known. -/
  columns : Option (List String)
  /-- Set for a source that never owns an unqualified column. -/
  hidden : Bool := false
  deriving DecidableEq, Repr

namespace Binding

/-- The source under the name it is known by. -/
def ofSource (source : TableSource) (columns : Option (List String)) : Binding :=
  { key := Text.fold source.visibleName, source, columns }

/-- Whether the source may have the column: its columns are not known, or the column is among them. -/
def mayHave (b : Binding) (column : String) : Bool :=
  match b.columns with
  | none => true
  | some columns => columns.any fun c => Text.fold c == Text.fold column

/-- A column as read through the binding. -/
def read (b : Binding) (column : String) : SourceColumn :=
  { column, qualifier := b.source.aliasName, database := b.source.database, schema := b.source.schema
    table := b.source.name, kind := some b.source.kind }

end Binding

/-- A common table expression that can be named. -/
structure CommonDef where
  key : String
  name : String
  columns : Option (List String)
  deriving DecidableEq, Repr

structure Level where
  tables : List Binding := []
  commons : List CommonDef := []
  deriving DecidableEq, Repr

/-- The tables of a level that may own an unqualified column. -/
def Level.owners (level : Level) (column : String) : List Binding :=
  level.tables.filter fun b => !b.hidden && b.mayHave column

structure Scope where
  level : Level := {}
  outer : List Level := []
  deriving DecidableEq, Repr

namespace Scope

def levels (s : Scope) : List Level := s.level :: s.outer

/-- A new level inside `s`. -/
def child (s : Scope) : Scope := { level := {}, outer := s.levels }

/-- Bind a table at the innermost level. It replaces a table of that level with the same key. -/
def bind (s : Scope) (b : Binding) : Scope :=
  { s with level := { s.level with tables := s.level.tables.filter (·.key != b.key) ++ [b] } }

/-- Define a common table at the innermost level, in place of one with the same key. -/
def define (s : Scope) (d : CommonDef) : Scope :=
  { s with level := { s.level with commons := s.level.commons.filter (·.key != d.key) ++ [d] } }

/-- The table bound to a key, innermost level first. -/
def lookup (s : Scope) (key : String) : Option Binding :=
  s.levels.findSome? fun level => level.tables.find? (·.key == key)

/-- The common table with a key, innermost level first. -/
def common (s : Scope) (key : String) : Option CommonDef :=
  s.levels.findSome? fun level => level.commons.find? (·.key == key)

/-- The tables that may own an unqualified column: those of the innermost level that has any. -/
def candidates (s : Scope) (column : String) : List Binding :=
  (s.levels.map (·.owners column)).find? (!·.isEmpty) |>.getD []

end Scope

end ColumnFlow
