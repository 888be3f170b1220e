import ColumnFlow.Text.Case

/-!
# Columns that values are read from

A source column keeps what is written (column and qualifier) and, when the qualifier or the only candidate
table was found in scope, the table it belongs to. References that could not be resolved are kept too. Two
references are the same when their keys are: the qualified names up to case.
-/

namespace ColumnFlow

/-- What a table reference stands for. Functions, remote sources and value lists count as derived. -/
inductive TableKind where
  | plain | derived | common
  deriving DecidableEq, Repr, Inhabited

def TableKind.text : TableKind → String
  | .plain => "Plain"
  | .derived => "DerivedSubquery"
  | .common => "CommonTableExpression"

/-- A column read by an expression. `database`, `schema`, `table` and `kind` are those of the table it was
resolved to, and empty if there is none. -/
structure SourceColumn where
  column : String
  qualifier : String := ""
  database : String := ""
  schema : String := ""
  table : String := ""
  kind : Option TableKind := none
  ambiguous : Bool := false
  deriving DecidableEq, Repr, Inhabited

/-- The items whose keys differ from those of all items before them. -/
def distinctBy {α : Type} (key : α → String) (items : List α) : List α := go [] items
where
  go (seen : List String) : List α → List α
    | [] => []
    | item :: rest =>
      let k := key item
      if seen.contains k then go seen rest else item :: go (k :: seen) rest

namespace SourceColumn

def isResolved (c : SourceColumn) : Bool := c.table != ""

/-- The parts in front of the column: those of the resolved table, else the qualifier. A table without a
name of its own, such as a subquery, is called by its alias. -/
def qualifiers (c : SourceColumn) : List String :=
  if c.kind == some .derived && c.table.toList.head? == some '(' then [c.qualifier]
  else if c.isResolved then [c.database, c.schema].filter (· != "") ++ [c.table]
  else if c.qualifier != "" then [c.qualifier]
  else []

/-- The column with whatever qualification is known. -/
def qualifiedName (c : SourceColumn) : String := ".".intercalate (c.qualifiers ++ [c.column])

/-- What identifies a source up to case. An ambiguous reference is never the same as a plain one. -/
def key (c : SourceColumn) : String :=
  let folded := Text.fold c.qualifiedName
  if !c.isResolved && c.ambiguous then "?" ++ folded else folded

/-- The first reference of each key, in order. -/
def distinct (cs : List SourceColumn) : List SourceColumn := distinctBy key cs

end SourceColumn

end ColumnFlow
