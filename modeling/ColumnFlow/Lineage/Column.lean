import ColumnFlow.Lineage.Edge
import ColumnFlow.Lineage.Scope
import ColumnFlow.Syntax.Query

/-!
# Projected columns

The columns of a query: their names, and what they are read from. A star over tables whose columns are all
known stands for those columns; any other star is a column of its own that stands for an unknown number of
them.
-/

namespace ColumnFlow

/-- What an expression reads: every column reference in order of appearance, duplicates included. -/
structure Sources where
  columns : List SourceColumn := []
  transform : Transform
  deriving DecidableEq, Repr

inductive ColumnValue where
  | reads (sources : Sources)
  | wildcard (qualifier : String)
  deriving DecidableEq, Repr

structure Column where
  name : String
  /-- Whether the name is written as an alias. -/
  isAlias : Bool := false
  value : ColumnValue
  line : Nat
  deriving DecidableEq, Repr

namespace Column

def isWildcard (c : Column) : Bool := c.value matches .wildcard _

def sources (c : Column) : List SourceColumn :=
  match c.value with
  | .reads sources => sources.columns
  | .wildcard _ => []

/-- The edge from the column into the column `name` of the target. -/
def edge (c : Column) (kind : StatementKind) (target : Target) (name : String) : Edge :=
  match c.value with
  | .wildcard qualifier =>
    { kind, target, column := wildcardColumn, value := .wildcard qualifier, line := c.line }
  | .reads sources =>
    { kind, target, column := name
      value := .computed (SourceColumn.distinct sources.columns) sources.transform, line := c.line }

/-- Edges from columns into the columns of the target with the same names. -/
def edges (kind : StatementKind) (target : Target) (cs : List Column) : List Edge :=
  cs.map fun c => c.edge kind target c.name

/-! ### Names -/

/-- Names in order, unless a wildcard stands for unknown ones or there are none. -/
def names? (cs : List Column) : Option (List String) :=
  if cs.isEmpty || cs.any isWildcard then none else some (cs.map (·.name))

/-- Give columns the names of an explicit list, by position. Wildcards and columns past the end of the list
keep theirs. -/
def rename : List Column → List String → List Column
  | [], _ => []
  | cs, [] => cs
  | c :: cs, name :: names =>
    (if c.isWildcard then c else { c with name, isAlias := true }) :: rename cs names

/-- The first of `base`, `base_2`, `base_3`, ... whose key is not taken. A free one is found within as many
steps as there are taken keys, and one more. -/
def freeName (taken : List String) (base : String) : String :=
  go taken.length base 2
where
  go : Nat → String → Nat → String
    | 0, name, _ => name
    | n + 1, name, k =>
      if taken.contains (Text.fold name) then go n (base ++ "_" ++ toString k) (k + 1) else name

/-- Number the derived names that collide with an alias or an earlier name. -/
def uniqueNames (cs : List Column) : List Column :=
  go ((cs.filter (·.isAlias)).map fun c => Text.fold c.name) cs
where
  go (taken : List String) : List Column → List Column
    | [] => []
    | c :: rest =>
      if c.isAlias || c.isWildcard then c :: go taken rest
      else
        let name := freeName taken c.name
        { c with name } :: go (Text.fold name :: taken) rest

/-! ### Set operations -/

/-- A column and the one at the same position of the next branch. -/
def merge (tag : String) (c d : Column) : Column :=
  match c.value, d.value with
  | .reads left, .reads right =>
    let transform := if left.transform == .bare then .named tag else left.transform
    { c with value := .reads { columns := left.columns ++ right.columns, transform } }
  | _, _ => c

/-- Merge the columns of two branches by position; the left branch gives number and names. -/
def mergeAll (tag : String) : List Column → List Column → List Column
  | [], _ => []
  | cs, [] => cs
  | c :: cs, d :: ds => merge tag c d :: mergeAll tag cs ds

/-! ### Stars -/

/-- The part of a dotted qualifier after its last dot. -/
def lastPart (qualifier : String) : String :=
  String.ofList (qualifier.toList.reverse.takeWhile (· != '.')).reverse

/-- The columns a star over these tables stands for. -/
def expand (tables : List Binding) (qualifier : String) (line : Nat) : List Column :=
  match tables, tables.mapM (·.columns) with
  | _ :: _, some columnLists =>
    (tables.zip columnLists).flatMap fun (table, columns) =>
      columns.map fun name =>
        { name, value := .reads { columns := [table.read name], transform := .bare }, line }
  | _, _ => [{ name := wildcardColumn, value := .wildcard qualifier, line }]

/-- `*` over the tables of the innermost level. -/
def ofStar (s : Scope) (line : Nat) : List Column := expand s.level.tables "" line

/-- `qualifier.*`. -/
def ofTableStar (s : Scope) (qualifier : String) (line : Nat) : List Column :=
  let name := lastPart qualifier
  expand (s.lookup (Text.fold name)).toList name line

end Column

/-- Whether a call reads a sequence. -/
def FuncCall.isSequenceRead (fn : FuncCall) : Bool := sequenceRead.toList.isPrefixOf fn.name.toList

/-- The name of an unaliased select item at a position: that of the column or function, a word for other
expressions, or the position if there is nothing to name it by. -/
def Expr.columnName (e : Expr) (position : Nat) : String :=
  match e with
  | .missing => s!"column_{position}"
  | .column ref => ref.column
  | .call fn => if fn.isSequenceRead then s!"column_{position}" else Text.lower fn.name
  | .case .. => "case_result"
  | .coalesce .. => "coalesce"
  | .nullIf .. => "nullif"
  | .iif .. => "iif"
  | .cast _ operand _ _ => operand.columnName position
  | .convert _ _ operand _ _ => operand.columnName position
  | .paren _ inner => inner.columnName position
  | .collate _ operand _ => operand.columnName position
  | _ => "expr"

end ColumnFlow
