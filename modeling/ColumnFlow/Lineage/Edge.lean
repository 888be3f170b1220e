import ColumnFlow.Lineage.Source
import ColumnFlow.Token.Kind

/-!
# Edges

An edge says where the value of one target column comes from. How a computed value is made is its
transformation: a column as it is has the transformation `bare`, and so have stars and removed rows, which make
no value.
-/

namespace ColumnFlow

inductive StatementKind where
  | select | insert | update | merge | delete
  deriving DecidableEq, Repr, Inhabited

def StatementKind.text : StatementKind → String
  | .select => "Select"
  | .insert => "Insert"
  | .update => "Update"
  | .merge => "Merge"
  | .delete => "Delete"

/-- How a value is made from what it reads. -/
inductive Transform where
  /-- Nothing is done: the value is a column as it is. -/
  | bare
  | literal
  | localVar
  /-- An operation without a name of its own. -/
  | expression
  | named (text : String)
  deriving DecidableEq, Repr, Inhabited

namespace Transform

def text : Transform → String
  | .bare => ""
  | .literal => "literal"
  | .localVar => "variable"
  | .expression => "expression"
  | .named text => text

/-- What is left of a transformation inside a larger expression: its name, or that it is an expression. -/
def inner : Transform → Transform
  | .named text => .named text
  | _ => .expression

/-- The transformation of `left op right`. -/
def compose (left : Transform) (op : String) (right : Transform) : Transform :=
  match left, right with
  | .named l, .named r => .named (l ++ " " ++ op ++ " " ++ r)
  | .named l, _ => .named l
  | _, .named r => .named r
  | _, _ => .expression

end Transform

/-- The table that is written. Result sets outside any object have none. -/
structure Target where
  schema : String := ""
  table : String := ""
  deriving DecidableEq, Repr, Inhabited

/-- The clause of a `MERGE` an edge comes from. -/
inductive MergeAction where
  | update | delete | insert
  deriving DecidableEq, Repr, Inhabited

def MergeAction.text : MergeAction → String
  | .update => "WhenMatchedUpdate"
  | .delete => "WhenMatchedDelete"
  | .insert => "WhenNotMatchedInsert"

/-- When a clause of a `MERGE` applies. -/
inductive MergeCondition where
  | matched | notMatched | notMatchedBySource
  /-- The clause has a condition of its own. -/
  | conditional
  /-- The clause inserts default values. -/
  | default
  deriving DecidableEq, Repr, Inhabited

def MergeCondition.text : MergeCondition → String
  | .matched => "MATCHED"
  | .notMatched => "NOT MATCHED"
  | .notMatchedBySource => "NOT MATCHED BY SOURCE"
  | .conditional => "CONDITIONAL"
  | .default => "DEFAULT"

/-- Where a written value comes from. -/
inductive EdgeValue where
  /-- An expression over these columns. -/
  | computed (sources : List SourceColumn) (transform : Transform)
  /-- All columns of tables whose columns are not known. -/
  | wildcard (qualifier : String)
  /-- Constants. -/
  | literal (transform : Transform)
  /-- The rows a procedure or a text returns. -/
  | dynamic (transform : Transform)
  /-- Nothing: rows are removed. -/
  | removal (transform : Transform)
  deriving DecidableEq, Repr, Inhabited

structure Edge where
  kind : StatementKind
  target : Target
  column : String
  value : EdgeValue
  merge : Option (MergeAction × MergeCondition) := none
  /-- The operator of an assignment. -/
  operator : Option Symbol := none
  statement : Nat := 0
  line : Nat
  deriving DecidableEq, Repr

/-- The column that stands for all columns of a table. -/
def wildcardColumn : String := "*"

/-- A column with the parts of its target that are not empty. -/
def Target.columnName (t : Target) (column : String) : String :=
  ".".intercalate ([t.schema, t.table].filter (· != "") ++ [column])

namespace Edge

def sources (e : Edge) : List SourceColumn :=
  match e.value with
  | .computed sources _ => sources
  | _ => []

def transform (e : Edge) : Transform :=
  match e.value with
  | .computed _ transform | .literal transform | .dynamic transform | .removal transform => transform
  | .wildcard _ => .bare

def isWildcard (e : Edge) : Bool := e.value matches .wildcard _

def isLiteral (e : Edge) : Bool := e.value matches .literal _

def isDynamic (e : Edge) : Bool := e.value matches .dynamic _

def isRemoval (e : Edge) : Bool := e.value matches .removal _

/-- The qualifier of a wildcard, as in `t.*`. -/
def wildcardQualifier (e : Edge) : String :=
  match e.value with
  | .wildcard qualifier => qualifier
  | _ => ""

def targetName (e : Edge) : String := e.target.columnName e.column

end Edge

end ColumnFlow
