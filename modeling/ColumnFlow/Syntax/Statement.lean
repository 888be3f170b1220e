import ColumnFlow.Syntax.Query

/-!
# Statements

A script is a list of batches, a batch a list of statements. Statements hold statements only in bodies of
blocks, branches, loops and modules.
-/

namespace ColumnFlow

open Text (Span)

/-- `OUTPUT items [INTO table [(columns)]]`. -/
structure OutputClause where
  span : Span
  columns : List SelectItem
  into : Option ObjectName
  intoColumns : List ColumnRef

/-- One assignment of a `SET` list: to a column, to a variable, or to both at once. -/
structure SetClause where
  span : Span
  column : Option ColumnRef
  variableName : String
  op : Symbol
  value : Expr

/-- An argument of a procedure call; no value stands for `DEFAULT`. -/
structure ExecParam where
  span : Span
  name : String
  value : Option Expr
  output : Bool

/-- What an `EXEC` runs. -/
inductive ExecTarget where
  | procedure (name : ObjectName)
  | localVar (name : String)
  /-- `EXEC (text) [AT server]`. -/
  | text (sql : Expr) (server : String)

structure ExecStmt where
  span : Span
  returnVariable : String
  target : ExecTarget
  params : List ExecParam

inductive InsertSource where
  /-- Stands where no source could be read. -/
  | missing
  | values (rows : List (List Expr))
  | query (query : Query)
  | exec (exec : ExecStmt)
  | defaults

structure InsertStmt where
  span : Span
  ctes : Option WithClause
  top : Option TopClause
  target : ObjectName
  columns : List ColumnRef
  output : Option OutputClause
  source : InsertSource

structure UpdateStmt where
  span : Span
  ctes : Option WithClause
  top : Option TopClause
  target : ObjectName
  sets : List SetClause
  output : Option OutputClause
  source : Option FromClause
  filter : Option Expr

structure DeleteStmt where
  span : Span
  ctes : Option WithClause
  top : Option TopClause
  target : ObjectName
  output : Option OutputClause
  source : Option FromClause
  filter : Option Expr

inductive MergeMatch where
  | matched
  | notMatchedByTarget
  | notMatchedBySource
  deriving DecidableEq, Repr, Inhabited

inductive MergeDo where
  | update (sets : List SetClause)
  | delete
  | insert (columns : List ColumnRef) (values : List Expr)
  | insertDefaults (columns : List ColumnRef)

structure MergeWhen where
  span : Span
  rows : MergeMatch
  condition : Option Expr
  action : MergeDo

structure MergeStmt where
  span : Span
  ctes : Option WithClause
  target : ObjectName
  targetAlias : String
  source : TableRef
  on : Expr
  whens : List MergeWhen
  output : Option OutputClause

structure ParamDef where
  name : String
  typeName : String
  default : Option Expr
  output : Bool
  readOnly : Bool

structure ColumnDef where
  name : String
  typeName : String
  computed : Option Expr

structure VarDecl where
  span : Span
  name : String
  typeName : String
  value : Option Expr
  tableColumns : List ColumnDef

/-- The header of a function definition. `returnTable` is the variable that holds the result of a
multi-statement function. -/
structure FunctionHeader where
  alter : Bool
  name : ObjectName
  params : List ParamDef
  returnType : String
  returnTable : String
  tableColumns : List ColumnDef

inductive Stmt where
  /-- Stands where a statement could not be read. -/
  | missing
  | select (query : Query)
  | insert (stmt : InsertStmt)
  | update (stmt : UpdateStmt)
  | delete (stmt : DeleteStmt)
  | merge (stmt : MergeStmt)
  | exec (stmt : ExecStmt)
  | truncate (span : Span) (table : ObjectName)
  | block (span : Span) (body : List Stmt)
  | ifElse (span : Span) (cond : Expr) (yes : Stmt) (no : Option Stmt)
  | loop (span : Span) (cond : Expr) (body : Stmt)
  | tryCatch (span : Span) (attempt handler : List Stmt)
  | createProc (span : Span) (alter : Bool) (name : ObjectName) (params : List ParamDef)
      (body : List Stmt)
  | createView (span : Span) (alter : Bool) (name : ObjectName) (columns : List String) (query : Query)
  | createFunction (span : Span) (header : FunctionHeader) (body : List Stmt)
  /-- `table` is absent for triggers on definition events. -/
  | createTrigger (span : Span) (alter : Bool) (name : ObjectName) (table : Option ObjectName)
      (events : List String) (body : List Stmt)
  | createTable (span : Span) (name : ObjectName) (columns : List ColumnDef)
  | declare (span : Span) (vars : List VarDecl)
  | declareCursor (span : Span) (name : String) (query : Query)
  | drop (span : Span) (kind : String) (names : List ObjectName)
  | transaction (span : Span) (action : String) (name : String)
  | return (span : Span) (value : Option Expr) (query : Option Query)
  | print (span : Span) (value : Expr)
  | raise (span : Span) (keyword : String) (args : List Expr)
  /-- No value stands for a cursor definition. -/
  | setVariable (span : Span) (variableName : String) (op : Symbol) (value : Option Expr)
  | setOption (span : Span) (option value : String)
  | cursor (span : Span) (action cursor : String) (into : List String)
  | control (span : Span) (keyword label : String)
  | use (span : Span) (database : String)
  /-- A statement that is recognised and skipped. -/
  | other (span : Span) (keyword : String)

namespace Stmt

def span : Stmt → Span
  | .missing => .unset
  | .select query => query.span
  | .insert stmt => stmt.span
  | .update stmt => stmt.span
  | .delete stmt => stmt.span
  | .merge stmt => stmt.span
  | .exec stmt => stmt.span
  | .truncate span .. | .block span .. | .ifElse span .. | .loop span .. | .tryCatch span ..
  | .createProc span .. | .createView span .. | .createFunction span .. | .createTrigger span ..
  | .createTable span .. | .declare span .. | .declareCursor span .. | .drop span ..
  | .transaction span .. | .return span .. | .print span .. | .raise span .. | .setVariable span ..
  | .setOption span .. | .cursor span .. | .control span .. | .use span .. | .other span .. => span

def isMissing : Stmt → Bool
  | .missing => true
  | _ => false

end Stmt

/-- A run of statements between separators. -/
structure Batch where
  span : Span
  stmts : List Stmt

structure Script where
  span : Span
  source : String
  batches : List Batch

end ColumnFlow
