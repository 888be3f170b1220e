import ColumnFlow.Syntax.Basic

/-!
# Expressions, queries and table sources

Parsing goes on after an error, so a tree may have holes: `Expr.missing`, `TableRef.missing` and a query whose
select list is empty. A statement with a hole in it is dropped by the parser.

An alias, a qualifier or a mode that is not written is empty.
-/

namespace ColumnFlow

open Text (Span)

mutual

inductive Expr where
  /-- Stands where an expression could not be read. -/
  | missing
  | column (ref : ColumnRef)
  | literal (span : Span) (kind : LiteralKind) (value : String)
  | localVar (span : Span) (name : String)
  | binary (span : Span) (left : Expr) (op : BinaryOp) (right : Expr)
  | unary (span : Span) (op : UnaryOp) (operand : Expr)
  | call (call : FuncCall)
  | case (span : Span) (operand : Option Expr) (whens : List WhenClause) (otherwise : Option Expr)
  | cast (span : Span) (operand : Expr) (typeName : String) (lenient : Bool)
  | convert (span : Span) (typeName : String) (operand : Expr) (style : Option Expr) (lenient : Bool)
  | coalesce (span : Span) (args : List Expr)
  | nullIf (span : Span) (left right : Expr)
  | iif (span : Span) (cond yes no : Expr)
  | inList (span : Span) (operand : Expr) (negated : Bool) (values : List Expr)
  | inQuery (span : Span) (operand : Expr) (negated : Bool) (query : Query)
  | between (span : Span) (operand : Expr) (negated : Bool) (low high : Expr)
  | isNull (span : Span) (operand : Expr) (negated : Bool)
  | like (span : Span) (operand : Expr) (negated : Bool) (pattern : Expr) (escape : Option Expr)
  | collate (span : Span) (operand : Expr) (collation : String)
  | paren (span : Span) (inner : Expr)
  /-- `*` or `table.*`. -/
  | star (span : Span) (table : String)
  | subquery (span : Span) (query : Query)
  | exists (span : Span) (query : Query)

/-- A function call. `star` is set for `f(*)`. -/
structure FuncCall where
  span : Span
  schema : String
  name : String
  distinct : Bool
  args : List Expr
  star : Bool
  withinGroup : List OrderItem
  window : Option WindowSpec

structure WindowSpec where
  partitionBy : List Expr
  orderBy : List OrderItem

structure OrderItem where
  expr : Expr
  descending : Bool

structure WhenClause where
  condition : Expr
  result : Expr

/-- A query with the clauses around its body. `forMode` is the word after a trailing `FOR`. -/
structure Query where
  span : Span
  ctes : Option WithClause
  body : SelectBody
  orderBy : List OrderItem
  offset : Option Expr
  fetch : Option Expr
  forMode : String

structure WithClause where
  span : Span
  tables : List CommonTable

/-- A common table expression. -/
structure CommonTable where
  span : Span
  name : String
  columns : List String
  query : Query

/-- Queries joined by set operations, read from left to right. -/
inductive SelectBody where
  | single (span : Span) (core : SelectCore)
  | chain (span : Span) (core : SelectCore) (op : SetOp) (all : Bool) (rest : SelectBody)

structure SelectCore where
  span : Span
  distinct : Bool
  top : Option TopClause
  columns : List SelectItem
  into : Option ObjectName
  source : Option FromClause
  filter : Option Expr
  groupBy : List Expr
  having : Option Expr

structure TopClause where
  count : Expr
  percent : Bool
  withTies : Bool

inductive SelectItem where
  | star (span : Span)
  | tableStar (span : Span) (qualifier : String)
  /-- `@variable = value` yields no column. -/
  | assign (span : Span) (variableName : String) (value : Expr)
  | value (span : Span) (value : Expr) (aliasName : String)

structure FromClause where
  span : Span
  source : TableRef
  joins : List Join

structure Join where
  span : Span
  kind : JoinKind
  right : TableRef
  condition : Option Expr

inductive TableRef where
  /-- Stands where a table source could not be read. -/
  | missing
  | named (span : Span) (name : ObjectName) (aliasName : String) (hints : List String)
  | derived (span : Span) (query : Query) (aliasName : String) (columns : List String)
  | values (span : Span) (rows : List (List Expr)) (aliasName : String) (columns : List String)
  | function (span : Span) (call : FuncCall) (aliasName : String) (columns : List String)
  /-- `PIVOT` and `UNPIVOT`: the call is named after the operator, `source` is what it rotates. -/
  | pivot (span : Span) (call : FuncCall) (source : TableRef) (aliasName : String) (columns : List String)
  /-- `OPENQUERY`, `OPENROWSET` and `OPENDATASOURCE`, the last with a name after it. -/
  | remote (span : Span) (kind : String) (args : List Expr) (object : Option ObjectName) (aliasName : String)
  | joined (span : Span) (source : FromClause)

end

namespace Expr

/-- Where an expression stands; nowhere for a hole. -/
def span : Expr → Span
  | .missing => .unset
  | .column ref => ref.span
  | .call fn => fn.span
  | .literal span .. | .localVar span .. | .binary span .. | .unary span .. | .case span ..
  | .cast span .. | .convert span .. | .coalesce span .. | .nullIf span .. | .iif span ..
  | .inList span .. | .inQuery span .. | .between span .. | .isNull span .. | .like span ..
  | .collate span .. | .paren span .. | .star span .. | .subquery span .. | .exists span .. => span

def isMissing : Expr → Bool
  | .missing => true
  | _ => false

/-- The expression inside redundant parentheses. -/
def unparen : Expr → Expr
  | .paren _ inner => inner.unparen
  | e => e

end Expr

namespace SelectItem

def span : SelectItem → Span
  | .star span | .tableStar span _ | .assign span _ _ | .value span _ _ => span

end SelectItem

namespace SelectCore

/-- A query block that could not be read. -/
def missing : SelectCore :=
  { span := .unset, distinct := false, top := none, columns := [], into := none, source := none
    filter := none, groupBy := [], having := none }

end SelectCore

namespace SelectBody

def span : SelectBody → Span
  | .single span _ | .chain span .. => span

def withSpan (span : Span) : SelectBody → SelectBody
  | .single _ core => .single span core
  | .chain _ core op all rest => .chain span core op all rest

/-- The leftmost query block, which names the columns of the result. -/
def head : SelectBody → SelectCore
  | .single _ core | .chain _ core .. => core

/-- Continue the chain at its end. -/
def append (op : SetOp) (all : Bool) (more : SelectBody) : SelectBody → SelectBody
  | .single span core => .chain span core op all more
  | .chain span core op' all' rest => .chain span core op' all' (append op all more rest)

end SelectBody

namespace Query

/-- A query that could not be read. -/
def missing : Query :=
  { span := .unset, ctes := none, body := .single .unset .missing, orderBy := [], offset := none
    fetch := none, forMode := "" }

end Query

namespace TableRef

def span : TableRef → Span
  | .missing => .unset
  | .named span .. | .derived span .. | .values span .. | .function span .. | .pivot span ..
  | .remote span .. | .joined span _ => span

def isMissing : TableRef → Bool
  | .missing => true
  | _ => false

end TableRef

/-- The table sources of the clause in source order, holes left out. -/
def FromClause.tables (clause : FromClause) : List TableRef :=
  (clause.source :: clause.joins.map (·.right)).filter (!·.isMissing)

end ColumnFlow
