import ColumnFlow.Lineage.Column
import ColumnFlow.Lineage.Trace

/-!
# Lineage of expressions and queries

What an expression reads and which columns a query projects. Derived tables and common tables met on the way
emit edges of their own, into their alias or name.
-/

namespace ColumnFlow

/-- The tag of a function call. -/
def FuncCall.tag (fn : FuncCall) : Transform :=
  .named (if fn.isSequenceRead then sequenceRead else Text.upper fn.name ++ "(...)")

/-- The tag that a set operation gives to bare columns. -/
def SetOp.tag (op : SetOp) (all : Bool) : String := if all then op.text ++ " ALL" else op.text

/-- Bind a column reference to a table in scope. A qualifier names the innermost table known by it. Without
one there has to be exactly one candidate; several make the reference ambiguous. -/
def resolveColumn (ref : ColumnRef) (s : Scope) : SourceColumn :=
  if ref.table != "" then
    match s.lookup (Text.fold ref.table) with
    | some b => b.read ref.column
    | none => { column := ref.column, qualifier := ref.table }
  else
    match s.candidates ref.column with
    | [] => { column := ref.column }
    | [b] => b.read ref.column
    | _ => { column := ref.column, ambiguous := true }

/-- Everything that the columns of a subquery read. -/
def projectedSources (cs : List Column) : List SourceColumn := cs.flatMap (·.sources)

/-- A source without a table of its own, known by its alias. -/
def derivedSource (name aliasName : String) : TableSource := { name, aliasName, kind := .derived }

/-- The columns of an explicit list, which are known if there is one. -/
def listedColumns (columns : List String) : Option (List String) :=
  if columns.isEmpty then none else some columns

def functionBinding (fn : FuncCall) (aliasName : String) (columns : List String) : Binding :=
  let b := Binding.ofSource (derivedSource fn.name aliasName) (listedColumns columns)
  { b with source := { b.source with schema := fn.schema } }

/-- A remote source is called by its kind, or by the object it names. -/
def remoteBinding (kind : String) (object : Option ObjectName) (aliasName : String) : Binding :=
  match object with
  | some o =>
    .ofSource { name := o.name, schema := o.schema, database := o.database, aliasName, kind := .derived } none
  | none => .ofSource (derivedSource ("(" ++ Text.lower kind ++ ")") aliasName) none

variable (env : Env)

mutual

/-- What an expression reads. -/
def exprSources (e : Expr) (s : Scope) : Traced Sources :=
  match e with
  | .missing => return { transform := .expression }
  | .column ref => return { columns := [resolveColumn ref s], transform := .bare }
  | .literal .. => return { transform := .literal }
  | .localVar .. => return { transform := .localVar }
  | .star .. => return { transform := .expression }
  | .call fn => do
    let columns ← callColumns fn s
    return { columns, transform := fn.tag }
  | .case _ operand whens otherwise => do
    let first ← exprColumns? operand s
    let cases ← whenColumns whens s
    let last ← exprColumns? otherwise s
    return { columns := first ++ cases ++ last, transform := .named "CASE...END" }
  | .cast _ operand _ _ => do
    let inner ← exprSources operand s
    return { inner with transform := .named "CAST(...)" }
  | .convert _ _ operand _ _ => do
    let inner ← exprSources operand s
    return { inner with transform := .named "CAST(...)" }
  | .coalesce _ args => do
    let columns ← exprColumns args s
    return { columns, transform := .named "COALESCE(...)" }
  | .nullIf _ left right => do
    let l ← exprSources left s
    let r ← exprSources right s
    return { columns := l.columns ++ r.columns, transform := .named "NULLIF(...)" }
  | .iif _ cond yes no => do
    let c ← exprSources cond s
    let y ← exprSources yes s
    let n ← exprSources no s
    return { columns := c.columns ++ y.columns ++ n.columns, transform := .named "IIF(...)" }
  | .binary _ left op right => do
    let l ← exprSources left s
    let r ← exprSources right s
    return { columns := l.columns ++ r.columns, transform := l.transform.compose op.text r.transform }
  | .unary _ _ operand => do
    let inner ← exprSources operand s
    return { inner with transform := inner.transform.inner }
  | .paren _ inner => exprSources inner s
  | .collate _ operand _ => do
    let inner ← exprSources operand s
    return { inner with transform := .named "COLLATE" }
  | .subquery _ query => do
    let columns ← queryColumns query s
    return { columns := projectedSources columns, transform := .named "subquery" }
  | .exists _ query => do
    let columns ← queryColumns query s
    return { columns := projectedSources columns, transform := .named "EXISTS(...)" }
  | .inList _ operand _ values => do
    let inner ← exprSources operand s
    let others ← exprColumns values s
    return { columns := inner.columns ++ others, transform := .expression }
  | .inQuery _ operand _ query => do
    let inner ← exprSources operand s
    let columns ← queryColumns query s
    return { columns := inner.columns ++ projectedSources columns, transform := .expression }
  | .between _ operand _ low high => do
    let inner ← exprSources operand s
    let l ← exprSources low s
    let h ← exprSources high s
    return { columns := inner.columns ++ l.columns ++ h.columns, transform := .expression }
  | .like _ operand _ pattern escape => do
    let inner ← exprSources operand s
    let p ← exprSources pattern s
    let last ← exprColumns? escape s
    return { columns := inner.columns ++ p.columns ++ last, transform := .expression }
  | .isNull _ operand _ => do
    let inner ← exprSources operand s
    return { inner with transform := .expression }

def exprColumns? (e : Option Expr) (s : Scope) : Traced (List SourceColumn) :=
  match e with
  | none => return []
  | some e => return (← exprSources e s).columns

def exprColumns (es : List Expr) (s : Scope) : Traced (List SourceColumn) :=
  match es with
  | [] => return []
  | e :: rest => do
    let first ← exprSources e s
    return first.columns ++ (← exprColumns rest s)

/-- Arguments, the order within groups, and the window of a call. -/
def callColumns (fn : FuncCall) (s : Scope) : Traced (List SourceColumn) :=
  match fn with
  | ⟨_, _, _, _, args, _, withinGroup, window⟩ => do
    let first ← exprColumns args s
    let order ← orderColumns withinGroup s
    return first ++ order ++ (← windowColumns window s)

def windowColumns (window : Option WindowSpec) (s : Scope) : Traced (List SourceColumn) :=
  match window with
  | none => return []
  | some ⟨partitionBy, orderBy⟩ => do
    let first ← exprColumns partitionBy s
    return first ++ (← orderColumns orderBy s)

def orderColumns (items : List OrderItem) (s : Scope) : Traced (List SourceColumn) :=
  match items with
  | [] => return []
  | ⟨e, _⟩ :: rest => do
    let first ← exprSources e s
    return first.columns ++ (← orderColumns rest s)

def whenColumns (whens : List WhenClause) (s : Scope) : Traced (List SourceColumn) :=
  match whens with
  | [] => return []
  | ⟨condition, result⟩ :: rest => do
    let c ← exprSources condition s
    let r ← exprSources result s
    return c.columns ++ r.columns ++ (← whenColumns rest s)

/-- The columns a query projects. Its common tables are seen by the rest of the batch too. -/
def queryColumns (q : Query) (outer : Scope) : Traced (List Column) :=
  match q with
  | ⟨_, ctes, body, _, _, _, _⟩ => do
    let s ← defineCommon? ctes outer
    bodyColumns body s

def defineCommon? (clause : Option WithClause) (s : Scope) : Traced Scope :=
  match clause with
  | none => return s
  | some clause => defineCommon clause s

/-- Define common tables in order. -/
def defineCommon (clause : WithClause) (s : Scope) : Traced Scope :=
  match clause with
  | ⟨_, tables⟩ => defineTables tables s

def defineTables (tables : List CommonTable) (s : Scope) : Traced Scope :=
  match tables with
  | [] => return s
  | table :: rest => do
    let s ← defineTable table s
    defineTables rest s

/-- Define a common table. Its query sees the table itself, so that it may be recursive. -/
def defineTable (table : CommonTable) (s : Scope) : Traced Scope :=
  match table with
  | ⟨_, name, columns, query⟩ => do
    let start : CommonDef := { key := Text.fold name, name, columns := listedColumns columns }
    let projected ← queryColumns query (s.define start)
    let final := if columns.isEmpty then { start with columns := Column.names? projected } else start
    Traced.record (.common final)
    env.emitAll (Column.edges .select { table := name } (Column.rename projected columns))
    return s.define final

/-- Set operations merge their branches by position. `EXCEPT` contributes no values. -/
def bodyColumns (body : SelectBody) (s : Scope) : Traced (List Column) :=
  match body with
  | .single _ core => coreColumns core s
  | .chain _ core op all rest => do
    let left ← coreColumns core s
    let right ← bodyColumns rest s
    return if op == .except then left else Column.mergeAll (op.tag all) left right

def coreColumns (core : SelectCore) (outer : Scope) : Traced (List Column) :=
  match core with
  | ⟨_, _, _, columns, _, source, _, _, _⟩ => do
    let s ← bindSource? source outer.child
    let projected ← itemColumns columns 1 s
    return Column.uniqueNames projected

/-- The columns of select items, the first of which stands at `position`. Assignments to variables give none. -/
def itemColumns (items : List SelectItem) (position : Nat) (s : Scope) : Traced (List Column) :=
  match items with
  | [] => return []
  | item :: rest => do
    let first ← itemColumn item position s
    return first ++ (← itemColumns rest (position + 1) s)

def itemColumn (item : SelectItem) (position : Nat) (s : Scope) : Traced (List Column) :=
  match item with
  | .assign .. => return []
  | .star span => return Column.ofStar s span.start.line
  | .tableStar span qualifier => return Column.ofTableStar s qualifier span.start.line
  | .value span value aliasName => do
    let sources ← exprSources value s
    let name := if aliasName == "" then value.columnName position else aliasName
    return [{ name, isAlias := aliasName != "", value := .reads sources, line := span.start.line }]

def bindSource? (clause : Option FromClause) (s : Scope) : Traced Scope :=
  match clause with
  | none => return s
  | some clause => bindSource clause s

/-- Bind the table sources of a clause from left to right, so that later ones see those before them. -/
def bindSource (clause : FromClause) (s : Scope) : Traced Scope :=
  match clause with
  | ⟨_, source, joins⟩ => do
    let s ← bindTable source s
    bindJoins joins s

def bindJoins (joins : List Join) (s : Scope) : Traced Scope :=
  match joins with
  | [] => return s
  | ⟨_, _, right, _⟩ :: rest => do
    let s ← bindTable right s
    bindJoins rest s

/-- Bind one table source at the innermost level. -/
def bindTable (table : TableRef) (s : Scope) : Traced Scope :=
  match table with
  | .missing => return s
  | .named _ name aliasName _ => return s.bind (env.tableBinding name aliasName s)
  | .derived _ query aliasName columns => do
    let projected ← queryColumns query s
    env.emitAll (Column.edges .select { table := aliasName } (Column.rename projected columns))
    let known := if columns.isEmpty then Column.names? projected else some columns
    return s.bind (.ofSource (derivedSource "(subquery)" aliasName) known)
  | .values _ _ aliasName columns =>
    return s.bind (.ofSource (derivedSource "(values)" aliasName) (listedColumns columns))
  | .function _ fn aliasName columns => return s.bind (functionBinding fn aliasName columns)
  | .pivot _ _ source aliasName columns => do
    discard <| bindTable source s.child
    return s.bind (.ofSource (derivedSource "(pivot)" aliasName) (listedColumns columns))
  | .remote _ kind _ object aliasName => return s.bind (remoteBinding kind object aliasName)
  | .joined _ source => bindSource source s

end

end ColumnFlow
