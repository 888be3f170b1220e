import ColumnFlow.Syntax.Statement

/-!
# Walking a script

`Script.outline` lists the nodes of a script as a tree, each node before what it holds. Names of modules,
parameters, column definitions and the counts of `TOP` in statements that write are not part of it. Holes
are left out.
-/

namespace ColumnFlow

open Text (Span)

inductive Node where
  | script (script : Script)
  | batch (batch : Batch)
  | stmt (stmt : Stmt)
  | output (clause : OutputClause)
  | assignment (clause : SetClause)
  | mergeWhen (clause : MergeWhen)
  | query (query : Query)
  | withClause (clause : WithClause)
  | commonTable (table : CommonTable)
  | body (body : SelectBody)
  | core (core : SelectCore)
  | item (item : SelectItem)
  | source (clause : FromClause)
  | join (join : Join)
  | table (table : TableRef)
  | name (name : ObjectName)
  | expr (expr : Expr)

/-- Where a node stands. -/
def Node.span : Node → Span
  | .script s => s.span
  | .batch b => b.span
  | .stmt s => s.span
  | .output o => o.span
  | .assignment s => s.span
  | .mergeWhen w => w.span
  | .query q => q.span
  | .withClause w => w.span
  | .commonTable t => t.span
  | .body b => b.span
  | .core c => c.span
  | .item i => i.span
  | .source f => f.span
  | .join j => j.span
  | .table t => t.span
  | .name n => n.span
  | .expr e => e.span

/-- Nodes with what they hold, in source order. -/
inductive Outline where
  | node (root : Node) (children : List Outline)

namespace Outline

mutual

/-- The nodes from the root on, parents first. What a node for which `skip` holds contains is left out. -/
def visit (skip : Node → Bool) : Outline → List Node
  | .node root children => root :: if skip root then [] else visitAll skip children

def visitAll (skip : Node → Bool) : List Outline → List Node
  | [] => []
  | outline :: rest => visit skip outline ++ visitAll skip rest

end

def leaf (root : Node) : Outline := .node root []

def names (name : Option ObjectName) : List Outline := name.toList.map (leaf ∘ .name)

/-! ### Queries -/

mutual

def ofExpr (e : Expr) : List Outline :=
  match e with
  | .missing => []
  | .column _ | .literal .. | .localVar .. | .star .. => [.node (.expr e) []]
  | .binary _ left _ right | .nullIf _ left right => [.node (.expr e) (ofExpr left ++ ofExpr right)]
  | .unary _ _ operand | .cast _ operand _ _ | .isNull _ operand _ | .collate _ operand _
  | .paren _ operand => [.node (.expr e) (ofExpr operand)]
  | .call fn => ofCall fn
  | .case _ operand whens otherwise =>
    [.node (.expr e) (ofExpr? operand ++ ofWhens whens ++ ofExpr? otherwise)]
  | .convert _ _ operand style _ => [.node (.expr e) (ofExpr operand ++ ofExpr? style)]
  | .coalesce _ args => [.node (.expr e) (ofExprs args)]
  | .iif _ cond yes no => [.node (.expr e) (ofExpr cond ++ ofExpr yes ++ ofExpr no)]
  | .inList _ operand _ values => [.node (.expr e) (ofExpr operand ++ ofExprs values)]
  | .inQuery _ operand _ query => [.node (.expr e) (ofExpr operand ++ ofQuery query)]
  | .between _ operand _ low high => [.node (.expr e) (ofExpr operand ++ ofExpr low ++ ofExpr high)]
  | .like _ operand _ pattern escape =>
    [.node (.expr e) (ofExpr operand ++ ofExpr pattern ++ ofExpr? escape)]
  | .subquery _ query | .exists _ query => [.node (.expr e) (ofQuery query)]

def ofExpr? : Option Expr → List Outline
  | none => []
  | some e => ofExpr e

def ofExprs : List Expr → List Outline
  | [] => []
  | e :: rest => ofExpr e ++ ofExprs rest

def ofRows : List (List Expr) → List Outline
  | [] => []
  | row :: rest => ofExprs row ++ ofRows rest

def ofCall (fn : FuncCall) : List Outline :=
  match fn with
  | ⟨_, _, _, _, args, _, withinGroup, window⟩ =>
    [.node (.expr (.call fn)) (ofExprs args ++ ofOrder withinGroup ++ ofWindow? window)]

def ofWindow? : Option WindowSpec → List Outline
  | none => []
  | some ⟨partitionBy, orderBy⟩ => ofExprs partitionBy ++ ofOrder orderBy

def ofOrder : List OrderItem → List Outline
  | [] => []
  | ⟨e, _⟩ :: rest => ofExpr e ++ ofOrder rest

def ofWhens : List WhenClause → List Outline
  | [] => []
  | ⟨condition, result⟩ :: rest => ofExpr condition ++ ofExpr result ++ ofWhens rest

def ofQuery (query : Query) : List Outline :=
  match query with
  | ⟨_, ctes, body, orderBy, offset, fetch, _⟩ =>
    [.node (.query query) (ofWith? ctes ++ ofBody body ++ ofOrder orderBy ++ ofExpr? offset ++ ofExpr? fetch)]

def ofWith? : Option WithClause → List Outline
  | none => []
  | some clause => ofWith clause

def ofWith (clause : WithClause) : List Outline :=
  match clause with
  | ⟨_, tables⟩ => [.node (.withClause clause) (ofCommonTables tables)]

def ofCommonTables : List CommonTable → List Outline
  | [] => []
  | table :: rest => ofCommonTable table ++ ofCommonTables rest

def ofCommonTable (table : CommonTable) : List Outline :=
  match table with
  | ⟨_, _, _, query⟩ => [.node (.commonTable table) (ofQuery query)]

def ofBody (body : SelectBody) : List Outline :=
  match body with
  | .single _ core => [.node (.body body) (ofCore core)]
  | .chain _ core _ _ rest => [.node (.body body) (ofCore core ++ ofBody rest)]

def ofCore (core : SelectCore) : List Outline :=
  match core with
  | ⟨_, _, top, columns, into, source, filter, groupBy, having⟩ =>
    [.node (.core core) (ofTop? top ++ ofItems columns ++ names into ++ ofSource? source ++ ofExpr? filter
      ++ ofExprs groupBy ++ ofExpr? having)]

def ofTop? : Option TopClause → List Outline
  | none => []
  | some ⟨count, _, _⟩ => ofExpr count

def ofItems : List SelectItem → List Outline
  | [] => []
  | item :: rest => ofItem item ++ ofItems rest

def ofItem (item : SelectItem) : List Outline :=
  match item with
  | .star _ | .tableStar _ _ => [.node (.item item) []]
  | .assign _ _ value | .value _ value _ => [.node (.item item) (ofExpr value)]

def ofSource? : Option FromClause → List Outline
  | none => []
  | some clause => ofSource clause

def ofSource (clause : FromClause) : List Outline :=
  match clause with
  | ⟨_, source, joins⟩ => [.node (.source clause) (ofTable source ++ ofJoins joins)]

def ofJoins : List Join → List Outline
  | [] => []
  | join :: rest => ofJoin join ++ ofJoins rest

def ofJoin (join : Join) : List Outline :=
  match join with
  | ⟨_, _, right, condition⟩ => [.node (.join join) (ofTable right ++ ofExpr? condition)]

def ofTable (table : TableRef) : List Outline :=
  match table with
  | .missing => []
  | .named _ name _ _ => [.node (.table table) [leaf (.name name)]]
  | .derived _ query _ _ => [.node (.table table) (ofQuery query)]
  | .values _ rows _ _ => [.node (.table table) (ofRows rows)]
  | .function _ fn _ _ => [.node (.table table) (ofCall fn)]
  | .pivot _ fn source _ _ => [.node (.table table) (ofTable source ++ ofCall fn)]
  | .remote _ _ args object _ => [.node (.table table) (ofExprs args ++ names object)]
  | .joined _ source => [.node (.table table) (ofSource source)]

end

/-! ### Statements -/

def ofOutput? : Option OutputClause → List Outline
  | none => []
  | some clause => [.node (.output clause) (ofItems clause.columns ++ names clause.into)]

def ofSet (clause : SetClause) : List Outline := [.node (.assignment clause) (ofExpr clause.value)]

def ofMergeDo : MergeDo → List Outline
  | .update sets => sets.flatMap ofSet
  | .delete | .insertDefaults _ => []
  | .insert _ values => ofExprs values

def ofMergeWhen (clause : MergeWhen) : List Outline :=
  [.node (.mergeWhen clause) (ofExpr? clause.condition ++ ofMergeDo clause.action)]

def ofExec (exec : ExecStmt) : List Outline :=
  let args := exec.params.flatMap fun param => ofExpr? param.value
  let children := match exec.target with
    | .procedure name => leaf (.name name) :: args
    | .localVar _ => args
    | .text sql _ => args ++ ofExpr sql
  [.node (.stmt (.exec exec)) children]

def ofInsertSource : InsertSource → List Outline
  | .missing | .defaults => []
  | .values rows => ofRows rows
  | .query query => ofQuery query
  | .exec exec => ofExec exec

mutual

def ofStmt (stmt : Stmt) : List Outline :=
  match stmt with
  | .missing => []
  | .select query => ofQuery query
  | .insert s =>
    [.node (.stmt stmt) (ofWith? s.ctes ++ [leaf (.name s.target)] ++ ofOutput? s.output
      ++ ofInsertSource s.source)]
  | .update s =>
    [.node (.stmt stmt) (ofWith? s.ctes ++ [leaf (.name s.target)] ++ s.sets.flatMap ofSet
      ++ ofOutput? s.output ++ ofSource? s.source ++ ofExpr? s.filter)]
  | .delete s =>
    [.node (.stmt stmt) (ofWith? s.ctes ++ [leaf (.name s.target)] ++ ofOutput? s.output
      ++ ofSource? s.source ++ ofExpr? s.filter)]
  | .merge s =>
    [.node (.stmt stmt) (ofWith? s.ctes ++ [leaf (.name s.target)] ++ ofTable s.source ++ ofExpr s.on
      ++ s.whens.flatMap ofMergeWhen ++ ofOutput? s.output)]
  | .exec s => ofExec s
  | .block _ body => [.node (.stmt stmt) (ofStmts body)]
  | .ifElse _ cond yes no => [.node (.stmt stmt) (ofExpr cond ++ ofStmt yes ++ ofStmt? no)]
  | .loop _ cond body => [.node (.stmt stmt) (ofExpr cond ++ ofStmt body)]
  | .tryCatch _ attempt handler => [.node (.stmt stmt) (ofStmts attempt ++ ofStmts handler)]
  | .createProc _ _ _ _ body | .createFunction _ _ body | .createTrigger _ _ _ _ _ body =>
    [.node (.stmt stmt) (ofStmts body)]
  | .createView _ _ _ _ query | .declareCursor _ _ query => [.node (.stmt stmt) (ofQuery query)]
  | .declare _ vars => [.node (.stmt stmt) (vars.flatMap fun decl => ofExpr? decl.value)]
  | .return _ value query =>
    [.node (.stmt stmt) (ofExpr? value ++ query.toList.flatMap ofQuery)]
  | .print _ value => [.node (.stmt stmt) (ofExpr value)]
  | .raise _ _ args => [.node (.stmt stmt) (ofExprs args)]
  | .setVariable _ _ _ value => [.node (.stmt stmt) (ofExpr? value)]
  | .truncate .. | .createTable .. | .drop .. | .transaction .. | .setOption .. | .cursor ..
  | .control .. | .use .. | .other .. => [.node (.stmt stmt) []]

def ofStmt? : Option Stmt → List Outline
  | none => []
  | some stmt => ofStmt stmt

def ofStmts : List Stmt → List Outline
  | [] => []
  | stmt :: rest => ofStmt stmt ++ ofStmts rest

end

end Outline

def Batch.outline (batch : Batch) : Outline := .node (.batch batch) (Outline.ofStmts batch.stmts)

def Script.outline (script : Script) : Outline :=
  .node (.script script) (script.batches.map Batch.outline)

/-- The nodes of a script, parents first, without what nodes for which `skip` holds contain. -/
def Script.nodes (script : Script) (skip : Node → Bool) : List Node := script.outline.visit skip

end ColumnFlow
