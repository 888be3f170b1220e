import ColumnFlow.Proofs.TableNames

/-!
# Remote sources and calls

`Script.constructs` lists every remote table source and every call of a script, through every field of every
node. It is defined on the syntax alone and shares nothing with the walk of a script. Expressions, queries and
table sources are walked in full: the constructs among the nodes of a walk are exactly those that stand there.
-/

namespace ColumnFlow

open Text (Span)

/-! ### Every construct of a script -/

namespace Remotes

mutual

/-- The remote table sources in an expression, each by its span. -/
def ofExpr : Expr → List Span
  | .missing | .column _ | .literal _ _ _ | .localVar _ _ | .star _ _ => []
  | .binary _ left _ right => ofExpr left ++ ofExpr right
  | .unary _ _ operand => ofExpr operand
  | .call fn => ofCall fn
  | .case _ operand whens otherwise => ofExpr? operand ++ ofWhens whens ++ ofExpr? otherwise
  | .cast _ operand _ _ => ofExpr operand
  | .convert _ _ operand style _ => ofExpr operand ++ ofExpr? style
  | .coalesce _ args => ofExprs args
  | .nullIf _ left right => ofExpr left ++ ofExpr right
  | .iif _ cond yes no => ofExpr cond ++ ofExpr yes ++ ofExpr no
  | .inList _ operand _ values => ofExpr operand ++ ofExprs values
  | .inQuery _ operand _ query => ofExpr operand ++ ofQuery query
  | .between _ operand _ low high => ofExpr operand ++ ofExpr low ++ ofExpr high
  | .isNull _ operand _ => ofExpr operand
  | .like _ operand _ pattern escape => ofExpr operand ++ ofExpr pattern ++ ofExpr? escape
  | .collate _ operand _ => ofExpr operand
  | .paren _ inner => ofExpr inner
  | .subquery _ query | .exists _ query => ofQuery query

def ofExpr? : Option Expr → List Span
  | none => []
  | some e => ofExpr e

def ofExprs : List Expr → List Span
  | [] => []
  | e :: rest => ofExpr e ++ ofExprs rest

def ofRows : List (List Expr) → List Span
  | [] => []
  | row :: rest => ofExprs row ++ ofRows rest

def ofCall : FuncCall → List Span
  | ⟨_, _, _, _, args, _, withinGroup, window⟩ => ofExprs args ++ ofOrder withinGroup ++ ofWindow? window

def ofWindow? : Option WindowSpec → List Span
  | none => []
  | some ⟨partitionBy, orderBy⟩ => ofExprs partitionBy ++ ofOrder orderBy

def ofOrder : List OrderItem → List Span
  | [] => []
  | ⟨e, _⟩ :: rest => ofExpr e ++ ofOrder rest

def ofWhens : List WhenClause → List Span
  | [] => []
  | ⟨condition, result⟩ :: rest => ofExpr condition ++ ofExpr result ++ ofWhens rest

def ofQuery : Query → List Span
  | ⟨_, ctes, body, orderBy, offset, fetch, _⟩ =>
    ofWith? ctes ++ ofBody body ++ ofOrder orderBy ++ ofExpr? offset ++ ofExpr? fetch

def ofWith? : Option WithClause → List Span
  | none => []
  | some ⟨_, tables⟩ => ofCommonTables tables

def ofCommonTables : List CommonTable → List Span
  | [] => []
  | ⟨_, _, _, query⟩ :: rest => ofQuery query ++ ofCommonTables rest

def ofBody : SelectBody → List Span
  | .single _ core => ofCore core
  | .chain _ core _ _ rest => ofCore core ++ ofBody rest

def ofCore : SelectCore → List Span
  | ⟨_, _, top, columns, _, source, filter, groupBy, having⟩ =>
    ofTop? top ++ ofItems columns ++ ofSource? source ++ ofExpr? filter ++ ofExprs groupBy ++ ofExpr? having

def ofTop? : Option TopClause → List Span
  | none => []
  | some ⟨count, _, _⟩ => ofExpr count

def ofItems : List SelectItem → List Span
  | [] => []
  | item :: rest => ofItem item ++ ofItems rest

def ofItem : SelectItem → List Span
  | .star _ | .tableStar _ _ => []
  | .assign _ _ value | .value _ value _ => ofExpr value

def ofSource? : Option FromClause → List Span
  | none => []
  | some clause => ofSource clause

def ofSource : FromClause → List Span
  | ⟨_, source, joins⟩ => ofTable source ++ ofJoins joins

def ofJoins : List Join → List Span
  | [] => []
  | ⟨_, _, right, condition⟩ :: rest => ofTable right ++ ofExpr? condition ++ ofJoins rest

def ofTable : TableRef → List Span
  | .missing | .named _ _ _ _ => []
  | .derived _ query _ _ => ofQuery query
  | .values _ rows _ _ => ofRows rows
  | .function _ fn _ _ => ofCall fn
  | .pivot _ fn source _ _ => ofTable source ++ ofCall fn
  | .remote span _ args _ _ => span :: ofExprs args
  | .joined _ source => ofSource source

end

/-! Clauses of statements. -/

def ofOutput? : Option OutputClause → List Span
  | none => []
  | some clause => ofItems clause.columns

def ofSets (sets : List SetClause) : List Span := sets.flatMap fun set => ofExpr set.value

def ofMergeDo : MergeDo → List Span
  | .update sets => ofSets sets
  | .delete | .insertDefaults _ => []
  | .insert _ values => ofExprs values

def ofMergeWhens (whens : List MergeWhen) : List Span :=
  whens.flatMap fun clause => ofExpr? clause.condition ++ ofMergeDo clause.action

def ofParams (params : List ParamDef) : List Span := params.flatMap fun param => ofExpr? param.default

def ofColumnDefs (columns : List ColumnDef) : List Span := columns.flatMap fun column => ofExpr? column.computed

end Remotes

/-- What may run code that is not in the text: a remote table source, or a call. -/
inductive Construct where
  | remote (span : Span)
  | call (exec : ExecStmt)

namespace Construct

def remotes (spans : List Span) : List Construct := spans.map .remote

@[simp] theorem remotes_nil : remotes [] = [] := rfl

@[simp] theorem remotes_append (a b : List Span) : remotes (a ++ b) = remotes a ++ remotes b := by
  simp [remotes]

/-- A call and what its arguments or its text hold. -/
def ofExec (exec : ExecStmt) : List Construct :=
  .call exec :: (remotes (exec.params.flatMap fun param => Remotes.ofExpr? param.value) ++
    match exec.target with
    | .procedure _ | .localVar _ => []
    | .text sql _ => remotes (Remotes.ofExpr sql))

def ofInsertSource : InsertSource → List Construct
  | .missing | .defaults => []
  | .values rows => remotes (Remotes.ofRows rows)
  | .query query => remotes (Remotes.ofQuery query)
  | .exec exec => ofExec exec

mutual

/-- Every construct of a statement, those of the statements inside it last. -/
def ofStmt : Stmt → List Construct
  | .missing | .truncate _ _ | .drop _ _ _ | .transaction _ _ _ | .setOption _ _ _ | .cursor _ _ _ _
  | .control _ _ _ | .use _ _ | .other _ _ => []
  | .select query | .createView _ _ _ _ query | .declareCursor _ _ query => remotes (Remotes.ofQuery query)
  | .insert s =>
    remotes (Remotes.ofWith? s.ctes ++ Remotes.ofOutput? s.output) ++ ofInsertSource s.source
      ++ remotes (Remotes.ofTop? s.top)
  | .update s =>
    remotes (Remotes.ofWith? s.ctes ++ Remotes.ofSets s.sets ++ Remotes.ofOutput? s.output
      ++ Remotes.ofSource? s.source ++ Remotes.ofExpr? s.filter ++ Remotes.ofTop? s.top)
  | .delete s =>
    remotes (Remotes.ofWith? s.ctes ++ Remotes.ofOutput? s.output ++ Remotes.ofSource? s.source
      ++ Remotes.ofExpr? s.filter ++ Remotes.ofTop? s.top)
  | .merge s =>
    remotes (Remotes.ofWith? s.ctes ++ Remotes.ofTable s.source ++ Remotes.ofExpr s.on
      ++ Remotes.ofMergeWhens s.whens ++ Remotes.ofOutput? s.output)
  | .exec exec => ofExec exec
  | .block _ body => ofStmts body
  | .ifElse _ cond yes no => remotes (Remotes.ofExpr cond) ++ ofStmt yes ++ ofStmt? no
  | .loop _ cond body => remotes (Remotes.ofExpr cond) ++ ofStmt body
  | .tryCatch _ attempt handler => ofStmts attempt ++ ofStmts handler
  | .createProc _ _ _ params body => remotes (Remotes.ofParams params) ++ ofStmts body
  | .createFunction _ header body =>
    remotes (Remotes.ofParams header.params ++ Remotes.ofColumnDefs header.tableColumns) ++ ofStmts body
  | .createTrigger _ _ _ _ _ body => ofStmts body
  | .createTable _ _ columns => remotes (Remotes.ofColumnDefs columns)
  | .declare _ vars =>
    remotes (vars.flatMap (fun decl => Remotes.ofExpr? decl.value)
      ++ vars.flatMap fun decl => Remotes.ofColumnDefs decl.tableColumns)
  | .return _ value query => remotes (Remotes.ofExpr? value ++ query.toList.flatMap Remotes.ofQuery)
  | .print _ value => remotes (Remotes.ofExpr value)
  | .raise _ _ args => remotes (Remotes.ofExprs args)
  | .setVariable _ _ _ value => remotes (Remotes.ofExpr? value)

def ofStmt? : Option Stmt → List Construct
  | none => []
  | some stmt => ofStmt stmt

def ofStmts : List Stmt → List Construct
  | [] => []
  | stmt :: rest => ofStmt stmt ++ ofStmts rest

end

end Construct

/-- Every construct of a script. -/
def Script.constructs (script : Script) : List Construct :=
  script.batches.flatMap fun batch => Construct.ofStmts batch.stmts

/-! ### What the walk sees -/

/-- The construct that a node is. -/
def Node.construct? : Node → Option Construct
  | .table (.remote span ..) => some (.remote span)
  | .stmt (.exec exec) => some (.call exec)
  | _ => none

namespace Outline

/-- The constructs among the nodes of some outlines. -/
def constructs (outlines : List Outline) : List Construct := (nodes outlines).filterMap Node.construct?

@[simp] theorem constructs_nil : constructs [] = [] := rfl

@[simp] theorem constructs_append (a b : List Outline) : constructs (a ++ b) = constructs a ++ constructs b := by
  simp [constructs]

@[simp] theorem constructs_cons (root : Node) (children rest : List Outline) :
    constructs (.node root children :: rest) = root.construct?.toList ++ (constructs children ++ constructs rest) := by
  rw [constructs, nodes_cons, nodes_node]
  cases h : root.construct? <;> simp [constructs, h]

attribute [simp] Node.construct?

@[simp] theorem constructs_names (name : Option ObjectName) : constructs (names name) = [] := by
  cases name <;> simp [names, leaf]

@[simp] theorem constructs_name (name : ObjectName) : constructs [leaf (.name name)] = [] := by
  simp [leaf]

open Construct (remotes)

mutual

/-- The walk of an expression meets every remote source in it, and no other construct. -/
theorem constructs_ofExpr (e : Expr) : constructs (ofExpr e) = remotes (Remotes.ofExpr e) := by
  match e with
  | .missing | .column _ | .literal .. | .localVar .. | .star .. => simp [ofExpr, Remotes.ofExpr]
  | .unary .. | .cast .. | .isNull .. | .collate .. | .paren .. | .binary .. | .nullIf .. | .iif .. | .between .. =>
    simp [ofExpr, Remotes.ofExpr, constructs_ofExpr]
  | .call _ => simp [ofExpr, Remotes.ofExpr, constructs_ofCall]
  | .case .. => simp [ofExpr, Remotes.ofExpr, constructs_ofExpr?, constructs_ofWhens]
  | .convert .. | .like .. => simp [ofExpr, Remotes.ofExpr, constructs_ofExpr, constructs_ofExpr?]
  | .coalesce .. => simp [ofExpr, Remotes.ofExpr, constructs_ofExprs]
  | .inList .. => simp [ofExpr, Remotes.ofExpr, constructs_ofExpr, constructs_ofExprs]
  | .inQuery .. => simp [ofExpr, Remotes.ofExpr, constructs_ofExpr, constructs_ofQuery]
  | .subquery .. | .exists .. => simp [ofExpr, Remotes.ofExpr, constructs_ofQuery]

theorem constructs_ofExpr? (e : Option Expr) : constructs (ofExpr? e) = remotes (Remotes.ofExpr? e) := by
  match e with
  | none => rfl
  | some e => exact constructs_ofExpr e

theorem constructs_ofExprs (es : List Expr) : constructs (ofExprs es) = remotes (Remotes.ofExprs es) := by
  match es with
  | [] => rfl
  | e :: rest => simp [ofExprs, Remotes.ofExprs, constructs_ofExpr, constructs_ofExprs]

theorem constructs_ofRows (rows : List (List Expr)) : constructs (ofRows rows) = remotes (Remotes.ofRows rows) := by
  match rows with
  | [] => rfl
  | row :: rest => simp [ofRows, Remotes.ofRows, constructs_ofExprs, constructs_ofRows]

theorem constructs_ofCall (fn : FuncCall) : constructs (ofCall fn) = remotes (Remotes.ofCall fn) := by
  match fn with
  | ⟨_, _, _, _, args, _, withinGroup, window⟩ =>
    simp [ofCall, Remotes.ofCall, constructs_ofExprs, constructs_ofOrder, constructs_ofWindow?]

theorem constructs_ofWindow? (window : Option WindowSpec) :
    constructs (ofWindow? window) = remotes (Remotes.ofWindow? window) := by
  match window with
  | none => rfl
  | some ⟨partitionBy, orderBy⟩ => simp [ofWindow?, Remotes.ofWindow?, constructs_ofExprs, constructs_ofOrder]

theorem constructs_ofOrder (items : List OrderItem) : constructs (ofOrder items) = remotes (Remotes.ofOrder items) := by
  match items with
  | [] => rfl
  | ⟨e, _⟩ :: rest => simp [ofOrder, Remotes.ofOrder, constructs_ofExpr, constructs_ofOrder]

theorem constructs_ofWhens (whens : List WhenClause) :
    constructs (ofWhens whens) = remotes (Remotes.ofWhens whens) := by
  match whens with
  | [] => rfl
  | ⟨condition, result⟩ :: rest => simp [ofWhens, Remotes.ofWhens, constructs_ofExpr, constructs_ofWhens]

theorem constructs_ofQuery (query : Query) : constructs (ofQuery query) = remotes (Remotes.ofQuery query) := by
  match query with
  | ⟨_, ctes, body, orderBy, offset, fetch, _⟩ =>
    simp [ofQuery, Remotes.ofQuery, constructs_ofWith?, constructs_ofBody, constructs_ofOrder, constructs_ofExpr?]

theorem constructs_ofWith? (clause : Option WithClause) :
    constructs (ofWith? clause) = remotes (Remotes.ofWith? clause) := by
  match clause with
  | none => rfl
  | some ⟨_, tables⟩ => simp [ofWith?, ofWith, Remotes.ofWith?, constructs_ofCommonTables]

theorem constructs_ofCommonTables (tables : List CommonTable) :
    constructs (ofCommonTables tables) = remotes (Remotes.ofCommonTables tables) := by
  match tables with
  | [] => rfl
  | ⟨_, _, _, query⟩ :: rest =>
    simp [ofCommonTables, ofCommonTable, Remotes.ofCommonTables, constructs_ofQuery, constructs_ofCommonTables]

theorem constructs_ofBody (body : SelectBody) : constructs (ofBody body) = remotes (Remotes.ofBody body) := by
  match body with
  | .single _ core => simp [ofBody, Remotes.ofBody, constructs_ofCore]
  | .chain _ core _ _ rest => simp [ofBody, Remotes.ofBody, constructs_ofCore, constructs_ofBody]

theorem constructs_ofCore (core : SelectCore) : constructs (ofCore core) = remotes (Remotes.ofCore core) := by
  match core with
  | ⟨_, _, top, columns, into, source, filter, groupBy, having⟩ =>
    simp [ofCore, Remotes.ofCore, constructs_ofTop?, constructs_ofItems, constructs_ofSource?, constructs_ofExpr?,
      constructs_ofExprs]

theorem constructs_ofTop? (top : Option TopClause) : constructs (ofTop? top) = remotes (Remotes.ofTop? top) := by
  match top with
  | none => rfl
  | some ⟨count, _, _⟩ => simp [ofTop?, Remotes.ofTop?, constructs_ofExpr]

theorem constructs_ofItems (items : List SelectItem) :
    constructs (ofItems items) = remotes (Remotes.ofItems items) := by
  match items with
  | [] => rfl
  | item :: rest => simp [ofItems, Remotes.ofItems, constructs_ofItem, constructs_ofItems]

theorem constructs_ofItem (item : SelectItem) : constructs (ofItem item) = remotes (Remotes.ofItem item) := by
  match item with
  | .star _ | .tableStar _ _ => simp [ofItem, Remotes.ofItem]
  | .assign _ _ value | .value _ value _ => simp [ofItem, Remotes.ofItem, constructs_ofExpr]

theorem constructs_ofSource? (clause : Option FromClause) :
    constructs (ofSource? clause) = remotes (Remotes.ofSource? clause) := by
  match clause with
  | none => rfl
  | some clause => exact constructs_ofSource clause

theorem constructs_ofSource (clause : FromClause) :
    constructs (ofSource clause) = remotes (Remotes.ofSource clause) := by
  match clause with
  | ⟨_, source, joins⟩ => simp [ofSource, Remotes.ofSource, constructs_ofTable, constructs_ofJoins]

theorem constructs_ofJoins (joins : List Join) : constructs (ofJoins joins) = remotes (Remotes.ofJoins joins) := by
  match joins with
  | [] => rfl
  | ⟨_, _, right, condition⟩ :: rest =>
    simp [ofJoins, ofJoin, Remotes.ofJoins, constructs_ofTable, constructs_ofExpr?, constructs_ofJoins]

theorem constructs_ofTable (table : TableRef) : constructs (ofTable table) = remotes (Remotes.ofTable table) := by
  match table with
  | .missing | .named .. => simp [ofTable, Remotes.ofTable]
  | .derived .. => simp [ofTable, Remotes.ofTable, constructs_ofQuery]
  | .values .. => simp [ofTable, Remotes.ofTable, constructs_ofRows]
  | .function .. => simp [ofTable, Remotes.ofTable, constructs_ofCall]
  | .pivot .. => simp [ofTable, Remotes.ofTable, constructs_ofTable, constructs_ofCall]
  | .remote .. => simp [ofTable, Remotes.ofTable, constructs_ofExprs, remotes]
  | .joined .. => simp [ofTable, Remotes.ofTable, constructs_ofSource]

end

attribute [simp] constructs_ofExpr constructs_ofExpr? constructs_ofExprs constructs_ofRows constructs_ofCall
  constructs_ofQuery constructs_ofWith? constructs_ofItems constructs_ofSource? constructs_ofTable

@[simp] theorem constructs_ofOutput? (clause : Option OutputClause) :
    constructs (ofOutput? clause) = remotes (Remotes.ofOutput? clause) := by
  cases clause with
  | none => rfl
  | some clause => simp [ofOutput?, Remotes.ofOutput?]

@[simp] theorem constructs_ofSets (sets : List SetClause) :
    constructs (sets.flatMap ofSet) = remotes (Remotes.ofSets sets) := by
  induction sets with
  | nil => rfl
  | cons set rest ih =>
    simp only [Remotes.ofSets] at ih
    simp [ofSet, Remotes.ofSets, ih]

theorem constructs_ofMergeDo (action : MergeDo) :
    constructs (ofMergeDo action) = remotes (Remotes.ofMergeDo action) := by
  cases action with
  | update sets => exact constructs_ofSets sets
  | insert _ values => exact constructs_ofExprs values
  | delete | insertDefaults => rfl

@[simp] theorem constructs_ofMergeWhens (whens : List MergeWhen) :
    constructs (whens.flatMap ofMergeWhen) = remotes (Remotes.ofMergeWhens whens) := by
  induction whens with
  | nil => rfl
  | cons clause rest ih =>
    simp only [Remotes.ofMergeWhens] at ih
    simp [ofMergeWhen, Remotes.ofMergeWhens, constructs_ofMergeDo, ih]

@[simp] theorem constructs_flatMap_ofExpr? {α : Type} (value : α → Option Expr) (items : List α) :
    constructs (items.flatMap fun item => ofExpr? (value item)) =
      remotes (items.flatMap fun item => Remotes.ofExpr? (value item)) := by
  induction items with
  | nil => rfl
  | cons item rest ih => simp [ih]

@[simp] theorem constructs_ofExec (exec : ExecStmt) : constructs (ofExec exec) = Construct.ofExec exec := by
  have args := constructs_flatMap_ofExpr? ExecParam.value exec.params
  cases target : exec.target <;>
    simp [ofExec, Construct.ofExec, leaf, target, args]

@[simp] theorem constructs_ofInsertSource (source : InsertSource) :
    constructs (ofInsertSource source) = Construct.ofInsertSource source := by
  cases source with
  | missing | defaults => rfl
  | values rows => exact constructs_ofRows rows
  | query query => exact constructs_ofQuery query
  | exec exec => exact constructs_ofExec exec

end Outline

end ColumnFlow
