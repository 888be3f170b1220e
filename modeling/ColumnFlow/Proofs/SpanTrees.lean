import ColumnFlow.Syntax.Statement
import ColumnFlow.Token.Lexer

/-!
# Spans of the nodes of a tree

Every node that has a span is a tree of spans, with those of its children inside. A part of the syntax that has no span
of its own, such as an order item or a parameter, lends its children to the node around it. A hole stands nowhere.
-/

namespace ColumnFlow

open Text (Span)

/-- The span of a node, with those of the nodes in it. -/
inductive SpanTree where
  | node (span : Span) (inside : List SpanTree)
  /-- A query block of a set operation, with what stands on its right. -/
  | link (span : Span) (inside : List SpanTree) (right : SpanTree)

namespace SpanTree

def span : SpanTree → Span
  | .node span _ | .link span _ _ => span

def inside : SpanTree → List SpanTree
  | .node _ inside | .link _ inside _ => inside

/-! ### Queries -/

@[simp] def ofName (name : ObjectName) : List SpanTree := [.node name.span []]

@[simp] def ofColumn (ref : ColumnRef) : List SpanTree := [.node ref.span []]

mutual

def ofExpr (e : Expr) : List SpanTree :=
  match e with
  | .missing => []
  | .column ref => ofColumn ref
  | .literal span _ _ | .localVar span _ | .star span _ => [.node span []]
  | .binary span left _ right | .nullIf span left right => [.node span (ofExpr left ++ ofExpr right)]
  | .unary span _ operand | .cast span operand _ _ | .isNull span operand _ | .collate span operand _
  | .paren span operand => [.node span (ofExpr operand)]
  | .call fn => ofCall fn
  | .case span operand whens otherwise => [.node span (ofExpr? operand ++ ofWhens whens ++ ofExpr? otherwise)]
  | .convert span _ operand style _ => [.node span (ofExpr operand ++ ofExpr? style)]
  | .coalesce span args => [.node span (ofExprs args)]
  | .iif span cond yes no => [.node span (ofExpr cond ++ ofExpr yes ++ ofExpr no)]
  | .inList span operand _ values => [.node span (ofExpr operand ++ ofExprs values)]
  | .inQuery span operand _ query => [.node span (ofExpr operand ++ ofQuery query)]
  | .between span operand _ low high => [.node span (ofExpr operand ++ ofExpr low ++ ofExpr high)]
  | .like span operand _ pattern escape => [.node span (ofExpr operand ++ ofExpr pattern ++ ofExpr? escape)]
  | .subquery span query | .exists span query => [.node span (ofQuery query)]

def ofExpr? : Option Expr → List SpanTree
  | none => []
  | some e => ofExpr e

def ofExprs : List Expr → List SpanTree
  | [] => []
  | e :: rest => ofExpr e ++ ofExprs rest

def ofRows : List (List Expr) → List SpanTree
  | [] => []
  | row :: rest => ofExprs row ++ ofRows rest

def ofCall (fn : FuncCall) : List SpanTree :=
  match fn with
  | ⟨span, _, _, _, args, _, withinGroup, window⟩ =>
    [.node span (ofExprs args ++ ofOrder withinGroup ++ ofWindow? window)]

def ofWindow? : Option WindowSpec → List SpanTree
  | none => []
  | some ⟨partitionBy, orderBy⟩ => ofExprs partitionBy ++ ofOrder orderBy

def ofOrder : List OrderItem → List SpanTree
  | [] => []
  | ⟨e, _⟩ :: rest => ofExpr e ++ ofOrder rest

def ofWhens : List WhenClause → List SpanTree
  | [] => []
  | ⟨condition, result⟩ :: rest => ofExpr condition ++ ofExpr result ++ ofWhens rest

/-- A query holds every block of its body, also where a block reaches beyond the one it is the right of. -/
def ofQuery (query : Query) : List SpanTree :=
  match query with
  | ⟨span, ctes, body, orderBy, offset, fetch, _⟩ =>
    [.node span (ofWith? ctes ++ ofBlocks body ++ ofOrder orderBy ++ ofExpr? offset ++ ofExpr? fetch)]

def ofWith? : Option WithClause → List SpanTree
  | none => []
  | some clause => ofWith clause

def ofWith (clause : WithClause) : List SpanTree :=
  match clause with
  | ⟨span, tables⟩ => [.node span (ofCommonTables tables)]

def ofCommonTables : List CommonTable → List SpanTree
  | [] => []
  | table :: rest => ofCommonTable table ++ ofCommonTables rest

def ofCommonTable (table : CommonTable) : List SpanTree :=
  match table with
  | ⟨span, _, _, query⟩ => [.node span (ofQuery query)]

def ofBody (body : SelectBody) : SpanTree :=
  match body with
  | .single span core => .node span (ofCore core)
  | .chain span core _ _ rest => .link span (ofCore core) (ofBody rest)

/-- A body and what stands on its right, one after the other. -/
def ofBlocks (body : SelectBody) : List SpanTree :=
  match body with
  | .single span core => [.node span (ofCore core)]
  | .chain span core _ _ rest => .link span (ofCore core) (ofBody rest) :: ofBlocks rest

def ofCore (core : SelectCore) : List SpanTree :=
  match core with
  | ⟨span, _, top, columns, into, source, filter, groupBy, having⟩ =>
    [.node span (ofTop? top ++ ofItems columns ++ into.toList.flatMap ofName ++ ofSource? source ++ ofExpr? filter
      ++ ofExprs groupBy ++ ofExpr? having)]

def ofTop? : Option TopClause → List SpanTree
  | none => []
  | some ⟨count, _, _⟩ => ofExpr count

def ofItems : List SelectItem → List SpanTree
  | [] => []
  | item :: rest => ofItem item ++ ofItems rest

def ofItem (item : SelectItem) : List SpanTree :=
  match item with
  | .star span | .tableStar span _ => [.node span []]
  | .assign span _ value | .value span value _ => [.node span (ofExpr value)]

def ofSource? : Option FromClause → List SpanTree
  | none => []
  | some clause => ofSource clause

def ofSource (clause : FromClause) : List SpanTree :=
  match clause with
  | ⟨span, source, joins⟩ => [.node span (ofTable source ++ ofJoins joins)]

def ofJoins : List Join → List SpanTree
  | [] => []
  | join :: rest => ofJoin join ++ ofJoins rest

def ofJoin (join : Join) : List SpanTree :=
  match join with
  | ⟨span, _, right, condition⟩ => [.node span (ofTable right ++ ofExpr? condition)]

def ofTable (table : TableRef) : List SpanTree :=
  match table with
  | .missing => []
  | .named span name _ _ => [.node span (ofName name)]
  | .derived span query _ _ => [.node span (ofQuery query)]
  | .values span rows _ _ => [.node span (ofRows rows)]
  | .function span fn _ _ => [.node span (ofCall fn)]
  | .pivot span fn source _ _ => [.node span (ofCall fn ++ ofTable source)]
  | .remote span _ args object _ => [.node span (ofExprs args ++ object.toList.flatMap ofName)]
  | .joined span source => [.node span (ofSource source)]

end

/-! Where there may be any number of nodes, their spans are those of all of them. -/

@[simp] theorem ofExpr?_eq (e : Option Expr) : ofExpr? e = e.toList.flatMap ofExpr := by
  cases e with
  | none => rfl
  | some e => simp [ofExpr?]

@[simp] theorem ofWindow?_eq (window : Option WindowSpec) :
    ofWindow? window = window.toList.flatMap fun w => ofExprs w.partitionBy ++ ofOrder w.orderBy := by
  cases window with
  | none => rfl
  | some w =>
    obtain ⟨partitionBy, orderBy⟩ := w
    simp [ofWindow?]

@[simp] theorem ofWith?_eq (clause : Option WithClause) : ofWith? clause = clause.toList.flatMap ofWith := by
  cases clause with
  | none => rfl
  | some clause => simp [ofWith?]

@[simp] theorem ofTop?_eq (top : Option TopClause) : ofTop? top = top.toList.flatMap (ofExpr ·.count) := by
  cases top with
  | none => rfl
  | some top =>
    obtain ⟨count, _, _⟩ := top
    simp [ofTop?]

@[simp] theorem ofSource?_eq (clause : Option FromClause) : ofSource? clause = clause.toList.flatMap ofSource := by
  cases clause with
  | none => rfl
  | some clause => simp [ofSource?]

@[simp] theorem ofExprs_eq (exprs : List Expr) : ofExprs exprs = exprs.flatMap ofExpr := by
  induction exprs with
  | nil => rfl
  | cons e rest ih => rw [ofExprs, ih, List.flatMap_cons]

@[simp] theorem ofRows_eq (rows : List (List Expr)) : ofRows rows = rows.flatMap ofExprs := by
  induction rows with
  | nil => rfl
  | cons row rest ih => rw [ofRows, ih, List.flatMap_cons]

@[simp] theorem ofOrder_eq (items : List OrderItem) : ofOrder items = items.flatMap (ofExpr ·.expr) := by
  induction items with
  | nil => rfl
  | cons item rest ih =>
    obtain ⟨e, _⟩ := item
    rw [ofOrder, ih, List.flatMap_cons]

@[simp] theorem ofWhens_eq (whens : List WhenClause) :
    ofWhens whens = whens.flatMap fun w => ofExpr w.condition ++ ofExpr w.result := by
  induction whens with
  | nil => rfl
  | cons w rest ih =>
    obtain ⟨condition, result⟩ := w
    rw [ofWhens, ih, List.flatMap_cons]

@[simp] theorem ofCommonTables_eq (tables : List CommonTable) :
    ofCommonTables tables = tables.flatMap ofCommonTable := by
  induction tables with
  | nil => rfl
  | cons table rest ih => rw [ofCommonTables, ih, List.flatMap_cons]

@[simp] theorem ofItems_eq (items : List SelectItem) : ofItems items = items.flatMap ofItem := by
  induction items with
  | nil => rfl
  | cons item rest ih => rw [ofItems, ih, List.flatMap_cons]

@[simp] theorem ofJoins_eq (joins : List Join) : ofJoins joins = joins.flatMap ofJoin := by
  induction joins with
  | nil => rfl
  | cons join rest ih => rw [ofJoins, ih, List.flatMap_cons]

@[simp] theorem ofExpr_missing : ofExpr .missing = [] := rfl

@[simp] theorem ofExpr_column (ref : ColumnRef) : ofExpr (.column ref) = [.node ref.span []] := rfl

/-- What is not a hole has a span of its own. -/
theorem ofExpr_eq {e : Expr} (there : e.isMissing = false) :
    ∃ first : SpanTree, ofExpr e = [first] ∧ first.span = e.span := by
  cases e with
  | missing => cases there
  | call fn =>
    obtain ⟨⟩ := fn
    exact ⟨_, rfl, rfl⟩
  | _ => exact ⟨_, rfl, rfl⟩

/-! ### Statements -/

def ofOutput : OutputClause → List SpanTree
  | ⟨span, columns, into, intoColumns⟩ =>
    [.node span (ofItems columns ++ into.toList.flatMap ofName ++ intoColumns.flatMap ofColumn)]

def ofSet : SetClause → List SpanTree
  | ⟨span, column, _, _, value⟩ => [.node span (column.toList.flatMap ofColumn ++ ofExpr value)]

def ofExecParam : ExecParam → List SpanTree
  | ⟨span, _, value, _⟩ => [.node span (ofExpr? value)]

@[simp] def ofExecTarget : ExecTarget → List SpanTree
  | .procedure name => ofName name
  | .localVar _ => []
  | .text sql _ => ofExpr sql

def ofExec : ExecStmt → List SpanTree
  | ⟨span, _, target, params⟩ => [.node span (ofExecTarget target ++ params.flatMap ofExecParam)]

@[simp] def ofInsertSource : InsertSource → List SpanTree
  | .missing | .defaults => []
  | .values rows => ofRows rows
  | .query query => ofQuery query
  | .exec exec => ofExec exec

@[simp] def ofMergeDo : MergeDo → List SpanTree
  | .update sets => sets.flatMap ofSet
  | .delete => []
  | .insert columns values => columns.flatMap ofColumn ++ ofExprs values
  | .insertDefaults columns => columns.flatMap ofColumn

def ofMergeWhen : MergeWhen → List SpanTree
  | ⟨span, _, condition, action⟩ => [.node span (ofExpr? condition ++ ofMergeDo action)]

@[simp] def ofParam (param : ParamDef) : List SpanTree := ofExpr? param.default

@[simp] def ofColumnDef (column : ColumnDef) : List SpanTree := ofExpr? column.computed

def ofVarDecl : VarDecl → List SpanTree
  | ⟨span, _, _, value, columns⟩ => [.node span (ofExpr? value ++ columns.flatMap ofColumnDef)]

def ofHeader (header : FunctionHeader) : List SpanTree :=
  ofName header.name ++ header.params.flatMap ofParam ++ header.tableColumns.flatMap ofColumnDef

mutual

def ofStmt (stmt : Stmt) : List SpanTree :=
  match stmt with
  | .missing => []
  | .select query => ofQuery query
  | .insert ⟨span, ctes, top, target, columns, output, source⟩ =>
    [.node span (ofWith? ctes ++ ofTop? top ++ ofName target ++ columns.flatMap ofColumn
      ++ output.toList.flatMap ofOutput ++ ofInsertSource source)]
  | .update ⟨span, ctes, top, target, sets, output, source, filter⟩ =>
    [.node span (ofWith? ctes ++ ofTop? top ++ ofName target ++ sets.flatMap ofSet ++ output.toList.flatMap ofOutput
      ++ ofSource? source ++ ofExpr? filter)]
  | .delete ⟨span, ctes, top, target, output, source, filter⟩ =>
    [.node span (ofWith? ctes ++ ofTop? top ++ ofName target ++ output.toList.flatMap ofOutput ++ ofSource? source
      ++ ofExpr? filter)]
  | .merge ⟨span, ctes, target, _, source, on, whens, output⟩ =>
    [.node span (ofWith? ctes ++ ofName target ++ ofTable source ++ ofExpr on ++ whens.flatMap ofMergeWhen
      ++ output.toList.flatMap ofOutput)]
  | .exec exec => ofExec exec
  | .truncate span table => [.node span (ofName table)]
  | .block span body => [.node span (ofStmts body)]
  | .ifElse span cond yes no => [.node span (ofExpr cond ++ ofStmt yes ++ ofStmt? no)]
  | .loop span cond body => [.node span (ofExpr cond ++ ofStmt body)]
  | .tryCatch span attempt handler => [.node span (ofStmts attempt ++ ofStmts handler)]
  | .createProc span _ name params body => [.node span (ofName name ++ params.flatMap ofParam ++ ofStmts body)]
  | .createView span _ name _ query => [.node span (ofName name ++ ofQuery query)]
  | .createFunction span header body => [.node span (ofHeader header ++ ofStmts body)]
  | .createTrigger span _ name table _ body =>
    [.node span (ofName name ++ table.toList.flatMap ofName ++ ofStmts body)]
  | .createTable span name columns => [.node span (ofName name ++ columns.flatMap ofColumnDef)]
  | .declare span vars => [.node span (vars.flatMap ofVarDecl)]
  | .declareCursor span _ query => [.node span (ofQuery query)]
  | .drop span _ names => [.node span (names.flatMap ofName)]
  | .return span value query => [.node span (ofExpr? value ++ query.toList.flatMap ofQuery)]
  | .print span value => [.node span (ofExpr value)]
  | .raise span _ args => [.node span (ofExprs args)]
  | .setVariable span _ _ value => [.node span (ofExpr? value)]
  | .transaction span _ _ | .setOption span _ _ | .cursor span _ _ _ | .control span _ _ | .use span _
  | .other span _ => [.node span []]

def ofStmt? : Option Stmt → List SpanTree
  | none => []
  | some stmt => ofStmt stmt

def ofStmts : List Stmt → List SpanTree
  | [] => []
  | stmt :: rest => ofStmt stmt ++ ofStmts rest

end

@[simp] theorem ofStmt?_eq (stmt : Option Stmt) : ofStmt? stmt = stmt.toList.flatMap ofStmt := by
  cases stmt with
  | none => rfl
  | some stmt => simp [ofStmt?]

@[simp] theorem ofStmts_eq (stmts : List Stmt) : ofStmts stmts = stmts.flatMap ofStmt := by
  induction stmts with
  | nil => rfl
  | cons stmt rest ih => rw [ofStmts, ih, List.flatMap_cons]

def ofBatch : Batch → List SpanTree
  | ⟨span, stmts⟩ => [.node span (ofStmts stmts)]

def ofScript : Script → SpanTree
  | ⟨span, _, batches⟩ => .node span (batches.flatMap ofBatch)

/-! ### Nesting -/

/-- One span lies inside another. -/
def Within (inner outer : Span) : Prop :=
  outer.start.offset ≤ inner.start.offset ∧ inner.stop.offset ≤ outer.stop.offset

/-- The span reaches from the start of a token to the end of one. -/
structure Located (source : String) (span : Span) : Prop where
  start : ∃ t ∈ tokenize source, t.start = span.start
  stop : ∃ t ∈ tokenize source, t.stop = span.stop
  ordered : span.start.offset ≤ span.stop.offset
  bounded : span.stop.offset ≤ source.utf8ByteSize

/-- A closing parenthesis stands between two spans. -/
def Parted (source : String) (left right : Span) : Prop :=
  ∃ t ∈ tokenize source, t.kind = Symbol.rparen ∧ left.stop.offset ≤ t.start.offset ∧ t.stop.offset ≤ right.start.offset

/-- Every span from this one on is a proper one, and holds the spans inside it. Only what stands on the right of a query
block may lie behind it, if the block ends inside parentheses. -/
inductive Nested (source : String) : SpanTree → Prop
  | node {span inside} : Located source span → (∀ p ∈ inside, Nested source p) → (∀ p ∈ inside, Within p.span span) →
      Nested source (.node span inside)
  | link {span inside right} : Located source span → (∀ p ∈ inside, Nested source p) →
      (∀ p ∈ inside, Within p.span span) → Nested source right →
      Within right.span span ∨ Parted source span right.span → Nested source (.link span inside right)

theorem Nested.located {source : String} {tree : SpanTree} (h : Nested source tree) : Located source tree.span := by
  cases h with
  | node located | link located => exact located

theorem Nested.inside {source : String} {tree : SpanTree} (h : Nested source tree) :
    ∀ p ∈ tree.inside, Nested source p ∧ Within p.span tree.span := by
  cases h with
  | node _ nested within | link _ nested within => exact fun p mem => ⟨nested p mem, within p mem⟩

end SpanTree

end ColumnFlow
