import ColumnFlow.Syntax.Statement

/-!
# Syntax without places

`bare` takes the places out of a tree: two trees with the same bare form were written the same way, at whatever
places of whatever text. What the parser asks of a tree that it has built, such as whether it is a hole, can be
read off its bare form.
-/

namespace ColumnFlow

open Text (Span)

def ObjectName.bare (name : ObjectName) : ObjectName := { name with span := .unset }

def ColumnRef.bare (ref : ColumnRef) : ColumnRef := { ref with span := .unset }

/-! ### Queries -/

mutual

@[simp] def Expr.bare : Expr → Expr
  | .missing => .missing
  | .column ref => .column ref.bare
  | .literal _ kind value => .literal .unset kind value
  | .localVar _ name => .localVar .unset name
  | .binary _ left op right => .binary .unset left.bare op right.bare
  | .unary _ op operand => .unary .unset op operand.bare
  | .call fn => .call fn.bare
  | .case _ operand whens otherwise =>
    .case .unset (Expr.bare? operand) (WhenClause.bares whens) (Expr.bare? otherwise)
  | .cast _ operand typeName lenient => .cast .unset operand.bare typeName lenient
  | .convert _ typeName operand style lenient =>
    .convert .unset typeName operand.bare (Expr.bare? style) lenient
  | .coalesce _ args => .coalesce .unset (Expr.bares args)
  | .nullIf _ left right => .nullIf .unset left.bare right.bare
  | .iif _ cond yes no => .iif .unset cond.bare yes.bare no.bare
  | .inList _ operand negated values => .inList .unset operand.bare negated (Expr.bares values)
  | .inQuery _ operand negated query => .inQuery .unset operand.bare negated query.bare
  | .between _ operand negated low high => .between .unset operand.bare negated low.bare high.bare
  | .isNull _ operand negated => .isNull .unset operand.bare negated
  | .like _ operand negated pattern escape =>
    .like .unset operand.bare negated pattern.bare (Expr.bare? escape)
  | .collate _ operand collation => .collate .unset operand.bare collation
  | .paren _ inner => .paren .unset inner.bare
  | .star _ table => .star .unset table
  | .subquery _ query => .subquery .unset query.bare
  | .exists _ query => .exists .unset query.bare

def Expr.bare? : Option Expr → Option Expr
  | none => none
  | some e => some e.bare

def Expr.bares : List Expr → List Expr
  | [] => []
  | e :: rest => e.bare :: Expr.bares rest

def Expr.bareRows : List (List Expr) → List (List Expr)
  | [] => []
  | row :: rest => Expr.bares row :: Expr.bareRows rest

@[simp] def FuncCall.bare : FuncCall → FuncCall
  | ⟨_, schema, name, distinct, args, star, withinGroup, window⟩ =>
    ⟨.unset, schema, name, distinct, Expr.bares args, star, OrderItem.bares withinGroup,
      WindowSpec.bare? window⟩

def WindowSpec.bare : WindowSpec → WindowSpec
  | ⟨partitionBy, orderBy⟩ => ⟨Expr.bares partitionBy, OrderItem.bares orderBy⟩

def WindowSpec.bare? : Option WindowSpec → Option WindowSpec
  | none => none
  | some window => some window.bare

def OrderItem.bare : OrderItem → OrderItem
  | ⟨expr, descending⟩ => ⟨expr.bare, descending⟩

def OrderItem.bares : List OrderItem → List OrderItem
  | [] => []
  | item :: rest => item.bare :: OrderItem.bares rest

def WhenClause.bare : WhenClause → WhenClause
  | ⟨condition, result⟩ => ⟨condition.bare, result.bare⟩

def WhenClause.bares : List WhenClause → List WhenClause
  | [] => []
  | clause :: rest => clause.bare :: WhenClause.bares rest

@[simp] def Query.bare : Query → Query
  | ⟨_, ctes, body, orderBy, offset, fetch, forMode⟩ =>
    ⟨.unset, WithClause.bare? ctes, body.bare, OrderItem.bares orderBy, Expr.bare? offset, Expr.bare? fetch,
      forMode⟩

def WithClause.bare? : Option WithClause → Option WithClause
  | none => none
  | some clause => some clause.bare

def WithClause.bare : WithClause → WithClause
  | ⟨_, tables⟩ => ⟨.unset, CommonTable.bares tables⟩

def CommonTable.bare : CommonTable → CommonTable
  | ⟨_, name, columns, query⟩ => ⟨.unset, name, columns, query.bare⟩

def CommonTable.bares : List CommonTable → List CommonTable
  | [] => []
  | table :: rest => table.bare :: CommonTable.bares rest

def SelectBody.bare : SelectBody → SelectBody
  | .single _ core => .single .unset core.bare
  | .chain _ core op all rest => .chain .unset core.bare op all rest.bare

def SelectCore.bare : SelectCore → SelectCore
  | ⟨_, distinct, top, columns, into, source, filter, groupBy, having⟩ =>
    ⟨.unset, distinct, TopClause.bare? top, SelectItem.bares columns, into.map ObjectName.bare,
      FromClause.bare? source, Expr.bare? filter, Expr.bares groupBy, Expr.bare? having⟩

def TopClause.bare : TopClause → TopClause
  | ⟨count, percent, withTies⟩ => ⟨count.bare, percent, withTies⟩

def TopClause.bare? : Option TopClause → Option TopClause
  | none => none
  | some top => some top.bare

def SelectItem.bares : List SelectItem → List SelectItem
  | [] => []
  | item :: rest => item.bare :: SelectItem.bares rest

@[simp] def SelectItem.bare : SelectItem → SelectItem
  | .star _ => .star .unset
  | .tableStar _ qualifier => .tableStar .unset qualifier
  | .assign _ variableName value => .assign .unset variableName value.bare
  | .value _ value aliasName => .value .unset value.bare aliasName

def FromClause.bare? : Option FromClause → Option FromClause
  | none => none
  | some clause => some clause.bare

@[simp] def FromClause.bare : FromClause → FromClause
  | ⟨_, source, joins⟩ => ⟨.unset, source.bare, Join.bares joins⟩

def Join.bare : Join → Join
  | ⟨_, kind, right, condition⟩ => ⟨.unset, kind, right.bare, Expr.bare? condition⟩

def Join.bares : List Join → List Join
  | [] => []
  | join :: rest => join.bare :: Join.bares rest

@[simp] def TableRef.bare : TableRef → TableRef
  | .missing => .missing
  | .named _ name aliasName hints => .named .unset name.bare aliasName hints
  | .derived _ query aliasName columns => .derived .unset query.bare aliasName columns
  | .values _ rows aliasName columns => .values .unset (Expr.bareRows rows) aliasName columns
  | .function _ fn aliasName columns => .function .unset fn.bare aliasName columns
  | .pivot _ fn source aliasName columns => .pivot .unset fn.bare source.bare aliasName columns
  | .remote _ kind args object aliasName =>
    .remote .unset kind (Expr.bares args) (object.map ObjectName.bare) aliasName
  | .joined _ source => .joined .unset source.bare

end

/-! Options and lists are bare where what they hold is. -/

@[simp] theorem Expr.bare?_eq_map (e : Option Expr) : Expr.bare? e = e.map Expr.bare := by cases e <;> rfl

@[simp] theorem WindowSpec.bare?_eq_map (w : Option WindowSpec) : WindowSpec.bare? w = w.map WindowSpec.bare := by
  cases w <;> rfl

@[simp] theorem WithClause.bare?_eq_map (c : Option WithClause) : WithClause.bare? c = c.map WithClause.bare := by
  cases c <;> rfl

@[simp] theorem TopClause.bare?_eq_map (t : Option TopClause) : TopClause.bare? t = t.map TopClause.bare := by
  cases t <;> rfl

@[simp] theorem FromClause.bare?_eq_map (c : Option FromClause) : FromClause.bare? c = c.map FromClause.bare := by
  cases c <;> rfl

@[simp] theorem Expr.bares_eq_map (es : List Expr) : Expr.bares es = es.map Expr.bare := by
  induction es with
  | nil => rfl
  | cons e rest ih => simp [Expr.bares, ih]

@[simp] theorem Expr.bareRows_eq_map (rows : List (List Expr)) :
    Expr.bareRows rows = rows.map (List.map Expr.bare) := by
  induction rows with
  | nil => rfl
  | cons row rest ih => simp [Expr.bareRows, ih]

@[simp] theorem OrderItem.bares_eq_map (items : List OrderItem) : OrderItem.bares items = items.map OrderItem.bare := by
  induction items with
  | nil => rfl
  | cons item rest ih => simp [OrderItem.bares, ih]

@[simp] theorem WhenClause.bares_eq_map (clauses : List WhenClause) :
    WhenClause.bares clauses = clauses.map WhenClause.bare := by
  induction clauses with
  | nil => rfl
  | cons clause rest ih => simp [WhenClause.bares, ih]

@[simp] theorem CommonTable.bares_eq_map (tables : List CommonTable) :
    CommonTable.bares tables = tables.map CommonTable.bare := by
  induction tables with
  | nil => rfl
  | cons table rest ih => simp [CommonTable.bares, ih]

@[simp] theorem SelectItem.bares_eq_map (items : List SelectItem) :
    SelectItem.bares items = items.map SelectItem.bare := by
  induction items with
  | nil => rfl
  | cons item rest ih => simp [SelectItem.bares, ih]

@[simp] theorem Join.bares_eq_map (joins : List Join) : Join.bares joins = joins.map Join.bare := by
  induction joins with
  | nil => rfl
  | cons join rest ih => simp [Join.bares, ih]

/-! ### Statements -/

def OutputClause.bare (clause : OutputClause) : OutputClause where
  span := .unset
  columns := clause.columns.map SelectItem.bare
  into := clause.into.map ObjectName.bare
  intoColumns := clause.intoColumns.map ColumnRef.bare

def SetClause.bare (clause : SetClause) : SetClause :=
  { clause with span := .unset, column := clause.column.map ColumnRef.bare, value := clause.value.bare }

def ExecParam.bare (param : ExecParam) : ExecParam := { param with span := .unset, value := param.value.map Expr.bare }

def ExecTarget.bare : ExecTarget → ExecTarget
  | .procedure name => .procedure name.bare
  | .localVar name => .localVar name
  | .text sql server => .text sql.bare server

def ExecStmt.bare (exec : ExecStmt) : ExecStmt :=
  { exec with span := .unset, target := exec.target.bare, params := exec.params.map ExecParam.bare }

def InsertSource.bare : InsertSource → InsertSource
  | .missing => .missing
  | .values rows => .values (rows.map (List.map Expr.bare))
  | .query q => .query q.bare
  | .exec call => .exec call.bare
  | .defaults => .defaults

def InsertStmt.bare (stmt : InsertStmt) : InsertStmt where
  span := .unset
  ctes := stmt.ctes.map WithClause.bare
  top := stmt.top.map TopClause.bare
  target := stmt.target.bare
  columns := stmt.columns.map ColumnRef.bare
  output := stmt.output.map OutputClause.bare
  source := stmt.source.bare

def UpdateStmt.bare (stmt : UpdateStmt) : UpdateStmt where
  span := .unset
  ctes := stmt.ctes.map WithClause.bare
  top := stmt.top.map TopClause.bare
  target := stmt.target.bare
  sets := stmt.sets.map SetClause.bare
  output := stmt.output.map OutputClause.bare
  source := stmt.source.map FromClause.bare
  filter := stmt.filter.map Expr.bare

def DeleteStmt.bare (stmt : DeleteStmt) : DeleteStmt where
  span := .unset
  ctes := stmt.ctes.map WithClause.bare
  top := stmt.top.map TopClause.bare
  target := stmt.target.bare
  output := stmt.output.map OutputClause.bare
  source := stmt.source.map FromClause.bare
  filter := stmt.filter.map Expr.bare

def MergeDo.bare : MergeDo → MergeDo
  | .update sets => .update (sets.map SetClause.bare)
  | .delete => .delete
  | .insert columns values => .insert (columns.map ColumnRef.bare) (values.map Expr.bare)
  | .insertDefaults columns => .insertDefaults (columns.map ColumnRef.bare)

def MergeWhen.bare (clause : MergeWhen) : MergeWhen :=
  { clause with span := .unset, condition := clause.condition.map Expr.bare, action := clause.action.bare }

def MergeStmt.bare (stmt : MergeStmt) : MergeStmt where
  span := .unset
  ctes := stmt.ctes.map WithClause.bare
  target := stmt.target.bare
  targetAlias := stmt.targetAlias
  source := stmt.source.bare
  on := stmt.on.bare
  whens := stmt.whens.map MergeWhen.bare
  output := stmt.output.map OutputClause.bare

def ParamDef.bare (param : ParamDef) : ParamDef := { param with default := param.default.map Expr.bare }

def ColumnDef.bare (column : ColumnDef) : ColumnDef := { column with computed := column.computed.map Expr.bare }

def VarDecl.bare (decl : VarDecl) : VarDecl :=
  { decl with
    span := .unset, value := decl.value.map Expr.bare, tableColumns := decl.tableColumns.map ColumnDef.bare }

def FunctionHeader.bare (header : FunctionHeader) : FunctionHeader :=
  { header with
    name := header.name.bare, params := header.params.map ParamDef.bare
    tableColumns := header.tableColumns.map ColumnDef.bare }

mutual

@[simp] def Stmt.bare : Stmt → Stmt
  | .missing => .missing
  | .select query => .select query.bare
  | .insert stmt => .insert stmt.bare
  | .update stmt => .update stmt.bare
  | .delete stmt => .delete stmt.bare
  | .merge stmt => .merge stmt.bare
  | .exec stmt => .exec stmt.bare
  | .truncate _ table => .truncate .unset table.bare
  | .block _ body => .block .unset (Stmt.bares body)
  | .ifElse _ cond yes no => .ifElse .unset cond.bare yes.bare (Stmt.bare? no)
  | .loop _ cond body => .loop .unset cond.bare body.bare
  | .tryCatch _ attempt handler => .tryCatch .unset (Stmt.bares attempt) (Stmt.bares handler)
  | .createProc _ alter name params body =>
    .createProc .unset alter name.bare (params.map ParamDef.bare) (Stmt.bares body)
  | .createView _ alter name columns query => .createView .unset alter name.bare columns query.bare
  | .createFunction _ header body => .createFunction .unset header.bare (Stmt.bares body)
  | .createTrigger _ alter name table events body =>
    .createTrigger .unset alter name.bare (table.map ObjectName.bare) events (Stmt.bares body)
  | .createTable _ name columns => .createTable .unset name.bare (columns.map ColumnDef.bare)
  | .declare _ vars => .declare .unset (vars.map VarDecl.bare)
  | .declareCursor _ name query => .declareCursor .unset name query.bare
  | .drop _ kind names => .drop .unset kind (names.map ObjectName.bare)
  | .transaction _ action name => .transaction .unset action name
  | .return _ value query => .return .unset (value.map Expr.bare) (query.map Query.bare)
  | .print _ value => .print .unset value.bare
  | .raise _ keyword args => .raise .unset keyword (args.map Expr.bare)
  | .setVariable _ variableName op value => .setVariable .unset variableName op (value.map Expr.bare)
  | .setOption _ option value => .setOption .unset option value
  | .cursor _ action name into => .cursor .unset action name into
  | .control _ keyword label => .control .unset keyword label
  | .use _ database => .use .unset database
  | .other _ keyword => .other .unset keyword

def Stmt.bare? : Option Stmt → Option Stmt
  | none => none
  | some stmt => some stmt.bare

def Stmt.bares : List Stmt → List Stmt
  | [] => []
  | stmt :: rest => stmt.bare :: Stmt.bares rest

end

@[simp] theorem Stmt.bare?_eq_map (stmt : Option Stmt) : Stmt.bare? stmt = stmt.map Stmt.bare := by
  cases stmt <;> rfl

@[simp] theorem Stmt.bares_eq_map (stmts : List Stmt) : Stmt.bares stmts = stmts.map Stmt.bare := by
  induction stmts with
  | nil => rfl
  | cons stmt rest ih => simp [Stmt.bares, ih]

def Batch.bare (batch : Batch) : Batch := { span := .unset, stmts := batch.stmts.map Stmt.bare }

/-! ### What a bare tree tells -/

@[simp] theorem Expr.isMissing_bare (e : Expr) : e.bare.isMissing = e.isMissing := by
  cases e <;> rfl

@[simp] theorem Stmt.isMissing_bare (stmt : Stmt) : stmt.bare.isMissing = stmt.isMissing := by
  cases stmt <;> rfl

theorem Expr.isMissing_congr {e e' : Expr} (same : e.bare = e'.bare) : e.isMissing = true ↔ e'.isMissing = true := by
  rw [← Expr.isMissing_bare, same, Expr.isMissing_bare]

theorem isEmpty_congr {α β : Type} {f : α → β} {xs ys : List α} (same : xs.map f = ys.map f) :
    xs.isEmpty = true ↔ ys.isEmpty = true := by
  rw [← List.isEmpty_map (f := f), same, List.isEmpty_map]

theorem Expr.unparen_bare (e : Expr) : e.bare.unparen = e.unparen.bare := by
  fun_induction Expr.unparen e with
  | case1 span inner ih => simpa [Expr.unparen] using ih
  | case2 e other => cases e <;> simp_all [Expr.unparen]

theorem SelectBody.bare_withSpan (body : SelectBody) (span : Span) : (body.withSpan span).bare = body.bare := by
  cases body <;> rfl

theorem SelectBody.bare_append (op : SetOp) (all : Bool) (more body : SelectBody) :
    (SelectBody.append op all more body).bare = SelectBody.append op all more.bare body.bare := by
  fun_induction SelectBody.append op all more body with
  | case1 span core => simp [SelectBody.bare, SelectBody.append]
  | case2 span core op' all' rest ih => simp [SelectBody.bare, SelectBody.append, ih]

end ColumnFlow
