import ColumnFlow.Syntax.Statement

/-!
# Syntax trees without holes

A tree is complete if every child that its construct needs is there, at every depth: no hole stands for an expression,
a table source, a query block or a statement, and the lists that may not be empty are not. An optional child may be
absent; one that is present is complete too.
-/

namespace ColumnFlow

mutual

inductive Expr.Complete : Expr → Prop
  | column (ref) : Expr.Complete (.column ref)
  | literal (span kind value) : Expr.Complete (.literal span kind value)
  | localVar (span name) : Expr.Complete (.localVar span name)
  | binary {span left op right} : left.Complete → right.Complete → Expr.Complete (.binary span left op right)
  | unary {span op operand} : operand.Complete → Expr.Complete (.unary span op operand)
  | call {fn} : fn.Complete → Expr.Complete (.call fn)
  | case {span operand whens otherwise} : (∀ e ∈ operand, e.Complete) → whens ≠ [] → (∀ w ∈ whens, w.Complete) →
      (∀ e ∈ otherwise, e.Complete) → Expr.Complete (.case span operand whens otherwise)
  | cast {span operand typeName lenient} : operand.Complete → Expr.Complete (.cast span operand typeName lenient)
  | convert {span typeName operand style lenient} : operand.Complete → (∀ e ∈ style, e.Complete) →
      Expr.Complete (.convert span typeName operand style lenient)
  | coalesce {span args} : (∀ e ∈ args, e.Complete) → Expr.Complete (.coalesce span args)
  | nullIf {span left right} : left.Complete → right.Complete → Expr.Complete (.nullIf span left right)
  | iif {span cond yes no} : cond.Complete → yes.Complete → no.Complete → Expr.Complete (.iif span cond yes no)
  | inList {span operand negated values} : operand.Complete → (∀ e ∈ values, e.Complete) →
      Expr.Complete (.inList span operand negated values)
  | inQuery {span operand negated query} : operand.Complete → query.Complete →
      Expr.Complete (.inQuery span operand negated query)
  | between {span operand negated low high} : operand.Complete → low.Complete → high.Complete →
      Expr.Complete (.between span operand negated low high)
  | isNull {span operand negated} : operand.Complete → Expr.Complete (.isNull span operand negated)
  | like {span operand negated pattern escape} : operand.Complete → pattern.Complete → (∀ e ∈ escape, e.Complete) →
      Expr.Complete (.like span operand negated pattern escape)
  | collate {span operand collation} : operand.Complete → Expr.Complete (.collate span operand collation)
  | paren {span inner} : inner.Complete → Expr.Complete (.paren span inner)
  | star (span table) : Expr.Complete (.star span table)
  | subquery {span query} : query.Complete → Expr.Complete (.subquery span query)
  | exists {span query} : query.Complete → Expr.Complete (.exists span query)

inductive FuncCall.Complete : FuncCall → Prop
  | intro {fn} : (∀ e ∈ fn.args, e.Complete) → (∀ o ∈ fn.withinGroup, o.Complete) → (∀ w ∈ fn.window, w.Complete) →
      FuncCall.Complete fn

inductive WindowSpec.Complete : WindowSpec → Prop
  | intro {window} : (∀ e ∈ window.partitionBy, e.Complete) → (∀ o ∈ window.orderBy, o.Complete) →
      WindowSpec.Complete window

inductive OrderItem.Complete : OrderItem → Prop
  | intro {item} : item.expr.Complete → OrderItem.Complete item

inductive WhenClause.Complete : WhenClause → Prop
  | intro {clause} : clause.condition.Complete → clause.result.Complete → WhenClause.Complete clause

inductive Query.Complete : Query → Prop
  | intro {query} : (∀ c ∈ query.ctes, c.Complete) → query.body.Complete → (∀ o ∈ query.orderBy, o.Complete) →
      (∀ e ∈ query.offset, e.Complete) → (∀ e ∈ query.fetch, e.Complete) → Query.Complete query

inductive WithClause.Complete : WithClause → Prop
  | intro {clause} : (∀ t ∈ clause.tables, t.Complete) → WithClause.Complete clause

inductive CommonTable.Complete : CommonTable → Prop
  | intro {table} : table.query.Complete → CommonTable.Complete table

inductive SelectBody.Complete : SelectBody → Prop
  | single {span core} : core.Complete → SelectBody.Complete (.single span core)
  | chain {span core op all rest} : core.Complete → rest.Complete → SelectBody.Complete (.chain span core op all rest)

inductive SelectCore.Complete : SelectCore → Prop
  | intro {core} : (∀ t ∈ core.top, t.Complete) → core.columns ≠ [] → (∀ c ∈ core.columns, c.Complete) →
      (∀ f ∈ core.source, f.Complete) → (∀ e ∈ core.filter, e.Complete) → (∀ e ∈ core.groupBy, e.Complete) →
      (∀ e ∈ core.having, e.Complete) → SelectCore.Complete core

inductive TopClause.Complete : TopClause → Prop
  | intro {top} : top.count.Complete → TopClause.Complete top

inductive SelectItem.Complete : SelectItem → Prop
  | star (span) : SelectItem.Complete (.star span)
  | tableStar (span qualifier) : SelectItem.Complete (.tableStar span qualifier)
  | assign {span variableName value} : value.Complete → SelectItem.Complete (.assign span variableName value)
  | value {span value aliasName} : value.Complete → SelectItem.Complete (.value span value aliasName)

inductive FromClause.Complete : FromClause → Prop
  | intro {clause} : clause.source.Complete → (∀ j ∈ clause.joins, j.Complete) → FromClause.Complete clause

inductive Join.Complete : Join → Prop
  | intro {join} : join.right.Complete → (∀ e ∈ join.condition, e.Complete) → Join.Complete join

inductive TableRef.Complete : TableRef → Prop
  | named (span name aliasName hints) : TableRef.Complete (.named span name aliasName hints)
  | derived {span query aliasName columns} : query.Complete →
      TableRef.Complete (.derived span query aliasName columns)
  | values {span rows aliasName columns} : (∀ row ∈ rows, ∀ e ∈ row, e.Complete) →
      TableRef.Complete (.values span rows aliasName columns)
  | function {span call aliasName columns} : call.Complete → TableRef.Complete (.function span call aliasName columns)
  | pivot {span call source aliasName columns} : call.Complete → source.Complete →
      TableRef.Complete (.pivot span call source aliasName columns)
  | remote {span kind args object aliasName} : (∀ e ∈ args, e.Complete) →
      TableRef.Complete (.remote span kind args object aliasName)
  | joined {span source} : source.Complete → TableRef.Complete (.joined span source)

end

/-! ### Statements -/

inductive OutputClause.Complete : OutputClause → Prop
  | intro {output} : (∀ c ∈ output.columns, c.Complete) → OutputClause.Complete output

inductive SetClause.Complete : SetClause → Prop
  | intro {clause} : clause.value.Complete → SetClause.Complete clause

inductive ExecParam.Complete : ExecParam → Prop
  | intro {param} : (∀ e ∈ param.value, e.Complete) → ExecParam.Complete param

inductive ExecTarget.Complete : ExecTarget → Prop
  | procedure (name) : ExecTarget.Complete (.procedure name)
  | localVar (name) : ExecTarget.Complete (.localVar name)
  | text {sql server} : sql.Complete → ExecTarget.Complete (.text sql server)

inductive ExecStmt.Complete : ExecStmt → Prop
  | intro {exec} : exec.target.Complete → (∀ p ∈ exec.params, p.Complete) → ExecStmt.Complete exec

/-- One of the four sources is there. -/
inductive InsertSource.Complete : InsertSource → Prop
  | values {rows} : (∀ row ∈ rows, ∀ e ∈ row, e.Complete) → InsertSource.Complete (.values rows)
  | query {query} : query.Complete → InsertSource.Complete (.query query)
  | exec {exec} : exec.Complete → InsertSource.Complete (.exec exec)
  | defaults : InsertSource.Complete .defaults

inductive MergeDo.Complete : MergeDo → Prop
  | update {sets} : (∀ c ∈ sets, c.Complete) → MergeDo.Complete (.update sets)
  | delete : MergeDo.Complete .delete
  | insert {columns values} : (∀ e ∈ values, e.Complete) → MergeDo.Complete (.insert columns values)
  | insertDefaults (columns) : MergeDo.Complete (.insertDefaults columns)

inductive MergeWhen.Complete : MergeWhen → Prop
  | intro {clause} : (∀ e ∈ clause.condition, e.Complete) → clause.action.Complete → MergeWhen.Complete clause

inductive ParamDef.Complete : ParamDef → Prop
  | intro {param} : (∀ e ∈ param.default, e.Complete) → ParamDef.Complete param

inductive ColumnDef.Complete : ColumnDef → Prop
  | intro {column} : (∀ e ∈ column.computed, e.Complete) → ColumnDef.Complete column

inductive VarDecl.Complete : VarDecl → Prop
  | intro {decl} : (∀ e ∈ decl.value, e.Complete) → (∀ c ∈ decl.tableColumns, c.Complete) → VarDecl.Complete decl

inductive FunctionHeader.Complete : FunctionHeader → Prop
  | intro {header} : (∀ p ∈ header.params, p.Complete) → (∀ c ∈ header.tableColumns, c.Complete) →
      FunctionHeader.Complete header

inductive InsertStmt.Complete : InsertStmt → Prop
  | intro {stmt} : (∀ c ∈ stmt.ctes, c.Complete) → (∀ t ∈ stmt.top, t.Complete) → (∀ o ∈ stmt.output, o.Complete) →
      stmt.source.Complete → InsertStmt.Complete stmt

inductive UpdateStmt.Complete : UpdateStmt → Prop
  | intro {stmt} : (∀ c ∈ stmt.ctes, c.Complete) → (∀ t ∈ stmt.top, t.Complete) → (∀ c ∈ stmt.sets, c.Complete) →
      (∀ o ∈ stmt.output, o.Complete) → (∀ f ∈ stmt.source, f.Complete) → (∀ e ∈ stmt.filter, e.Complete) →
      UpdateStmt.Complete stmt

inductive DeleteStmt.Complete : DeleteStmt → Prop
  | intro {stmt} : (∀ c ∈ stmt.ctes, c.Complete) → (∀ t ∈ stmt.top, t.Complete) → (∀ o ∈ stmt.output, o.Complete) →
      (∀ f ∈ stmt.source, f.Complete) → (∀ e ∈ stmt.filter, e.Complete) → DeleteStmt.Complete stmt

inductive MergeStmt.Complete : MergeStmt → Prop
  | intro {stmt} : (∀ c ∈ stmt.ctes, c.Complete) → stmt.source.Complete → stmt.on.Complete → stmt.whens ≠ [] →
      (∀ w ∈ stmt.whens, w.Complete) → (∀ o ∈ stmt.output, o.Complete) → MergeStmt.Complete stmt

inductive Stmt.Complete : Stmt → Prop
  | select {query} : query.Complete → Stmt.Complete (.select query)
  | insert {stmt} : stmt.Complete → Stmt.Complete (.insert stmt)
  | update {stmt} : stmt.Complete → Stmt.Complete (.update stmt)
  | delete {stmt} : stmt.Complete → Stmt.Complete (.delete stmt)
  | merge {stmt} : stmt.Complete → Stmt.Complete (.merge stmt)
  | exec {stmt} : stmt.Complete → Stmt.Complete (.exec stmt)
  | truncate (span table) : Stmt.Complete (.truncate span table)
  | block {span body} : (∀ s ∈ body, s.Complete) → Stmt.Complete (.block span body)
  | ifElse {span cond yes no} : cond.Complete → yes.Complete → (∀ s ∈ no, s.Complete) →
      Stmt.Complete (.ifElse span cond yes no)
  | loop {span cond body} : cond.Complete → body.Complete → Stmt.Complete (.loop span cond body)
  | tryCatch {span attempt handler} : (∀ s ∈ attempt, s.Complete) → (∀ s ∈ handler, s.Complete) →
      Stmt.Complete (.tryCatch span attempt handler)
  | createProc {span alter name params body} : (∀ p ∈ params, p.Complete) → (∀ s ∈ body, s.Complete) →
      Stmt.Complete (.createProc span alter name params body)
  | createView {span alter name columns query} : query.Complete →
      Stmt.Complete (.createView span alter name columns query)
  | createFunction {span header body} : header.Complete → (∀ s ∈ body, s.Complete) →
      Stmt.Complete (.createFunction span header body)
  | createTrigger {span alter name table events body} : (∀ s ∈ body, s.Complete) →
      Stmt.Complete (.createTrigger span alter name table events body)
  | createTable {span name columns} : (∀ c ∈ columns, c.Complete) → Stmt.Complete (.createTable span name columns)
  | declare {span vars} : (∀ d ∈ vars, d.Complete) → Stmt.Complete (.declare span vars)
  | declareCursor {span name query} : query.Complete → Stmt.Complete (.declareCursor span name query)
  | drop (span kind names) : Stmt.Complete (.drop span kind names)
  | transaction (span action name) : Stmt.Complete (.transaction span action name)
  | return {span value query} : (∀ e ∈ value, e.Complete) → (∀ q ∈ query, q.Complete) →
      Stmt.Complete (.return span value query)
  | print {span value} : value.Complete → Stmt.Complete (.print span value)
  | raise {span keyword args} : (∀ e ∈ args, e.Complete) → Stmt.Complete (.raise span keyword args)
  | setVariable {span variableName op value} : (∀ e ∈ value, e.Complete) →
      Stmt.Complete (.setVariable span variableName op value)
  | setOption (span option value) : Stmt.Complete (.setOption span option value)
  | cursor (span action cursor into) : Stmt.Complete (.cursor span action cursor into)
  | control (span keyword label) : Stmt.Complete (.control span keyword label)
  | use (span database) : Stmt.Complete (.use span database)
  | other (span keyword) : Stmt.Complete (.other span keyword)

def Script.Complete (script : Script) : Prop := ∀ b ∈ script.batches, ∀ s ∈ b.stmts, s.Complete

/-! ### Parts of complete trees -/

theorem Expr.Complete.isMissing {e : Expr} (h : e.Complete) : e.isMissing = false := by
  cases h <;> rfl

theorem Stmt.Complete.isMissing {s : Stmt} (h : s.Complete) : s.isMissing = false := by
  cases h <;> rfl

theorem Expr.Complete.unparen {e : Expr} (h : e.Complete) : e.unparen.Complete := by
  match e, h with
  | .paren _ inner, .paren h => exact show inner.unparen.Complete from Complete.unparen h
  | .column _, h | .literal .., h | .localVar .., h | .binary .., h | .unary .., h | .call _, h | .case .., h
  | .cast .., h | .convert .., h | .coalesce .., h | .nullIf .., h | .iif .., h | .inList .., h | .inQuery .., h
  | .between .., h | .isNull .., h | .like .., h | .collate .., h | .star .., h | .subquery .., h | .exists .., h =>
    exact h

theorem SelectBody.Complete.withSpan {body : SelectBody} (h : body.Complete) (span : Text.Span) :
    (body.withSpan span).Complete := by
  cases h with
  | single core => exact .single core
  | chain core rest => exact .chain core rest

theorem SelectBody.Complete.append {more first : SelectBody} (hm : more.Complete) (hf : first.Complete) (op : SetOp)
    (all : Bool) : (SelectBody.append op all more first).Complete := by
  match first, hf with
  | .single _ _, .single core => exact .chain core hm
  | .chain _ _ _ _ rest, .chain core restComplete => exact .chain core (append hm restComplete op all)

theorem FuncCall.Complete.named (schema name : String) (span : Text.Span) :
    FuncCall.Complete ⟨span, schema, name, false, [], false, [], none⟩ := .intro (by simp) (by simp) (by simp)

end ColumnFlow
