import ColumnFlow.Lineage.Column
import ColumnFlow.Proofs.LetterCase
import ColumnFlow.Syntax.Statement

/-!
# Syntax up to case

The caseless form of a tree has the same shape and the same places, with every text in small letters. Two scripts
with one caseless form differ in nothing but the case of letters. Only the words that mark the read of a sequence
are kept as they are: they tell such a read from the call of a function.
-/

namespace ColumnFlow

open Text (Span)

/-! ### Names -/

instance : Caseless ObjectName where
  caseless o :=
    { o with
      server := caseless o.server, database := caseless o.database, schema := caseless o.schema
      name := caseless o.name }
  caseless_caseless _ := by simp

instance : Caseless ColumnRef where
  caseless ref :=
    { ref with
      database := caseless ref.database, schema := caseless ref.schema, table := caseless ref.table
      column := caseless ref.column }
  caseless_caseless _ := by simp

/-- The caseless form of the name of a call, `NEXT VALUE FOR` apart. -/
def callName (name : String) : String :=
  if sequenceRead.toList.isPrefixOf name.toList then
    sequenceRead ++ caseless (String.ofList (name.toList.drop sequenceRead.toList.length))
  else caseless name

/-! ### Queries -/

mutual

def Expr.toCaseless : Expr → Expr
  | .missing => .missing
  | .column ref => .column (caseless ref)
  | .literal span kind value => .literal span kind (caseless value)
  | .localVar span name => .localVar span (caseless name)
  | .binary span left op right => .binary span left.toCaseless op right.toCaseless
  | .unary span op operand => .unary span op operand.toCaseless
  | .call fn => .call fn.toCaseless
  | .case span operand whens otherwise =>
    .case span (Expr.toCaseless? operand) (WhenClause.toCaselessAll whens) (Expr.toCaseless? otherwise)
  | .cast span operand typeName lenient =>
    .cast span operand.toCaseless (caseless typeName) lenient
  | .convert span typeName operand style lenient =>
    .convert span (caseless typeName) operand.toCaseless (Expr.toCaseless? style) lenient
  | .coalesce span args => .coalesce span (Expr.toCaselessAll args)
  | .nullIf span left right => .nullIf span left.toCaseless right.toCaseless
  | .iif span cond yes no => .iif span cond.toCaseless yes.toCaseless no.toCaseless
  | .inList span operand negated values => .inList span operand.toCaseless negated (Expr.toCaselessAll values)
  | .inQuery span operand negated query => .inQuery span operand.toCaseless negated query.toCaseless
  | .between span operand negated low high =>
    .between span operand.toCaseless negated low.toCaseless high.toCaseless
  | .isNull span operand negated => .isNull span operand.toCaseless negated
  | .like span operand negated pattern escape =>
    .like span operand.toCaseless negated pattern.toCaseless (Expr.toCaseless? escape)
  | .collate span operand collation => .collate span operand.toCaseless (caseless collation)
  | .paren span inner => .paren span inner.toCaseless
  | .star span table => .star span (caseless table)
  | .subquery span query => .subquery span query.toCaseless
  | .exists span query => .exists span query.toCaseless

def Expr.toCaseless? : Option Expr → Option Expr
  | none => none
  | some e => some e.toCaseless

def Expr.toCaselessAll : List Expr → List Expr
  | [] => []
  | e :: rest => e.toCaseless :: Expr.toCaselessAll rest

def Expr.toCaselessRows : List (List Expr) → List (List Expr)
  | [] => []
  | row :: rest => Expr.toCaselessAll row :: Expr.toCaselessRows rest

def FuncCall.toCaseless : FuncCall → FuncCall
  | ⟨span, schema, name, distinct, args, star, withinGroup, window⟩ =>
    ⟨span, caseless schema, callName name, distinct, Expr.toCaselessAll args, star,
      OrderItem.toCaselessAll withinGroup, WindowSpec.toCaseless? window⟩

def WindowSpec.toCaseless? : Option WindowSpec → Option WindowSpec
  | none => none
  | some ⟨partitionBy, orderBy⟩ => some ⟨Expr.toCaselessAll partitionBy, OrderItem.toCaselessAll orderBy⟩

def OrderItem.toCaselessAll : List OrderItem → List OrderItem
  | [] => []
  | ⟨expr, descending⟩ :: rest => ⟨expr.toCaseless, descending⟩ :: OrderItem.toCaselessAll rest

def WhenClause.toCaselessAll : List WhenClause → List WhenClause
  | [] => []
  | ⟨condition, result⟩ :: rest => ⟨condition.toCaseless, result.toCaseless⟩ :: WhenClause.toCaselessAll rest

def Query.toCaseless : Query → Query
  | ⟨span, ctes, body, orderBy, offset, fetch, forMode⟩ =>
    ⟨span, WithClause.toCaseless? ctes, body.toCaseless, OrderItem.toCaselessAll orderBy, Expr.toCaseless? offset,
      Expr.toCaseless? fetch, caseless forMode⟩

def WithClause.toCaseless? : Option WithClause → Option WithClause
  | none => none
  | some clause => some clause.toCaseless

def WithClause.toCaseless : WithClause → WithClause
  | ⟨span, tables⟩ => ⟨span, CommonTable.toCaselessAll tables⟩

def CommonTable.toCaselessAll : List CommonTable → List CommonTable
  | [] => []
  | table :: rest => table.toCaseless :: CommonTable.toCaselessAll rest

def CommonTable.toCaseless : CommonTable → CommonTable
  | ⟨span, name, columns, query⟩ =>
    ⟨span, caseless name, caseless columns, query.toCaseless⟩

def SelectBody.toCaseless : SelectBody → SelectBody
  | .single span core => .single span core.toCaseless
  | .chain span core op all rest => .chain span core.toCaseless op all rest.toCaseless

def SelectCore.toCaseless : SelectCore → SelectCore
  | ⟨span, distinct, top, columns, into, source, filter, groupBy, having⟩ =>
    ⟨span, distinct, TopClause.toCaseless? top, SelectItem.toCaselessAll columns, caseless into,
      FromClause.toCaseless? source, Expr.toCaseless? filter, Expr.toCaselessAll groupBy, Expr.toCaseless? having⟩

def TopClause.toCaseless? : Option TopClause → Option TopClause
  | none => none
  | some ⟨count, percent, withTies⟩ => some ⟨count.toCaseless, percent, withTies⟩

def SelectItem.toCaselessAll : List SelectItem → List SelectItem
  | [] => []
  | item :: rest => item.toCaseless :: SelectItem.toCaselessAll rest

def SelectItem.toCaseless : SelectItem → SelectItem
  | .star span => .star span
  | .tableStar span qualifier => .tableStar span (caseless qualifier)
  | .assign span variableName value => .assign span (caseless variableName) value.toCaseless
  | .value span value aliasName => .value span value.toCaseless (caseless aliasName)

def FromClause.toCaseless? : Option FromClause → Option FromClause
  | none => none
  | some clause => some clause.toCaseless

def FromClause.toCaseless : FromClause → FromClause
  | ⟨span, source, joins⟩ => ⟨span, source.toCaseless, Join.toCaselessAll joins⟩

def Join.toCaselessAll : List Join → List Join
  | [] => []
  | ⟨span, kind, right, condition⟩ :: rest =>
    ⟨span, kind, right.toCaseless, Expr.toCaseless? condition⟩ :: Join.toCaselessAll rest

def TableRef.toCaseless : TableRef → TableRef
  | .missing => .missing
  | .named span name aliasName hints =>
    .named span (caseless name) (caseless aliasName) (caseless hints)
  | .derived span query aliasName columns =>
    .derived span query.toCaseless (caseless aliasName) (caseless columns)
  | .values span rows aliasName columns =>
    .values span (Expr.toCaselessRows rows) (caseless aliasName) (caseless columns)
  | .function span fn aliasName columns =>
    .function span fn.toCaseless (caseless aliasName) (caseless columns)
  | .pivot span fn source aliasName columns =>
    .pivot span fn.toCaseless source.toCaseless (caseless aliasName) (caseless columns)
  | .remote span kind args object aliasName =>
    .remote span (caseless kind) (Expr.toCaselessAll args) (caseless object)
      (caseless aliasName)
  | .joined span source => .joined span source.toCaseless

end

/-! ### Statements -/

def OutputClause.toCaseless (clause : OutputClause) : OutputClause where
  span := clause.span
  columns := SelectItem.toCaselessAll clause.columns
  into := caseless clause.into
  intoColumns := caseless clause.intoColumns

def SetClause.toCaseless (set : SetClause) : SetClause where
  span := set.span
  column := caseless set.column
  variableName := caseless set.variableName
  op := set.op
  value := set.value.toCaseless

def ExecParam.toCaseless (param : ExecParam) : ExecParam where
  span := param.span
  name := caseless param.name
  value := Expr.toCaseless? param.value
  output := param.output

def ExecTarget.toCaseless : ExecTarget → ExecTarget
  | .procedure name => .procedure (caseless name)
  | .localVar name => .localVar (caseless name)
  | .text sql server => .text sql.toCaseless (caseless server)

def ExecStmt.toCaseless (exec : ExecStmt) : ExecStmt where
  span := exec.span
  returnVariable := caseless exec.returnVariable
  target := exec.target.toCaseless
  params := exec.params.map ExecParam.toCaseless

def InsertSource.toCaseless : InsertSource → InsertSource
  | .missing => .missing
  | .values rows => .values (Expr.toCaselessRows rows)
  | .query q => .query q.toCaseless
  | .exec call => .exec call.toCaseless
  | .defaults => .defaults

def InsertStmt.toCaseless (stmt : InsertStmt) : InsertStmt where
  span := stmt.span
  ctes := WithClause.toCaseless? stmt.ctes
  top := TopClause.toCaseless? stmt.top
  target := caseless stmt.target
  columns := caseless stmt.columns
  output := stmt.output.map OutputClause.toCaseless
  source := stmt.source.toCaseless

def UpdateStmt.toCaseless (stmt : UpdateStmt) : UpdateStmt where
  span := stmt.span
  ctes := WithClause.toCaseless? stmt.ctes
  top := TopClause.toCaseless? stmt.top
  target := caseless stmt.target
  sets := stmt.sets.map SetClause.toCaseless
  output := stmt.output.map OutputClause.toCaseless
  source := FromClause.toCaseless? stmt.source
  filter := Expr.toCaseless? stmt.filter

def DeleteStmt.toCaseless (stmt : DeleteStmt) : DeleteStmt where
  span := stmt.span
  ctes := WithClause.toCaseless? stmt.ctes
  top := TopClause.toCaseless? stmt.top
  target := caseless stmt.target
  output := stmt.output.map OutputClause.toCaseless
  source := FromClause.toCaseless? stmt.source
  filter := Expr.toCaseless? stmt.filter

def MergeDo.toCaseless : MergeDo → MergeDo
  | .update sets => .update (sets.map SetClause.toCaseless)
  | .delete => .delete
  | .insert columns values => .insert (caseless columns) (Expr.toCaselessAll values)
  | .insertDefaults columns => .insertDefaults (caseless columns)

def MergeWhen.toCaseless (w : MergeWhen) : MergeWhen where
  span := w.span
  rows := w.rows
  condition := Expr.toCaseless? w.condition
  action := w.action.toCaseless

def MergeStmt.toCaseless (stmt : MergeStmt) : MergeStmt where
  span := stmt.span
  ctes := WithClause.toCaseless? stmt.ctes
  target := caseless stmt.target
  targetAlias := caseless stmt.targetAlias
  source := stmt.source.toCaseless
  on := stmt.on.toCaseless
  whens := stmt.whens.map MergeWhen.toCaseless
  output := stmt.output.map OutputClause.toCaseless

def ParamDef.toCaseless (param : ParamDef) : ParamDef :=
  { param with
    name := caseless param.name, typeName := caseless param.typeName
    default := Expr.toCaseless? param.default }

def ColumnDef.toCaseless (column : ColumnDef) : ColumnDef where
  name := caseless column.name
  typeName := caseless column.typeName
  computed := Expr.toCaseless? column.computed

def VarDecl.toCaseless (decl : VarDecl) : VarDecl where
  span := decl.span
  name := caseless decl.name
  typeName := caseless decl.typeName
  value := Expr.toCaseless? decl.value
  tableColumns := decl.tableColumns.map ColumnDef.toCaseless

def FunctionHeader.toCaseless (header : FunctionHeader) : FunctionHeader where
  alter := header.alter
  name := caseless header.name
  params := header.params.map ParamDef.toCaseless
  returnType := caseless header.returnType
  returnTable := caseless header.returnTable
  tableColumns := header.tableColumns.map ColumnDef.toCaseless

mutual

def Stmt.toCaseless : Stmt → Stmt
  | .missing => .missing
  | .select query => .select query.toCaseless
  | .insert stmt => .insert stmt.toCaseless
  | .update stmt => .update stmt.toCaseless
  | .delete stmt => .delete stmt.toCaseless
  | .merge stmt => .merge stmt.toCaseless
  | .exec stmt => .exec stmt.toCaseless
  | .truncate span table => .truncate span (caseless table)
  | .block span body => .block span (Stmt.toCaselessAll body)
  | .ifElse span cond yes no => .ifElse span cond.toCaseless yes.toCaseless (Stmt.toCaseless? no)
  | .loop span cond body => .loop span cond.toCaseless body.toCaseless
  | .tryCatch span attempt handler => .tryCatch span (Stmt.toCaselessAll attempt) (Stmt.toCaselessAll handler)
  | .createProc span alter name params body =>
    .createProc span alter (caseless name) (params.map ParamDef.toCaseless) (Stmt.toCaselessAll body)
  | .createView span alter name columns query =>
    .createView span alter (caseless name) (caseless columns) query.toCaseless
  | .createFunction span header body => .createFunction span header.toCaseless (Stmt.toCaselessAll body)
  | .createTrigger span alter name table events body =>
    .createTrigger span alter (caseless name) (caseless table)
      (caseless events) (Stmt.toCaselessAll body)
  | .createTable span name columns =>
    .createTable span (caseless name) (columns.map ColumnDef.toCaseless)
  | .declare span vars => .declare span (vars.map VarDecl.toCaseless)
  | .declareCursor span name query => .declareCursor span (caseless name) query.toCaseless
  | .drop span kind names => .drop span (caseless kind) (caseless names)
  | .transaction span action name =>
    .transaction span (caseless action) (caseless name)
  | .return span value query => .return span (Expr.toCaseless? value) (query.map Query.toCaseless)
  | .print span value => .print span value.toCaseless
  | .raise span keyword args => .raise span (caseless keyword) (Expr.toCaselessAll args)
  | .setVariable span variableName op value =>
    .setVariable span (caseless variableName) op (Expr.toCaseless? value)
  | .setOption span option value => .setOption span (caseless option) (caseless value)
  | .cursor span action name into =>
    .cursor span (caseless action) (caseless name) (caseless into)
  | .control span keyword label => .control span (caseless keyword) (caseless label)
  | .use span database => .use span (caseless database)
  | .other span keyword => .other span (caseless keyword)

def Stmt.toCaseless? : Option Stmt → Option Stmt
  | none => none
  | some stmt => some stmt.toCaseless

def Stmt.toCaselessAll : List Stmt → List Stmt
  | [] => []
  | stmt :: rest => stmt.toCaseless :: Stmt.toCaselessAll rest

end

def Batch.toCaseless (batch : Batch) : Batch where
  span := batch.span
  stmts := Stmt.toCaselessAll batch.stmts

def Script.toCaseless (script : Script) : Script where
  span := script.span
  source := caseless script.source
  batches := script.batches.map Batch.toCaseless

/-! ### What a caseless tree tells -/

@[simp] theorem FuncCall.span_toCaseless (fn : FuncCall) : fn.toCaseless.span = fn.span := by
  cases fn
  rfl

@[simp] theorem Expr.span_toCaseless (e : Expr) : e.toCaseless.span = e.span := by
  cases e with
  | call fn => exact fn.span_toCaseless
  | _ => rfl

@[simp] theorem Expr.isMissing_toCaseless (e : Expr) : e.toCaseless.isMissing = e.isMissing := by
  cases e <;> rfl

theorem Expr.length_toCaselessAll (es : List Expr) : (Expr.toCaselessAll es).length = es.length := by
  induction es with
  | nil => rfl
  | cons e rest ih => rw [Expr.toCaselessAll, List.length_cons, List.length_cons, ih]

theorem Expr.length_toCaselessRows (rows : List (List Expr)) :
    (Expr.toCaselessRows rows).map List.length = rows.map List.length := by
  induction rows with
  | nil => rfl
  | cons row rest ih => rw [Expr.toCaselessRows, List.map_cons, List.map_cons, Expr.length_toCaselessAll, ih]

/-- No small letter starts the words that mark the read of a sequence. -/
theorem not_isPrefixOf_caseless (name : String) : sequenceRead.toList.isPrefixOf (caseless name).toList = false := by
  have small (c : Char) : 'N' ≠ c.toLower := by
    intro capital
    have again := Text.toLower_toLower c
    rw [← capital] at again
    exact absurd again (by decide)
  rw [caseless_string, Text.toList_toLower]
  cases name.toList with
  | nil => rfl
  | cons c rest => simp [sequenceRead, List.isPrefixOf, small c]

theorem isPrefixOf_callName (name : String) :
    sequenceRead.toList.isPrefixOf (callName name).toList = sequenceRead.toList.isPrefixOf name.toList := by
  unfold callName
  cases marked : sequenceRead.toList.isPrefixOf name.toList with
  | true => simp [List.isPrefixOf_iff_prefix]
  | false => exact not_isPrefixOf_caseless name

theorem callName_alike (name : String) : Alike name (callName name) := by
  unfold callName
  split
  next marked =>
    obtain ⟨rest, written⟩ := List.isPrefixOf_iff_prefix.mp marked
    have parts : name = sequenceRead ++ String.ofList rest := by
      rw [← String.toList_inj, String.toList_append, String.toList_ofList, written]
    rw [← written, List.drop_left, Alike, parts]
    simp only [caseless_string, Text.toLower_append, Text.toLower_idem]
  next => exact .to_caseless name

theorem FuncCall.name_alike (fn : FuncCall) : Alike fn.name fn.toCaseless.name := by
  cases fn
  exact callName_alike _

@[simp] theorem FuncCall.isSequenceRead_toCaseless (fn : FuncCall) : fn.toCaseless.isSequenceRead = fn.isSequenceRead := by
  cases fn
  exact isPrefixOf_callName _

end ColumnFlow
