import ColumnFlow.Lineage.Query
import ColumnFlow.Syntax.Statement

/-!
# Lineage of statements that write

`INSERT` and the inserting clauses of `MERGE` pair target columns and values by position; what has no partner
is dropped and leaves a gap. Assignments give one edge per column. `DELETE` gives one edge for the whole table.
-/

namespace ColumnFlow

/-- The table that is written when a binding is the target of a statement. -/
def Binding.target (b : Binding) : Target :=
  match b.source.kind with
  | .plain => { schema := b.source.schema, table := b.source.name }
  | .common => { table := b.source.name }
  | .derived => { table := b.source.visibleName }

/-- The edge that removes rows of the target. -/
def removalEdge (target : Target) (line : Nat) : Edge :=
  { kind := .delete, target, column := wildcardColumn, value := .removal .bare, line }

/-- Edges that write constants to columns of the target. -/
def literalEdges (kind : StatementKind) (target : Target) (columns : List String) (tag : String)
    (line : Nat) : List Edge :=
  columns.map fun column => { kind, target, column, value := .literal (.named tag), line }

variable (env : Env)

/-! ### Pairing -/

/-- The written column list, else the known columns of the table. -/
def insertTargets (name : ObjectName) (columns : List ColumnRef) : List String :=
  if columns.isEmpty then (env.columns (env.target name)).getD [] else columns.map (·.column)

/-- Emit one edge for each target column and the column at the same position. -/
def pairColumns (targets : List String) (columns : List Column) (line : Nat)
    (edge : String → Column → Edge) : Traced Unit := do
  if targets.length != columns.length then
    env.gap line (.columnMismatch targets.length columns.length)
  env.emitAll (List.zipWith edge targets columns)

/-- Pair the columns of a query with the target columns, which are named after them if they are not known. -/
def insertQuery (target : Target) (targets : List String) (columns : List Column) (line : Nat) :
    Traced Unit := do
  if columns.any (·.isWildcard) then
    env.emitAll ((columns.filter (·.isWildcard)).map (·.edge .insert target wildcardColumn))
    env.gap line .unexpandedWildcard
  else
    let targets := if targets.isEmpty then columns.map (·.name) else targets
    if targets.isEmpty then env.gap line .unknownTargets
    else pairColumns env targets columns line fun name c => c.edge .insert target name

/-! ### OUTPUT -/

/-- The target of a statement as `inserted` or `deleted` in its `OUTPUT` clause. -/
def pseudoTable (b : Binding) (name : String) : Binding :=
  { b with key := Text.fold name, source := { b.source with aliasName := name }, hidden := false }

/-- `OUTPUT` writes to its table, or is a result set. -/
def outputColumns (clause : OutputClause) (target : Binding) (outer : Scope) : Traced Unit := do
  let s := (outer.child.bind (pseudoTable target "inserted")).bind (pseudoTable target "deleted")
  let columns := Column.uniqueNames (← itemColumns env clause.columns 1 s)
  match clause.into with
  | none => env.emitAll (Column.edges .select env.ownerTarget columns)
  | some into =>
    let listed := insertTargets env into clause.intoColumns
    let targets := if listed.isEmpty then (Column.names? columns).getD [] else listed
    pairColumns env targets columns clause.span.start.line fun name c => c.edge .insert (env.target into) name

def outputColumns? (clause : Option OutputClause) (target : Binding) (outer : Scope) : Traced Unit :=
  match clause with
  | none => return
  | some clause => outputColumns env clause target outer

/-! ### INSERT -/

/-- What an `EXEC` runs, as a tag. -/
def ExecStmt.tag (exec : ExecStmt) : String :=
  match exec.target with
  | .procedure name => "EXEC " ++ name.text
  | .localVar name => "EXEC " ++ name
  | .text .. => "EXEC (...)"

/-- A gap for each row whose length differs from the number of target columns. -/
def rowGaps (targets : Nat) (line : Nat) (rows : List (List Expr)) : Traced Unit :=
  .recordAll <| rows.zipIdx.filterMap fun (row, i) =>
    if row.length == targets then none
    else some (.gap { statement := env.statement, line, cause := .rowMismatch (i + 1) targets row.length })

def insertStmt (stmt : InsertStmt) : Traced Unit := do
  let s ← defineCommon? env stmt.ctes env.commons
  let target := env.target stmt.target
  let targets := insertTargets env stmt.target stmt.columns
  let line := stmt.span.start.line
  match stmt.source with
  | .missing => pure ()
  | .query query =>
    let columns ← queryColumns env query s
    insertQuery env target targets columns line
  | .values rows =>
    if targets.isEmpty then env.gap line .valuesWithoutColumns
    else
      rowGaps env targets.length line rows
      env.emitAll (literalEdges .insert target targets "VALUES(...)" line)
  | .exec exec =>
    if targets.isEmpty then env.gap line .execWithoutColumns
    else
      env.emitAll <| targets.map fun column =>
        { kind := .insert, target, column, value := .dynamic (.named exec.tag), line }
  | .defaults => env.emitAll (literalEdges .insert target targets "DEFAULT VALUES" line)
  outputColumns? env stmt.output (env.plainBinding stmt.target "") s

/-! ### UPDATE and DELETE -/

/-- The scope of an `UPDATE` or `DELETE` and its target in it. A target that names a table of the `FROM`
clause is that table. Any other is bound under its own name, and beside a `FROM` clause it owns no unqualified
column. -/
def bindTarget (name : ObjectName) (clause : Option FromClause) (outer : Scope) :
    Traced (Scope × Binding) := do
  let s ← bindSource? env clause outer.child
  let other := { env.tableBinding name "" s with hidden := clause.isSome }
  match s.lookup (Text.fold name.name) with
  | some b =>
    if name.database == "" && (name.schema == "" || Text.fold name.schema == Text.fold b.source.schema) then
      return (s, b)
    else return (s.bind other, other)
  | none => return (s.bind other, other)

/-- The edge of one assignment to a column. A compound assignment also reads the column it writes. -/
def assignEdge (kind : StatementKind) (target : Target) (b : Binding) (set : SetClause) (s : Scope) :
    Traced (Option Edge) :=
  match set.column with
  | none => return none
  | some ref => do
    let read ← exprSources env set.value s
    let (op, read) :=
      if set.op.isCompoundAssign then
        (set.op, { columns := b.read ref.column :: read.columns
                   transform := .named (set.op.text ++ " " ++ read.transform.inner.text) : Sources })
      else (Symbol.eq, read)
    return some
      { kind, target, column := ref.column
        value := .computed (SourceColumn.distinct read.columns) read.transform
        operator := some op, line := set.span.start.line }

/-- The edges of assignments, in order, each passed through `finish`. -/
def assignAll (kind : StatementKind) (target : Target) (b : Binding) (s : Scope) (finish : Edge → Edge) :
    List SetClause → Traced Unit
  | [] => return
  | set :: rest => do
    let edge ← assignEdge env kind target b set s
    env.emitAll (edge.toList.map finish)
    assignAll kind target b s finish rest

def updateStmt (stmt : UpdateStmt) : Traced Unit := do
  let outer ← defineCommon? env stmt.ctes env.commons
  let (s, b) ← bindTarget env stmt.target stmt.source outer
  assignAll env .update b.target b s id stmt.sets
  outputColumns? env stmt.output b s

def deleteStmt (stmt : DeleteStmt) : Traced Unit := do
  let outer ← defineCommon? env stmt.ctes env.commons
  let (s, b) ← bindTarget env stmt.target stmt.source outer
  env.emit (removalEdge b.target stmt.span.start.line)
  outputColumns? env stmt.output b s

def truncateStmt (line : Nat) (table : ObjectName) : Traced Unit :=
  env.emit { removalEdge (env.target table) line with value := .removal (.named "TRUNCATE") }

/-! ### MERGE -/

/-- When a clause applies; a condition of its own goes before all else. -/
def MergeWhen.appliesWhen (w : MergeWhen) : MergeCondition :=
  if w.condition.isSome then .conditional
  else match w.action, w.rows with
    | .insertDefaults _, _ => .default
    | _, .notMatchedBySource => .notMatchedBySource
    | _, .notMatchedByTarget => .notMatched
    | _, .matched => .matched

/-- What a clause can see. A row that no source row matches has only the target; one that no target row
matches has only the source for unqualified columns. -/
def MergeWhen.scope (w : MergeWhen) (s outer : Scope) (target : Binding) : Scope :=
  match w.rows with
  | .matched => s
  | .notMatchedBySource => outer.child.bind target
  | .notMatchedByTarget => s.bind { target with hidden := true }

/-- The columns that the values of an inserting clause stand for. A value that is missing has no line. -/
def valueColumns (s : Scope) : List Expr → Traced (Option (List Column))
  | [] => return some []
  | value :: rest => do
    let read ← exprSources env value s
    if value.isMissing then return none
    else
      let later ← valueColumns s rest
      return later.map fun cs => { name := "", value := .reads read, line := value.span.start.line } :: cs

/-- Values that are a constant or a variable count as constants. -/
def Edge.asLiteral (e : Edge) : Edge :=
  match e.value with
  | .computed [] .literal => { e with value := .literal .literal }
  | .computed [] .localVar => { e with value := .literal .localVar }
  | _ => e

/-- An inserting clause with values. -/
def mergeInsert (target : Target) (columns : List ColumnRef) (values : List Expr) (line : Nat) (s : Scope)
    (finish : Edge → Edge) : Traced Unit := do
  let targets := if columns.isEmpty then (env.columns target).getD [] else columns.map (·.column)
  if targets.isEmpty then env.gap line .mergeInsertWithoutColumns
  else
    match ← valueColumns env s values with
    | none => env.gap line .missingValue
    | some cs => pairColumns env targets cs line fun name c => finish (c.edge .merge target name).asLiteral

def mergeClause (target : Binding) (s outer : Scope) (w : MergeWhen) : Traced Unit :=
  let tgt := target.target
  let line := w.span.start.line
  let scope := w.scope s outer target
  let mark (action : MergeAction) (e : Edge) : Edge := { e with merge := some (action, w.appliesWhen) }
  match w.action with
  | .update sets => assignAll env .merge tgt target scope (mark .update) sets
  | .delete => env.emit (mark .delete (removalEdge tgt line))
  | .insert columns values => mergeInsert env tgt columns values line scope (mark .insert)
  | .insertDefaults columns =>
    let targets := if columns.isEmpty then (env.columns tgt).getD [] else columns.map (·.column)
    env.emitAll ((literalEdges .merge tgt targets "DEFAULT VALUES" line).map (mark .insert))

def mergeClauses (target : Binding) (s outer : Scope) : List MergeWhen → Traced Unit
  | [] => return
  | w :: rest => do
    mergeClause env target s outer w
    mergeClauses target s outer rest

def mergeStmt (stmt : MergeStmt) : Traced Unit := do
  let outer ← defineCommon? env stmt.ctes env.commons
  let target := env.tableBinding stmt.target stmt.targetAlias outer
  let s ← bindTable env stmt.source (outer.child.bind target)
  mergeClauses env target s outer stmt.whens
  outputColumns? env stmt.output target s

end ColumnFlow
