import ColumnFlow.Lineage.Extract
import ColumnFlow.Proofs.CaselessQueries

/-!
# Statements up to case

Statements that write find their targets in scopes and by their names, and pair columns by position. Two runs over
statements that differ in the case of letters leave alike events, and see alike tables afterwards, so whole batches
go on in step.
-/

namespace ColumnFlow

/-! ### Edges that are written -/

theorem Binding.target_alike {b b' : Binding} (tables : Alike b b') : Alike b.target b'.target := by
  have commutes (b : Binding) : caseless b.target = (caseless b).target := by
    have named (table : String) : caseless (Target.mk "" table) = Target.mk "" (caseless table) := by
      change Target.mk (caseless "") _ = _
      rw [caseless_empty]
    obtain ⟨_, ⟨name, schema, database, aliasName, kind⟩, _, _⟩ := b
    cases kind with
    | plain => rfl
    | common => exact named name
    | derived => exact (named _).trans (congrArg (Target.mk "") (TableSource.visibleName_caseless _).symm)
  rw [Alike, commutes, commutes, tables]

variable {target target' : Target}

theorem removalEdge_alike (targets : Alike target target') (line : Nat) :
    Alike (removalEdge target line) (removalEdge target' line) := Edge.alike targets rfl rfl

theorem literalEdges_alike (kind : StatementKind) (targets : Alike target target')
    {columns columns' : List String} (names : Alike columns columns') (tag : String) (line : Nat) :
    Alike (literalEdges kind target columns tag line) (literalEdges kind target' columns' tag line) :=
  names.map fun same => Edge.alike targets same rfl

theorem ObjectName.text_alike {o o' : ObjectName} (names : Alike o o') : Alike o.text o'.text := by
  have server : Alike o.server o'.server := congrArg ObjectName.server names
  have database : Alike o.database o'.database := congrArg ObjectName.database names
  have schema : Alike o.schema o'.schema := congrArg ObjectName.schema names
  have name : Alike o.name o'.name := congrArg ObjectName.name names
  have qualified : Alike (if o.schema == "" then o.name else o.schema ++ "." ++ o.name)
      (if o'.schema == "" then o'.name else o'.schema ++ "." ++ o'.name) := by
    rw [schema.beq_empty]
    split
    · exact name
    · exact (schema.concat (.refl ".")).concat name
  unfold ObjectName.text
  dsimp only
  generalize (if o.schema == "" then o.name else o.schema ++ "." ++ o.name) = short at qualified ⊢
  generalize (if o'.schema == "" then o'.name else o'.schema ++ "." ++ o'.name) = short' at qualified ⊢
  rw [server.beq_empty, database.beq_empty, schema.beq_empty]
  split <;> split
  · exact qualified
  · split
    · exact (database.concat (.refl "..")).concat qualified
    · exact (database.concat (.refl ".")).concat qualified
  · exact (server.concat (.refl ".")).concat qualified
  · refine (server.concat (.refl ".")).concat ?_
    split
    · exact (database.concat (.refl "..")).concat qualified
    · exact (database.concat (.refl ".")).concat qualified

theorem ExecStmt.tag_alike (exec : ExecStmt) : Alike exec.tag exec.toCaseless.tag := by
  obtain ⟨_, _, target, _⟩ := exec
  cases target with
  | procedure name => exact Alike.concat (.refl _) (ObjectName.text_alike (.to_caseless name))
  | localVar name => exact Alike.concat (.refl _) (.to_caseless name)
  | text => rfl

theorem Edge.asLiteral_alike {e e' : Edge} (same : Alike e e') : Alike e.asLiteral e'.asLiteral := by
  have commutes (e : Edge) : caseless e.asLiteral = (caseless e).asLiteral := by
    obtain ⟨_, _, _, value⟩ := e
    match value with
    | .computed [] transform => cases transform <;> rfl
    | .computed (_ :: _) _ | .wildcard _ | .literal _ | .dynamic _ | .removal _ => rfl
  rw [Alike, commutes, commutes, same]

theorem Alike.edge {c d : Column} (columns : Alike c d) (kind : StatementKind)
    (targets : Alike target target') {name name' : String} (names : Alike name name') :
    Alike (c.edge kind target name) (d.edge kind target' name') := by
  rw [Alike, Column.edge_caseless, Column.edge_caseless, columns, targets, names]

theorem pseudoTable_alike {b b' : Binding} (tables : Alike b b') (name : String) :
    Alike (pseudoTable b name) (pseudoTable b' name) := by
  have source : Alike b.source b'.source := congrArg Binding.source tables
  exact Binding.alike rfl (TableSource.alike (congrArg TableSource.name source) (congrArg TableSource.schema source)
      (congrArg TableSource.database source) (.refl name) (congrArg TableSource.kind source))
    (congrArg Binding.columns tables) false

/-! ### Pairing -/

theorem MergeWhen.appliesWhen_toCaseless (w : MergeWhen) : w.toCaseless.appliesWhen = w.appliesWhen := by
  obtain ⟨_, rows, condition, action⟩ := w
  cases condition <;> cases action <;> cases rows <;> rfl

theorem MergeWhen.scope_alike (w : MergeWhen) {s s' outer outer' : Scope} {b b' : Binding} (scopes : Alike s s')
    (outers : Alike outer outer') (tables : Alike b b') :
    Alike (w.scope s outer b) (w.toCaseless.scope s' outer' b') := by
  obtain ⟨_, rows, _, _⟩ := w
  cases rows with
  | matched => exact scopes
  | notMatchedBySource => exact outers.child.bound tables
  | notMatchedByTarget =>
    exact scopes.bound (Binding.alike (congrArg Binding.key tables) (congrArg Binding.source tables)
      (congrArg Binding.columns tables) true)

theorem ColumnDef.names_alike (columns : List ColumnDef) :
    Alike (columns.map (·.name)) ((columns.map ColumnDef.toCaseless).map (·.name)) := by
  have names : (columns.map ColumnDef.toCaseless).map (·.name) = caseless (columns.map (·.name)) := by
    change _ = (columns.map _).map caseless
    rw [List.map_map, List.map_map]
    rfl
  rw [names]
  exact .to_caseless _

theorem SelectBody.head_into_toCaseless (body : SelectBody) : body.toCaseless.head.into = caseless body.head.into := by
  obtain ⟨_, core⟩ | ⟨_, core⟩ := body <;> cases core <;> rfl

namespace Env.Agrees

variable {env env' : Env} (envs : env.Agrees env')

include envs

theorem emit {e e' : Edge} (same : Alike e e') : Alike (env.emit e) (env'.emit e') := envs.emitAll same.single

theorem gap (line : Nat) (cause : GapCause) : Alike (env.gap line cause) (env'.gap line cause) := by
  rw [Env.gap, Env.gap, envs.statement]
  rfl

/-- The columns of a list that is written, else those of a table. -/
theorem targetColumns {t t' : Target} (tables : Alike t t') (columns : List ColumnRef) :
    Alike (if columns.isEmpty then (env.columns t).getD [] else columns.map (·.column))
      (if (caseless columns).isEmpty then (env'.columns t').getD [] else (caseless columns).map (·.column)) := by
  rw [isEmpty_caseless]
  split
  · exact (envs.columns tables).getD []
  · exact (Alike.to_caseless columns).map fun same => congrArg ColumnRef.column same

theorem insertTargets (name : ObjectName) (columns : List ColumnRef) :
    Alike (insertTargets env name columns) (insertTargets env' (caseless name) (caseless columns)) :=
  envs.targetColumns (envs.target (.to_caseless name)) columns

theorem pairColumns {targets targets' : List String} {columns columns' : List Column}
    (names : Alike targets targets') (values : Alike columns columns') (line : Nat)
    {edge edge' : String → Column → Edge}
    (edges : ∀ {n n' c c'}, Alike n n' → Alike c c' → Alike (edge n c) (edge' n' c')) :
    Alike (pairColumns env targets columns line edge) (pairColumns env' targets' columns' line edge') := by
  have paired := envs.emitAll (names.zipWith edges values)
  unfold ColumnFlow.pairColumns
  rw [names.length, values.length]
  split
  · exact (envs.gap _ _).bind fun _ _ _ => paired
  · exact paired

variable {target target' : Target} {b b' : Binding} {s s' : Scope}

/-- How the columns are paired depends on their number and on stars among them. -/
theorem insertQuery {targets targets' : List String}
    {columns columns' : List Column} (tables : Alike target target') (names : Alike targets targets')
    (values : Alike columns columns') (line : Nat) :
    Alike (insertQuery env target targets columns line) (insertQuery env' target' targets' columns' line) := by
  have wildcards : columns.any (·.isWildcard) = columns'.any (·.isWildcard) :=
    values.apply fun cs => (Column.any_isWildcard_caseless cs).symm
  have paired : Alike (if targets.isEmpty then columns.map (·.name) else targets)
      (if targets'.isEmpty then columns'.map (·.name) else targets') := by
    rw [names.isEmpty]
    split
    · exact values.map fun same => congrArg Column.name same
    · exact names
  unfold ColumnFlow.insertQuery
  dsimp only
  rw [wildcards]
  split
  · have stars := values.filter Column.isWildcard_caseless
    exact (envs.emitAll (stars.map fun same => same.edge .insert tables (.refl _))).bind fun _ _ _ => envs.gap _ _
  · generalize (if targets.isEmpty then columns.map (·.name) else targets) = pairs at paired ⊢
    generalize (if targets'.isEmpty then columns'.map (·.name) else targets') = pairs' at paired ⊢
    rw [paired.isEmpty]
    split
    · exact envs.gap _ _
    · exact envs.pairColumns paired values line fun name column => column.edge .insert tables name

theorem outputColumns? (clause : Option OutputClause) (tables : Alike b b') (scopes : Alike s s') :
    Alike (outputColumns? env clause b s) (outputColumns? env' (clause.map OutputClause.toCaseless) b' s') := by
  match clause with
  | none => exact rfl
  | some ⟨span, items, into, intoColumns⟩ =>
    have inside := (scopes.child.bound (pseudoTable_alike tables "inserted")).bound (pseudoTable_alike tables "deleted")
    refine (envs.itemColumns items 1 inside).bind fun cs ds projected => ?_
    have columns := Column.uniqueNames_alike projected
    match into with
    | none => exact envs.emitAll (columns.edges envs.ownerTarget)
    | some into =>
      have listed := envs.insertTargets into intoColumns
      refine envs.pairColumns ?_ columns span.start.line
        fun name column => column.edge .insert (envs.target (.to_caseless into)) name
      change Alike (if (ColumnFlow.insertTargets env into intoColumns).isEmpty then _ else _)
        (if (ColumnFlow.insertTargets env' (caseless into) (caseless intoColumns)).isEmpty then _ else _)
      rw [listed.isEmpty]
      split
      · exact columns.names?.getD []
      · exact listed

theorem rowGaps (targets line : Nat) (rows : List (List Expr)) :
    Alike (rowGaps env targets line rows) (rowGaps env' targets line (Expr.toCaselessRows rows)) := by
  have ofLengths (env : Env) (rows : List (List Expr)) :
      ColumnFlow.rowGaps env targets line rows = .recordAll ((rows.map List.length).zipIdx.filterMap fun row =>
        if row.1 == targets then none
        else some (.gap { statement := env.statement, line, cause := .rowMismatch (row.2 + 1) targets row.1 })) := by
    rw [ColumnFlow.rowGaps, List.zipIdx_map, List.filterMap_map]
    rfl
  rw [ofLengths, ofLengths, Expr.length_toCaselessRows, envs.statement]
  rfl

/-- What `INSERT` does before its `OUTPUT` clause. -/
theorem insertStmt (stmt : InsertStmt) : Alike (insertStmt env stmt) (insertStmt env' stmt.toCaseless) := by
  obtain ⟨span, ctes, top, target, columns, output, source⟩ := stmt
  refine (envs.defineCommon? ctes envs.commons).bind fun s s' scopes => ?_
  have result := envs.outputColumns? output (envs.plainBinding (.to_caseless target) (.refl "")) scopes
  have table := envs.target (.to_caseless target)
  have targets := envs.insertTargets target columns
  dsimp only [InsertStmt.toCaseless]
  cases source with
  | missing => exact result
  | query query =>
    exact (envs.queryColumns query scopes).bind fun _ _ values =>
      (envs.insertQuery table targets values _).bind fun _ _ _ => result
  | values rows =>
    dsimp only [InsertSource.toCaseless]
    rw [targets.isEmpty, targets.length]
    split
    · exact (envs.gap _ _).bind fun _ _ _ => result
    · exact (envs.rowGaps _ _ rows).bind fun _ _ _ =>
        (envs.emitAll (literalEdges_alike .insert table targets _ _)).bind fun _ _ _ => result
  | exec exec =>
    dsimp only [InsertSource.toCaseless]
    rw [targets.isEmpty]
    split
    · exact (envs.gap _ _).bind fun _ _ _ => result
    · have value : Alike (EdgeValue.dynamic (.named exec.tag)) (.dynamic (.named exec.toCaseless.tag)) :=
        congrArg (fun tag => EdgeValue.dynamic (.named tag)) exec.tag_alike
      exact (envs.emitAll (targets.map fun column => Edge.alike table column value)).bind fun _ _ _ => result
  | defaults => exact (envs.emitAll (literalEdges_alike .insert table targets _ _)).bind fun _ _ _ => result

/-! ### UPDATE and DELETE -/

/-- The target is looked for among the bound tables, by its folded name, and bound anew when it is not there. -/
theorem bindTarget (name : ObjectName) (clause : Option FromClause) (scopes : Alike s s') :
    Alike (bindTarget env name clause s) (bindTarget env' (caseless name) (FromClause.toCaseless? clause) s') := by
  refine (envs.bindSource? clause scopes.child).bind fun t t' inside => ?_
  have other : Alike { env.tableBinding name "" t with hidden := clause.isSome }
      { env'.tableBinding (caseless name) "" t' with hidden := (FromClause.toCaseless? clause).isSome } := by
    have bound := envs.tableBinding (.to_caseless name) (.refl "") inside
    have same : (FromClause.toCaseless? clause).isSome = clause.isSome := by cases clause <;> rfl
    rw [same]
    exact Binding.alike (congrArg Binding.key bound) (congrArg Binding.source bound) (congrArg Binding.columns bound) _
  have key : Text.fold (caseless name).name = Text.fold name.name := fold_caseless name.name
  have database : ((caseless name).database == "") = (name.database == "") := beq_empty_caseless name.database
  have schema : ((caseless name).schema == "") = (name.schema == "") := beq_empty_caseless name.schema
  have schemaKey : Text.fold (caseless name).schema = Text.fold name.schema := fold_caseless name.schema
  dsimp only
  rw [key, database, schema, schemaKey]
  obtain ⟨none, none'⟩ | ⟨b, b', some, some', same⟩ := (inside.lookup (Text.fold name.name)).option_cases
  · rw [none, none']
    exact .pure ((inside.bound other).pair other)
  · have bound : Alike b.source.schema b'.source.schema := congrArg (fun b : Binding => b.source.schema) same
    rw [some, some']
    dsimp only
    rw [bound.fold]
    split
    · exact .pure (inside.pair same)
    · exact .pure ((inside.bound other).pair other)

theorem assignEdge (kind : StatementKind) (targets : Alike target target')
 (tables : Alike b b') (set : SetClause) (scopes : Alike s s') :
    Alike (assignEdge env kind target b set s) (assignEdge env' kind target' b' set.toCaseless s') := by
  obtain ⟨span, column, variableName, op, value⟩ := set
  match column with
  | none => exact rfl
  | some ref =>
    have column : Alike ref.column (caseless ref).column := .to_caseless ref.column
    refine (envs.exprSources value scopes).bind fun r r' read => ?_
    dsimp only [SetClause.toCaseless]
    by_cases compound : op.isCompoundAssign = true
    · simp only [compound, if_true]
      have first : Alike (b.read ref.column) (b'.read (caseless ref).column) := by
        rw [Alike, Binding.read_caseless, Binding.read_caseless, tables, column]
      have text := Transform.text_alike read.transform.inner
      have transform := ((Alike.refl op.text).concat (.refl " ")).concat text
      exact .pure (Edge.alike targets column ((first.cons read.columns).computed transform.toNamed)).some
    · simp only [compound, Bool.false_eq_true, if_false]
      exact .pure (Edge.alike targets column (read.columns.computed read.transform)).some

theorem assignAll (kind : StatementKind) (targets : Alike target target')
 (tables : Alike b b') (scopes : Alike s s') {finish finish' : Edge → Edge}
    (finished : ∀ {e e'}, Alike e e' → Alike (finish e) (finish' e')) (sets : List SetClause) :
    Alike (assignAll env kind target b s finish sets)
      (assignAll env' kind target' b' s' finish' (sets.map SetClause.toCaseless)) := by
  induction sets with
  | nil => exact rfl
  | cons set rest ih =>
    exact (envs.assignEdge kind targets tables set scopes).bind fun _ _ edge =>
      (envs.emitAll (edge.toList.map finished)).bind fun _ _ _ => ih

theorem updateStmt (stmt : UpdateStmt) : Alike (updateStmt env stmt) (updateStmt env' stmt.toCaseless) := by
  refine (envs.defineCommon? stmt.ctes envs.commons).bind fun _ _ outer =>
    (envs.bindTarget stmt.target stmt.source outer).bind fun p p' bound => ?_
  have scopes : Alike p.1 p'.1 := congrArg Prod.fst bound
  have tables : Alike p.2 p'.2 := congrArg Prod.snd bound
  exact (envs.assignAll .update (Binding.target_alike tables) tables scopes id stmt.sets).bind fun _ _ _ =>
    envs.outputColumns? stmt.output tables scopes

theorem deleteStmt (stmt : DeleteStmt) : Alike (deleteStmt env stmt) (deleteStmt env' stmt.toCaseless) := by
  refine (envs.defineCommon? stmt.ctes envs.commons).bind fun _ _ outer =>
    (envs.bindTarget stmt.target stmt.source outer).bind fun p p' bound => ?_
  have scopes : Alike p.1 p'.1 := congrArg Prod.fst bound
  have tables : Alike p.2 p'.2 := congrArg Prod.snd bound
  exact (envs.emit (removalEdge_alike (Binding.target_alike tables) _)).bind fun _ _ _ =>
    envs.outputColumns? stmt.output tables scopes

theorem truncateStmt (line : Nat) (table : ObjectName) :
    Alike (truncateStmt env line table) (truncateStmt env' line (caseless table)) :=
  envs.emit (Edge.alike (envs.target (.to_caseless table)) rfl rfl)

/-! ### MERGE -/

theorem valueColumns (scopes : Alike s s') (values : List Expr) :
    Alike (valueColumns env s values) (valueColumns env' s' (Expr.toCaselessAll values)) := by
  induction values with
  | nil => exact rfl
  | cons value rest ih =>
    rw [Expr.toCaselessAll, ColumnFlow.valueColumns, ColumnFlow.valueColumns, Expr.span_toCaseless,
      Expr.isMissing_toCaseless]
    refine (envs.exprSources value scopes).bind fun _ _ read => ?_
    split
    · exact rfl
    · refine ih.bind fun _ _ later => ?_
      obtain ⟨rfl, rfl⟩ | ⟨_, _, rfl, rfl, columns⟩ := later.option_cases
      · exact rfl
      · exact .pure ((Column.alike rfl read.toValue _ _).cons columns).some

theorem mergeInsert (targets : Alike target target') (columns : List ColumnRef)
    (values : List Expr) (line : Nat) (scopes : Alike s s') {finish finish' : Edge → Edge}
    (finished : ∀ {e e'}, Alike e e' → Alike (finish e) (finish' e')) :
    Alike (mergeInsert env target columns values line s finish)
      (mergeInsert env' target' (caseless columns) (Expr.toCaselessAll values) line s' finish') := by
  have paired := envs.targetColumns targets columns
  unfold ColumnFlow.mergeInsert
  dsimp only
  generalize (if columns.isEmpty then (env.columns target).getD [] else columns.map (·.column)) = names at paired ⊢
  generalize (if (caseless columns).isEmpty then (env'.columns target').getD []
    else (caseless columns).map (·.column)) = names' at paired ⊢
  rw [paired.isEmpty]
  split
  · exact envs.gap _ _
  · refine (envs.valueColumns scopes values).bind fun _ _ found => ?_
    obtain ⟨rfl, rfl⟩ | ⟨_, _, rfl, rfl, cs⟩ := found.option_cases
    · exact envs.gap _ _
    · exact envs.pairColumns paired cs line fun name column =>
        finished (Edge.asLiteral_alike (column.edge .merge targets name))

/-- By what the clause does with the row. -/
theorem mergeClause (tables : Alike b b') {s s' outer outer' : Scope} (scopes : Alike s s')
    (outers : Alike outer outer') (w : MergeWhen) :
    Alike (mergeClause env b s outer w) (mergeClause env' b' s' outer' w.toCaseless) := by
  have target := Binding.target_alike tables
  have inside := MergeWhen.scope_alike w scopes outers tables
  have marked {action : MergeAction} {e e' : Edge} (same : Alike e e') :
      Alike { e with merge := some (action, w.appliesWhen) }
        { e' with merge := some (action, w.toCaseless.appliesWhen) } := by
    rw [w.appliesWhen_toCaseless]
    exact congrArg (fun e : Edge => { e with merge := some (action, w.appliesWhen) }) same
  obtain ⟨span, rows, condition, action⟩ := w
  cases action with
  | update sets => exact envs.assignAll .merge target tables inside marked sets
  | delete => exact envs.emit (marked (removalEdge_alike target _))
  | insert columns values =>
    unfold ColumnFlow.mergeClause
    exact envs.mergeInsert target columns values _ inside marked
  | insertDefaults columns =>
    exact envs.emitAll ((literalEdges_alike .merge target (envs.targetColumns target columns) _ _).map marked)

theorem mergeClauses (tables : Alike b b') {s s' outer outer' : Scope} (scopes : Alike s s')
    (outers : Alike outer outer') (whens : List MergeWhen) :
    Alike (mergeClauses env b s outer whens) (mergeClauses env' b' s' outer' (whens.map MergeWhen.toCaseless)) := by
  induction whens with
  | nil => exact rfl
  | cons w rest ih => exact (envs.mergeClause tables scopes outers w).bind fun _ _ _ => ih

theorem mergeStmt (stmt : MergeStmt) : Alike (mergeStmt env stmt) (mergeStmt env' stmt.toCaseless) := by
  refine (envs.defineCommon? stmt.ctes envs.commons).bind fun s s' outer => ?_
  have tables := envs.tableBinding (.to_caseless stmt.target) (.to_caseless stmt.targetAlias) outer
  exact (envs.bindTable stmt.source (outer.child.bound tables)).bind fun _ _ scopes =>
    (envs.mergeClauses tables scopes outer stmt.whens).bind fun _ _ _ => envs.outputColumns? stmt.output tables scopes

/-! ### Statements -/

theorem remember {name name' : ObjectName} (names : Alike name name') {columns columns' : List String}
    (same : Alike columns columns') : Alike (env.remember name columns) (env'.remember name' columns') := by
  unfold Env.remember
  rw [same.isEmpty, Env.tableKey_alike (envs.target names)]
  split
  · exact rfl
  · exact Alike.record (congrArg (Event.table _) same)

theorem selectStmt (query : Query) : Alike (selectStmt env query) (selectStmt env' query.toCaseless) := by
  obtain ⟨span, ctes, body, orderBy, offset, fetch, forMode⟩ := query
  refine (envs.queryColumns _ envs.commons).bind fun cs ds columns => ?_
  have into := body.head_into_toCaseless
  dsimp only [Query.toCaseless]
  rw [into]
  cases body.head.into with
  | none => exact envs.emitAll (columns.edges envs.ownerTarget)
  | some table =>
    have edges := envs.emitAll (columns.edges (envs.target (.to_caseless table)))
    dsimp only [caseless_some]
    obtain ⟨none, none'⟩ | ⟨names, names', some, some', same⟩ := columns.names?.option_cases
    · rw [none, none']
      exact edges
    · rw [some, some']
      exact (envs.remember (.to_caseless table) same).bind fun _ _ _ => edges

theorem queryInto (targets : Alike target target') (query : Query) (names : List String) :
    Alike (queryInto env target query names) (queryInto env' target' query.toCaseless (caseless names)) :=
  (envs.queryColumns query envs.commons).bind fun _ _ columns => envs.emitAll ((columns.rename names).edges targets)

theorem declareTables (vars : List VarDecl) :
    Alike (declareTables env vars) (declareTables env' (vars.map VarDecl.toCaseless)) := by
  induction vars with
  | nil => exact rfl
  | cons decl rest ih =>
    have name : Alike { name := decl.name : ObjectName } { name := decl.toCaseless.name } :=
      ObjectName.alike_local decl.name
    exact (envs.remember name (ColumnDef.names_alike decl.tableColumns)).bind fun _ _ _ => ih

/-- By the kind of statement. -/
theorem stmtEvents (stmt : Stmt) : Alike (stmtEvents env stmt) (stmtEvents env' stmt.toCaseless) := by
  have object (name : ObjectName) : Alike (Traced.record (.object name.text)) (.record (.object (caseless name).text)) :=
    .record (congrArg Event.object (ObjectName.text_alike (.to_caseless name)))
  match stmt with
  | .select query => exact envs.selectStmt query
  | .insert s => exact envs.insertStmt s
  | .update s => exact envs.updateStmt s
  | .merge s => exact envs.mergeStmt s
  | .delete s => exact envs.deleteStmt s
  | .truncate span table => exact envs.truncateStmt span.start.line table
  | .createView _ _ name columns query =>
    exact (object name).bind fun _ _ _ => envs.queryInto (envs.target (.to_caseless name)) query columns
  | .createProc _ _ name _ _ | .createTrigger _ _ name _ _ _ => exact object name
  | .createFunction _ header _ =>
    refine (object header.name).bind fun _ _ _ => ?_
    change Alike (if header.returnTable != "" then _ else _) (if caseless header.returnTable != "" then _ else _)
    rw [bne_empty_caseless]
    split
    · exact envs.remember (ObjectName.alike_local header.returnTable) (ColumnDef.names_alike header.tableColumns)
    · exact rfl
  | .return _ _ (some query) => exact envs.queryInto envs.ownerTarget query []
  | .declareCursor _ name query => exact envs.queryInto (Target.alike rfl (.to_caseless name)) query []
  | .declare _ vars => exact envs.declareTables vars
  | .createTable _ name columns => exact envs.remember (.to_caseless name) (ColumnDef.names_alike columns)
  | .missing | .exec _ | .block .. | .ifElse .. | .loop .. | .tryCatch .. | .drop .. | .transaction ..
  | .return _ _ none | .print .. | .raise .. | .setVariable .. | .setOption .. | .cursor .. | .control ..
  | .use .. | .other .. => exact rfl

/-! ### Runs -/

/-- What an event makes known, it makes known under a folded name. -/
theorem step {event event' : Event} (same : Alike event event') :
    (Env.after.step env event).Agrees (Env.after.step env' event') := by
  cases event <;> cases event' <;> first | exact envs | exact Event.noConfusion same | skip
  case table.table key columns key' columns' =>
    obtain ⟨keys, known⟩ := Event.table.inj same
    refine { envs with tables := ?_ }
    change (key, caseless columns) :: _ = (key', caseless columns') :: _
    rw [keys, known, envs.tables]
  case common.common d d' => exact { envs with commons := envs.commons.define (Event.common.inj same) }

/-- Alike events make alike tables known. -/
theorem after {events events' : List Event} (same : Alike events events') :
    (env.after events).Agrees (env'.after events') := by
  induction Alike.iff_forall₂.mp same generalizing env env' with
  | nil => exact envs
  | cons head tail ih => exact ih (envs.step head) (Alike.iff_forall₂.mpr tail)

theorem withOwner {owner owner' : Option Owner} (owners : Alike owner owner') :
    { env with owner }.Agrees { env' with owner := owner' } := { envs with owner := owners }

theorem withStatement {n n' : Nat} (same : n = n') : { env with statement := n }.Agrees { env' with statement := n' } :=
  { envs with statement := same }

theorem withoutCommons : { env with commons := {} }.Agrees { env' with commons := {} } := { envs with commons := rfl }

end Env.Agrees

def Site.toCaseless (site : Site) : Site where
  stmt := site.stmt.toCaseless
  owner := caseless site.owner

namespace Site

mutual

/-- The statements inside one keep their order, and their owners change in case alone. -/
theorem ofStmt_toCaseless (owner : Option Owner) (stmt : Stmt) :
    ofStmt (caseless owner) stmt.toCaseless = (ofStmt owner stmt).map Site.toCaseless := by
  match stmt with
  | .block _ body =>
    rw [Stmt.toCaseless, ofStmt, ofStmt, ofStmts_toCaseless owner body]
    rfl
  | .ifElse _ _ yes no =>
    rw [Stmt.toCaseless, ofStmt, ofStmt, ofStmt_toCaseless owner yes, ofStmt?_toCaseless owner no, List.map_cons,
      List.map_append]
    rfl
  | .loop _ _ body =>
    rw [Stmt.toCaseless, ofStmt, ofStmt, ofStmt_toCaseless owner body]
    rfl
  | .tryCatch _ attempt handler =>
    rw [Stmt.toCaseless, ofStmt, ofStmt, ofStmts_toCaseless owner attempt, ofStmts_toCaseless owner handler,
      List.map_cons, List.map_append]
    rfl
  | .createProc _ _ name _ body =>
    have inside := ofStmts_toCaseless (some { name }) body
    rw [Stmt.toCaseless, ofStmt, ofStmt, List.map_cons, ← inside]
    rfl
  | .createFunction _ header body =>
    have inside := ofStmts_toCaseless (some { name := header.name }) body
    rw [Stmt.toCaseless, ofStmt, ofStmt, List.map_cons, ← inside]
    rfl
  | .createTrigger _ _ name table _ body =>
    have inside := ofStmts_toCaseless (some { name, trigger := table }) body
    rw [Stmt.toCaseless, ofStmt, ofStmt, List.map_cons, ← inside]
    rfl
  | .missing | .select _ | .insert _ | .update _ | .delete _ | .merge _ | .exec _ | .truncate .. | .createView ..
  | .createTable .. | .declare .. | .declareCursor .. | .drop .. | .transaction .. | .return .. | .print ..
  | .raise .. | .setVariable .. | .setOption .. | .cursor .. | .control .. | .use .. | .other .. => rfl

theorem ofStmt?_toCaseless (owner : Option Owner) (stmt : Option Stmt) :
    ofStmt? (caseless owner) (Stmt.toCaseless? stmt) = (ofStmt? owner stmt).map Site.toCaseless := by
  match stmt with
  | none => rfl
  | some stmt => exact ofStmt_toCaseless owner stmt

theorem ofStmts_toCaseless (owner : Option Owner) (stmts : List Stmt) :
    ofStmts (caseless owner) (Stmt.toCaselessAll stmts) = (ofStmts owner stmts).map Site.toCaseless := by
  match stmts with
  | [] => rfl
  | stmt :: rest =>
    rw [Stmt.toCaselessAll, ofStmts, ofStmts, ofStmt_toCaseless owner stmt, ofStmts_toCaseless owner rest,
      List.map_append]

end

end Site

namespace Env.Agrees

/-- A run over statements, and what the statements after them see. -/
theorem extractSites {env env' : Env} (envs : env.Agrees env') (sites : List Site) :
    Alike (env.extractSites sites).1 (env'.extractSites (sites.map Site.toCaseless)).1 ∧
      (env.extractSites sites).2.Agrees (env'.extractSites (sites.map Site.toCaseless)).2 := by
  induction sites generalizing env env' with
  | nil => exact ⟨rfl, envs⟩
  | cons site rest ih =>
    have events : Alike (ColumnFlow.stmtEvents { env with owner := site.owner } site.stmt).events _ :=
      congrArg Traced.events ((envs.withOwner (.to_caseless site.owner)).stmtEvents site.stmt)
    obtain ⟨later, final⟩ := ih ((envs.after events).withStatement (congrArg (· + 1) envs.statement))
    exact ⟨events.append later, final⟩

/-- A run over batches. -/
theorem extractBatches {env env' : Env} (envs : env.Agrees env') (batches : List Batch) :
    Alike (env.extractBatches batches) (env'.extractBatches (batches.map Batch.toCaseless)) := by
  induction batches generalizing env env' with
  | nil => exact rfl
  | cons batch rest ih =>
    have sites : batch.toCaseless.sites = batch.sites.map Site.toCaseless := Site.ofStmts_toCaseless none batch.stmts
    obtain ⟨events, final⟩ := extractSites envs.withoutCommons batch.sites
    rw [List.map_cons, Env.extractBatches, Env.extractBatches, sites]
    exact events.append (ih final)

end Env.Agrees

end ColumnFlow
