import ColumnFlow.Proofs.CaselessColumns

/-!
# Queries up to case

Two runs over trees that differ in the case of letters go on in step. Whatever one run looks up, the other finds
too, so the columns that they return and the events that they leave are alike. The proof follows the recursion of
the extraction: a run over a tree beside a run over its caseless form, in scopes that are alike.
-/

namespace ColumnFlow

open Sources (alike)

/-! ### Events -/

instance : Caseless Owner where
  caseless owner := { name := caseless owner.name, trigger := caseless owner.trigger }
  caseless_caseless _ := by simp

def Event.toCaseless : Event → Event
  | .edge e => .edge (caseless e)
  | .gap g => .gap g
  | .object name => .object (caseless name)
  | .table key columns => .table key (caseless columns)
  | .common d => .common (caseless d)

instance : Caseless Event where
  caseless := Event.toCaseless
  caseless_caseless event := by cases event <;> simp [Event.toCaseless]

instance {α : Type} [Caseless α] : Caseless (Traced α) where
  caseless x := { value := caseless x.value, events := caseless x.events }
  caseless_caseless _ := by simp

namespace Alike

variable {α β : Type} [Caseless α] [Caseless β]

theorem pure {a b : α} (same : Alike a b) : Alike (Pure.pure a : Traced α) (Pure.pure b) := by
  change Traced.mk (caseless a) _ = Traced.mk (caseless b) _
  rw [same]
  rfl

/-- Runs that are alike go on alike if what follows does. -/
theorem bind {x y : Traced α} {f g : α → Traced β} (first : Alike x y)
    (rest : ∀ a b, Alike a b → Alike (f a) (g b)) : Alike (x >>= f) (y >>= g) := by
  have values : Alike x.value y.value := congrArg Traced.value first
  have events : Alike x.events y.events := congrArg Traced.events first
  have next := rest x.value y.value values
  have value : Alike (f x.value).value (g y.value).value := congrArg Traced.value next
  have later : Alike (f x.value).events (g y.value).events := congrArg Traced.events next
  change Traced.mk (caseless (f x.value).value) (caseless (x.events ++ (f x.value).events)) = _
  rw [value, events.append later]
  rfl

theorem discard {x y : Traced α} (same : Alike x y) : Alike (Functor.discard x) (Functor.discard y) :=
  same.bind fun _ _ _ => .pure rfl

theorem recordAll {events events' : List Event} (same : Alike events events') :
    Alike (Traced.recordAll events) (Traced.recordAll events') := congrArg (Traced.mk ()) same

theorem toCommon {d d' : CommonDef} (same : Alike d d') : Alike (Event.common d) (Event.common d') :=
  congrArg Event.common same

theorem record {event event' : Event} (same : Alike event event') :
    Alike (Traced.record event) (Traced.record event') := congrArg (Traced.mk ()) same.single

end Alike

/-! ### Environments -/

/-- The environments of two runs that go on alike. -/
structure Env.Agrees (env env' : Env) : Prop where
  schema : Alike env.defaultSchema env'.defaultSchema
  resolve {s s' t t' : String} : Alike s s' → Alike t t' → Alike (env.resolve s t) (env'.resolve s' t')
  tables : env.tables.map (Prod.map id caseless) = env'.tables.map (Prod.map id caseless)
  commons : Alike env.commons env'.commons
  statement : env.statement = env'.statement
  owner : Alike env.owner env'.owner

/-- Names of one part. -/
theorem ObjectName.alike_local (name : String) : Alike { name : ObjectName } { name := caseless name } := by
  change ObjectName.mk _ (caseless "") (caseless "") (caseless "") _ =
    ObjectName.mk _ (caseless "") (caseless "") (caseless "") (caseless (caseless name))
  rw [caseless_caseless]

theorem ObjectName.head?_alike {name name' : ObjectName} (names : Alike name name') (mark : Char)
    (other : Text.capitals.map (·.toLower == mark) = Text.capitals.map (· == mark)) :
    (name.name.toList.head? == some mark) = (name'.name.toList.head? == some mark) :=
  names.apply (f := fun o => o.name.toList.head? == some mark) fun o => (Text.head?_toLower mark other o.name).symm

theorem Env.tableKey_alike {t t' : Target} (targets : Alike t t') : tableKey t = tableKey t' := by
  have schemas : Alike t.schema t'.schema := congrArg Target.schema targets
  have tables : Alike t.table t'.table := congrArg Target.table targets
  exact ((schemas.concat (.refl ".")).concat tables).fold

theorem lookup_map_snd {α β : Type} (f : α → β) (key : String) (entries : List (String × α)) :
    (entries.map (Prod.map id f)).lookup key = (entries.lookup key).map f := by
  induction entries with
  | nil => rfl
  | cons entry rest ih =>
    obtain ⟨k, a⟩ := entry
    rw [List.map_cons, Prod.map_apply, List.lookup_cons, List.lookup_cons, ih, id]
    cases key == k <;> rfl

namespace Env.Agrees

variable {env env' : Env} (envs : env.Agrees env')

include envs

variable {name name' : ObjectName}

theorem target (names : Alike name name') : Alike (env.target name) (env'.target name') := by
  have temp : name.isTemp = name'.isTemp := ObjectName.head?_alike names '#' (by decide)
  have isVariable : name.isVariable = name'.isVariable := ObjectName.head?_alike names '@' (by decide)
  have schemas : Alike name.schema name'.schema := congrArg ObjectName.schema names
  refine Target.alike ?_ (congrArg ObjectName.name names)
  rw [temp, isVariable, schemas.beq_empty]
  split
  · exact envs.schema
  · exact schemas

theorem ownerTarget : Alike env.ownerTarget env'.ownerTarget := by
  unfold Env.ownerTarget
  obtain ⟨none, none'⟩ | ⟨owner, owner', some, some', same⟩ := envs.owner.option_cases
  · rw [none, none']
    rfl
  · rw [some, some']
    exact envs.target (congrArg Owner.name same)

theorem columns {t t' : Target} (targets : Alike t t') : Alike (env.columns t) (env'.columns t') := by
  have known : Alike (env.tables.lookup (tableKey t)) (env'.tables.lookup (tableKey t')) := by
    rw [tableKey_alike targets]
    change (env.tables.lookup _).map caseless = (env'.tables.lookup _).map caseless
    rw [← lookup_map_snd, ← lookup_map_snd, envs.tables]
  unfold Env.columns
  obtain ⟨none, none'⟩ | ⟨columns, columns', some, some', same⟩ := known.option_cases
  · rw [none, none']
    exact envs.resolve (congrArg Target.schema targets) (congrArg Target.table targets)
  · rw [some, some']
    exact same.some

theorem plainBinding {aliasName aliasName' : String} (names : Alike name name') (aliases : Alike aliasName aliasName') :
    Alike (env.plainBinding name aliasName) (env'.plainBinding name' aliasName') :=
  have target := envs.target names
  Binding.ofSource_alike
    (TableSource.alike (congrArg ObjectName.name names) (congrArg Target.schema target)
      (congrArg ObjectName.database names) aliases rfl)
    (envs.columns target)

theorem triggerTable? (names : Alike name name') : Alike (env.triggerTable? name) (env'.triggerTable? name') := by
  have table : Alike name.name name'.name := congrArg ObjectName.name names
  unfold Env.triggerTable?
  dsimp only
  rw [table.fold]
  split
  · obtain ⟨none, none'⟩ | ⟨owner, owner', some, some', same⟩ := envs.owner.option_cases
    · rw [none, none']
      rfl
    · rw [some, some']
      exact congrArg Owner.trigger same
  · rfl

/-- Common tables come first, then those of a trigger, then the known ones; each is found by its folded name. -/
theorem tableBinding {aliasName aliasName' : String} {s s' : Scope}
    (names : Alike name name') (aliases : Alike aliasName aliasName') (scopes : Alike s s') :
    Alike (env.tableBinding name aliasName s) (env'.tableBinding name' aliasName' s') := by
  have server : Alike name.server name'.server := congrArg ObjectName.server names
  have database : Alike name.database name'.database := congrArg ObjectName.database names
  have schema : Alike name.schema name'.schema := congrArg ObjectName.schema names
  have table : Alike name.name name'.name := congrArg ObjectName.name names
  unfold Env.tableBinding
  rw [server.beq_empty, database.beq_empty, schema.beq_empty, table.fold]
  split
  · obtain ⟨none, none'⟩ | ⟨d, d', some, some', same⟩ := (scopes.common (Text.fold name'.name)).option_cases
    · rw [none, none']
      obtain ⟨none, none'⟩ | ⟨owned, owned', some, some', same⟩ := (envs.triggerTable? names).option_cases
      · rw [none, none']
        exact envs.plainBinding names aliases
      · rw [some, some']
        refine envs.plainBinding same ?_
        rw [aliases.beq_empty]
        split
        · exact table
        · exact aliases
    · rw [some, some']
      exact Binding.ofSource_alike (TableSource.alike (congrArg CommonDef.name same) rfl rfl aliases rfl)
        (congrArg CommonDef.columns same)
  · exact envs.plainBinding names aliases

theorem emitAll {edges edges' : List Edge} (same : Alike edges edges') :
    Alike (env.emitAll edges) (env'.emitAll edges') := by
  have events (env : Env) (edges : List Edge) :
      caseless (edges.map fun edge => Event.edge { edge with statement := env.statement }) =
        (caseless edges).map fun edge => Event.edge { edge with statement := env.statement } := by
    change (edges.map _).map caseless = (edges.map caseless).map _
    rw [List.map_map, List.map_map]
    rfl
  refine Alike.recordAll ?_
  rw [Alike, events, events, same, envs.statement]

end Env.Agrees

/-! ### Leaves -/

/-- The table is found by its folded qualifier, or is the only one that may have the column. -/
theorem resolveColumn_caseless (ref : ColumnRef) (s : Scope) :
    caseless (resolveColumn ref s) = resolveColumn (caseless ref) (caseless s) := by
  have qualified : ((caseless ref).table != "") = (ref.table != "") := bne_empty_caseless ref.table
  have key : Text.fold (caseless ref).table = Text.fold ref.table := fold_caseless ref.table
  have candidates : (caseless s).candidates (caseless ref).column = caseless (s.candidates ref.column) :=
    s.candidates_caseless ref.column
  unfold resolveColumn
  rw [qualified, key, Scope.lookup_caseless, candidates]
  split
  · cases s.lookup (Text.fold ref.table) with
    | none => exact SourceColumn.caseless_unresolved ref.column ref.table false
    | some b => exact b.read_caseless ref.column
  · have unqualified (ambiguous : Bool) : caseless { column := ref.column, ambiguous : SourceColumn } =
        { column := (caseless ref).column, ambiguous } := by
      rw [SourceColumn.caseless_unresolved, caseless_empty]
      rfl
    match s.candidates ref.column with
    | [] => exact unqualified false
    | [b] => exact b.read_caseless ref.column
    | _ :: _ :: _ => exact unqualified true

theorem FuncCall.tag_alike (fn : FuncCall) : Alike fn.tag fn.toCaseless.tag := by
  have name : Text.upper fn.name = Text.upper fn.toCaseless.name :=
    fn.name_alike.apply fun s => (Text.upper_toLower s).symm
  rw [FuncCall.tag, FuncCall.tag, FuncCall.isSequenceRead_toCaseless, name]
  rfl

theorem Expr.columnName_alike (e : Expr) (position : Nat) :
    Alike (e.columnName position) (e.toCaseless.columnName position) := by
  match e with
  | .column ref => exact .to_caseless ref.column
  | .call fn =>
    have name : Text.lower fn.name = Text.lower fn.toCaseless.name :=
      fn.name_alike.apply fun s => (Text.lower_toLower s).symm
    rw [Expr.columnName, Expr.toCaseless, Expr.columnName, FuncCall.isSequenceRead_toCaseless, name]
    rfl
  | .cast _ operand _ _ | .convert _ _ operand _ _ | .paren _ operand | .collate _ operand _ =>
    rw [Expr.columnName, Expr.toCaseless, Expr.columnName]
    exact columnName_alike operand position
  | .missing | .case .. | .coalesce .. | .nullIf .. | .iif .. | .literal .. | .localVar .. | .binary ..
  | .unary .. | .inList .. | .inQuery .. | .between .. | .isNull .. | .like .. | .star .. | .subquery ..
  | .exists .. => rfl

theorem projectedSources_alike {cs ds : List Column} (same : Alike cs ds) :
    Alike (projectedSources cs) (projectedSources ds) := by
  have sources (cs : List Column) : caseless (projectedSources cs) = projectedSources (caseless cs) := by
    change (cs.flatMap _).map caseless = (cs.map caseless).flatMap _
    rw [List.map_flatMap, List.flatMap_map]
    exact List.flatMap_congr fun c _ => c.sources_caseless.symm
  rw [Alike, sources, sources, same]

theorem listedColumns_alike (columns : List String) :
    Alike (listedColumns columns) (listedColumns (caseless columns)) := by
  unfold listedColumns
  rw [isEmpty_caseless]
  split
  · rfl
  · exact (Alike.to_caseless columns).some

theorem derivedSource_alike {name name' : String} (names : Alike name name') (aliasName : String) :
    Alike (derivedSource name aliasName) (derivedSource name' (caseless aliasName)) :=
  TableSource.alike names rfl rfl (.to_caseless aliasName) rfl

theorem functionBinding_alike (fn : FuncCall) (aliasName : String) (columns : List String) :
    Alike (functionBinding fn aliasName columns)
      (functionBinding fn.toCaseless (caseless aliasName) (caseless columns)) := by
  have schema : Alike fn.schema fn.toCaseless.schema := by
    cases fn
    exact .to_caseless _
  have bound := Binding.ofSource_alike (derivedSource_alike fn.name_alike aliasName) (listedColumns_alike columns)
  have source : Alike _ _ := congrArg Binding.source bound
  exact Binding.alike (congrArg Binding.key bound)
    (TableSource.alike (congrArg TableSource.name source) schema rfl (.to_caseless aliasName) rfl)
    (listedColumns_alike columns) false

theorem remoteBinding_alike (kind : String) (object : Option ObjectName) (aliasName : String) :
    Alike (remoteBinding kind object aliasName)
      (remoteBinding (caseless kind) (caseless object) (caseless aliasName)) := by
  cases object with
  | none =>
    have same : Text.lower (caseless kind) = Text.lower kind := Text.lower_toLower kind
    change Alike _ (Binding.ofSource (derivedSource ("(" ++ Text.lower (caseless kind) ++ ")") _) none)
    rw [same]
    exact Binding.ofSource_alike (derivedSource_alike rfl aliasName) rfl
  | some o =>
    exact Binding.ofSource_alike
      (TableSource.alike (.to_caseless o.name) (.to_caseless o.schema) (.to_caseless o.database)
        (.to_caseless aliasName) rfl) rfl

/-! ### Expressions and queries -/

namespace Env.Agrees

variable {env env' : Env}

mutual

/-- By the kind of expression; only `resolveColumn` looks at names, and it folds them. -/
theorem exprSources (envs : env.Agrees env') (e : Expr) {s s' : Scope} (scopes : Alike s s') :
    Alike (exprSources env e s) (exprSources env' e.toCaseless s') := by
  match e with
  | .missing | .literal .. | .localVar .. | .star .. => exact rfl
  | .column ref =>
    have column : Alike (resolveColumn ref s) (resolveColumn (caseless ref) s') := by
      rw [Alike, resolveColumn_caseless, resolveColumn_caseless, caseless_caseless, scopes]
    exact .pure (alike column.single rfl)
  | .call fn => exact (envs.callColumns fn scopes).bind fun c c' columns => .pure (alike columns fn.tag_alike)
  | .case _ operand whens otherwise =>
    exact (envs.exprColumns? operand scopes).bind fun _ _ first =>
      (envs.whenColumns whens scopes).bind fun _ _ cases =>
        (envs.exprColumns? otherwise scopes).bind fun _ _ last =>
          .pure (alike ((first.append cases).append last) rfl)
  | .cast _ operand _ _ | .convert _ _ operand _ _ | .collate _ operand _ | .isNull _ operand _ =>
    exact (envs.exprSources operand scopes).bind fun _ _ inner => .pure (alike inner.columns rfl)
  | .coalesce _ args => exact (envs.exprColumns args scopes).bind fun _ _ columns => .pure (alike columns rfl)
  | .nullIf _ left right =>
    exact (envs.exprSources left scopes).bind fun _ _ l =>
      (envs.exprSources right scopes).bind fun _ _ r => .pure (alike (l.columns.append r.columns) rfl)
  | .binary _ left op right =>
    exact (envs.exprSources left scopes).bind fun _ _ l =>
      (envs.exprSources right scopes).bind fun _ _ r =>
        .pure (alike (l.columns.append r.columns) (l.transform.compose op.text r.transform))
  | .unary _ _ operand =>
    exact (envs.exprSources operand scopes).bind fun _ _ inner => .pure (alike inner.columns inner.transform.inner)
  | .paren _ inner => exact envs.exprSources inner scopes
  | .subquery _ query | .exists _ query =>
    exact (envs.queryColumns query scopes).bind fun _ _ columns => .pure (alike (projectedSources_alike columns) rfl)
  | .inList _ operand _ values =>
    exact (envs.exprSources operand scopes).bind fun _ _ inner =>
      (envs.exprColumns values scopes).bind fun _ _ others => .pure (alike (inner.columns.append others) rfl)
  | .inQuery _ operand _ query =>
    exact (envs.exprSources operand scopes).bind fun _ _ inner =>
      (envs.queryColumns query scopes).bind fun _ _ columns =>
        .pure (alike (inner.columns.append (projectedSources_alike columns)) rfl)
  | .iif _ x y z | .between _ x _ y z =>
    exact (envs.exprSources x scopes).bind fun _ _ first =>
      (envs.exprSources y scopes).bind fun _ _ second =>
        (envs.exprSources z scopes).bind fun _ _ third =>
          .pure (alike ((first.columns.append second.columns).append third.columns) rfl)
  | .like _ operand _ pattern escape =>
    exact (envs.exprSources operand scopes).bind fun _ _ inner =>
      (envs.exprSources pattern scopes).bind fun _ _ p =>
        (envs.exprColumns? escape scopes).bind fun _ _ last =>
          .pure (alike ((inner.columns.append p.columns).append last) rfl)

theorem exprColumns? (envs : env.Agrees env') (e : Option Expr) {s s' : Scope} (scopes : Alike s s') :
    Alike (exprColumns? env e s) (exprColumns? env' (Expr.toCaseless? e) s') := by
  match e with
  | none => exact rfl
  | some e => exact (envs.exprSources e scopes).bind fun _ _ read => .pure read.columns

theorem exprColumns (envs : env.Agrees env') (es : List Expr) {s s' : Scope} (scopes : Alike s s') :
    Alike (exprColumns env es s) (exprColumns env' (Expr.toCaselessAll es) s') := by
  match es with
  | [] => exact rfl
  | e :: rest =>
    exact (envs.exprSources e scopes).bind fun _ _ first =>
      (envs.exprColumns rest scopes).bind fun _ _ later => .pure (first.columns.append later)

theorem callColumns (envs : env.Agrees env') (fn : FuncCall) {s s' : Scope} (scopes : Alike s s') :
    Alike (callColumns env fn s) (callColumns env' fn.toCaseless s') := by
  match fn with
  | ⟨_, _, _, _, args, _, withinGroup, window⟩ =>
    exact (envs.exprColumns args scopes).bind fun _ _ first =>
      (envs.orderColumns withinGroup scopes).bind fun _ _ order =>
        (envs.windowColumns window scopes).bind fun _ _ last => .pure ((first.append order).append last)

theorem windowColumns (envs : env.Agrees env') (window : Option WindowSpec) {s s' : Scope} (scopes : Alike s s') :
    Alike (windowColumns env window s) (windowColumns env' (WindowSpec.toCaseless? window) s') := by
  match window with
  | none => exact rfl
  | some ⟨partitionBy, orderBy⟩ =>
    exact (envs.exprColumns partitionBy scopes).bind fun _ _ first =>
      (envs.orderColumns orderBy scopes).bind fun _ _ order => .pure (first.append order)

theorem orderColumns (envs : env.Agrees env') (items : List OrderItem) {s s' : Scope} (scopes : Alike s s') :
    Alike (orderColumns env items s) (orderColumns env' (OrderItem.toCaselessAll items) s') := by
  match items with
  | [] => exact rfl
  | ⟨e, _⟩ :: rest =>
    exact (envs.exprSources e scopes).bind fun _ _ first =>
      (envs.orderColumns rest scopes).bind fun _ _ later => .pure (first.columns.append later)

theorem whenColumns (envs : env.Agrees env') (whens : List WhenClause) {s s' : Scope} (scopes : Alike s s') :
    Alike (whenColumns env whens s) (whenColumns env' (WhenClause.toCaselessAll whens) s') := by
  match whens with
  | [] => exact rfl
  | ⟨condition, result⟩ :: rest =>
    exact (envs.exprSources condition scopes).bind fun _ _ c =>
      (envs.exprSources result scopes).bind fun _ _ r =>
        (envs.whenColumns rest scopes).bind fun _ _ later => .pure ((c.columns.append r.columns).append later)

theorem queryColumns (envs : env.Agrees env') (q : Query) {s s' : Scope} (scopes : Alike s s') :
    Alike (queryColumns env q s) (queryColumns env' q.toCaseless s') := by
  match q with
  | ⟨_, ctes, body, _, _, _, _⟩ =>
    exact (envs.defineCommon? ctes scopes).bind fun _ _ defined => envs.bodyColumns body defined

theorem defineCommon? (envs : env.Agrees env') (clause : Option WithClause) {s s' : Scope} (scopes : Alike s s') :
    Alike (defineCommon? env clause s) (defineCommon? env' (WithClause.toCaseless? clause) s') := by
  match clause with
  | none => exact .pure scopes
  | some ⟨_, tables⟩ => exact envs.defineTables tables scopes

theorem defineTables (envs : env.Agrees env') (tables : List CommonTable) {s s' : Scope} (scopes : Alike s s') :
    Alike (defineTables env tables s) (defineTables env' (CommonTable.toCaselessAll tables) s') := by
  match tables with
  | [] => exact .pure scopes
  | table :: rest => exact (envs.defineTable table scopes).bind fun _ _ defined => envs.defineTables rest defined

/-- The table is in scope while its own query is read, under the same folded name. -/
theorem defineTable (envs : env.Agrees env') (table : CommonTable) {s s' : Scope} (scopes : Alike s s') :
    Alike (defineTable env table s) (defineTable env' table.toCaseless s') := by
  match table with
  | ⟨_, name, columns, query⟩ =>
    have start : Alike (CommonDef.mk (Text.fold name) name (listedColumns columns))
        (CommonDef.mk (Text.fold (caseless name)) (caseless name) (listedColumns (caseless columns))) := by
      rw [fold_caseless]
      exact CommonDef.alike _ (.to_caseless name) (listedColumns_alike columns)
    refine (envs.queryColumns query (scopes.define start)).bind fun cs ds projected => ?_
    have final : Alike (if columns.isEmpty then CommonDef.mk (Text.fold name) name (Column.names? cs)
          else CommonDef.mk (Text.fold name) name (listedColumns columns))
        (if (caseless columns).isEmpty then CommonDef.mk (Text.fold (caseless name)) (caseless name) (Column.names? ds)
          else CommonDef.mk (Text.fold (caseless name)) (caseless name) (listedColumns (caseless columns))) := by
      rw [isEmpty_caseless]
      split
      · rw [fold_caseless]
        exact CommonDef.alike _ (.to_caseless name) projected.names?
      · exact start
    exact final.toCommon.record.bind fun _ _ _ =>
      (envs.emitAll ((projected.rename columns).edges (Target.alike rfl (.to_caseless name)))).bind fun _ _ _ =>
        .pure (scopes.define final)

theorem bodyColumns (envs : env.Agrees env') (body : SelectBody) {s s' : Scope} (scopes : Alike s s') :
    Alike (bodyColumns env body s) (bodyColumns env' body.toCaseless s') := by
  match body with
  | .single _ core => exact envs.coreColumns core scopes
  | .chain _ core op all rest =>
    refine (envs.coreColumns core scopes).bind fun _ _ left =>
      (envs.bodyColumns rest scopes).bind fun _ _ right => .pure ?_
    split
    · exact left
    · rw [Alike, Column.mergeAll_caseless, Column.mergeAll_caseless, left, right]

theorem coreColumns (envs : env.Agrees env') (core : SelectCore) {s s' : Scope} (scopes : Alike s s') :
    Alike (coreColumns env core s) (coreColumns env' core.toCaseless s') := by
  match core with
  | ⟨_, _, _, columns, _, source, _, _, _⟩ =>
    exact (envs.bindSource? source scopes.child).bind fun _ _ bound =>
      (envs.itemColumns columns 1 bound).bind fun _ _ projected => .pure (Column.uniqueNames_alike projected)

theorem itemColumns (envs : env.Agrees env') (items : List SelectItem) (position : Nat) {s s' : Scope}
    (scopes : Alike s s') :
    Alike (itemColumns env items position s) (itemColumns env' (SelectItem.toCaselessAll items) position s') := by
  match items with
  | [] => exact rfl
  | item :: rest =>
    exact (envs.itemColumn item position scopes).bind fun _ _ first =>
      (envs.itemColumns rest (position + 1) scopes).bind fun _ _ later => .pure (first.append later)

theorem itemColumn (envs : env.Agrees env') (item : SelectItem) (position : Nat) {s s' : Scope} (scopes : Alike s s') :
    Alike (itemColumn env item position s) (itemColumn env' item.toCaseless position s') := by
  match item with
  | .assign .. => exact rfl
  | .star span =>
    refine .pure ?_
    rw [Alike, Column.ofStar_caseless, Column.ofStar_caseless, scopes]
  | .tableStar span qualifier =>
    refine .pure ?_
    rw [Alike, Column.ofTableStar_caseless, Column.ofTableStar_caseless, caseless_caseless, scopes]
  | .value span value aliasName =>
    refine (envs.exprSources value scopes).bind fun _ _ read => .pure (Alike.single ?_)
    rw [beq_empty_caseless, bne_empty_caseless]
    refine Column.alike ?_ read.toValue _ _
    split
    · exact value.columnName_alike position
    · exact .to_caseless aliasName

theorem bindSource? (envs : env.Agrees env') (clause : Option FromClause) {s s' : Scope} (scopes : Alike s s') :
    Alike (bindSource? env clause s) (bindSource? env' (FromClause.toCaseless? clause) s') := by
  match clause with
  | none => exact .pure scopes
  | some clause => exact envs.bindSource clause scopes

theorem bindSource (envs : env.Agrees env') (clause : FromClause) {s s' : Scope} (scopes : Alike s s') :
    Alike (bindSource env clause s) (bindSource env' clause.toCaseless s') := by
  match clause with
  | ⟨_, source, joins⟩ => exact (envs.bindTable source scopes).bind fun _ _ bound => envs.bindJoins joins bound

theorem bindJoins (envs : env.Agrees env') (joins : List Join) {s s' : Scope} (scopes : Alike s s') :
    Alike (bindJoins env joins s) (bindJoins env' (Join.toCaselessAll joins) s') := by
  match joins with
  | [] => exact .pure scopes
  | ⟨_, _, right, _⟩ :: rest => exact (envs.bindTable right scopes).bind fun _ _ bound => envs.bindJoins rest bound

/-- By the kind of table; a join binds both sides in turn. -/
theorem bindTable (envs : env.Agrees env') (table : TableRef) {s s' : Scope} (scopes : Alike s s') :
    Alike (bindTable env table s) (bindTable env' table.toCaseless s') := by
  match table with
  | .missing => exact .pure scopes
  | .named _ name aliasName _ =>
    exact .pure (scopes.bound (envs.tableBinding (.to_caseless name) (.to_caseless aliasName) scopes))
  | .derived _ query aliasName columns =>
    refine (envs.queryColumns query scopes).bind fun cs ds projected => ?_
    refine (envs.emitAll ((projected.rename columns).edges (Target.alike rfl (.to_caseless aliasName)))).bind
      fun _ _ _ => .pure (scopes.bound ?_)
    refine Binding.ofSource_alike (derivedSource_alike rfl aliasName) ?_
    rw [isEmpty_caseless]
    split
    · exact projected.names?
    · exact (Alike.to_caseless columns).some
  | .values _ _ aliasName columns =>
    exact .pure (scopes.bound
      (Binding.ofSource_alike (derivedSource_alike rfl aliasName) (listedColumns_alike columns)))
  | .function _ fn aliasName columns => exact .pure (scopes.bound (functionBinding_alike fn aliasName columns))
  | .pivot _ _ source aliasName columns =>
    exact (envs.bindTable source scopes.child).discard.bind fun _ _ _ => .pure (scopes.bound
      (Binding.ofSource_alike (derivedSource_alike rfl aliasName) (listedColumns_alike columns)))
  | .remote _ kind _ object aliasName => exact .pure (scopes.bound (remoteBinding_alike kind object aliasName))
  | .joined _ source => exact envs.bindSource source scopes

end

end Env.Agrees

end ColumnFlow
