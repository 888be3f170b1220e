import ColumnFlow.Lineage.Write

/-!
# Column references with a schema

Table sources are bound under the name they are known by, which has no schema, and a column reference is resolved
by that name alone. So of two tables of one name in different schemas only the one bound last can be read: the later
one of a `FROM` clause, the target of an `UPDATE` beside it, the source of a `MERGE`. Main statement: a reference
keeps its schema exactly if the source bound last under its qualifier is no plain table of another schema.
-/

namespace ColumnFlow

open Text (fold)

namespace TableSource

/-- The source is known by a folded name. -/
def isKnownAs (t : TableSource) (key : String) : Bool := fold t.visibleName == key

/-- The last of the sources that is known by a folded name. -/
def lastKnownAs (key : String) (sources : List TableSource) : Option TableSource :=
  (sources.filter (·.isKnownAs key)).getLast?

/-- The source is no plain table of another schema. -/
def AgreesWith (t : TableSource) (schema : String) : Prop := t.kind = .plain → fold t.schema = fold schema

instance (t : TableSource) (schema : String) : Decidable (t.AgreesWith schema) := inferInstanceAs (Decidable (_ → _))

theorem lastKnownAs_append (key : String) (front back : List TableSource) :
    lastKnownAs key (front ++ back) = (lastKnownAs key back).or (lastKnownAs key front) := by
  simp [lastKnownAs, List.getLast?_append]

theorem lastKnownAs_singleton (key : String) (t : TableSource) :
    lastKnownAs key [t] = if fold t.visibleName = key then some t else none := by
  by_cases known : fold t.visibleName = key <;> simp [lastKnownAs, isKnownAs, known]

end TableSource

/-! ### Scopes -/

namespace Scope

/-- The table source that a key stands for. -/
def source? (s : Scope) (key : String) : Option TableSource := (s.lookup key).map (·.source)

/-- What a key stands for when these sources are bound, in order, inside the scope. -/
def lastKnown (outer : Scope) (sources : List TableSource) (key : String) : Option TableSource :=
  (TableSource.lastKnownAs key sources).or (outer.source? key)

/-- A binding hides whatever had its key. -/
theorem lookup_bind (s : Scope) (b : Binding) (key : String) :
    (s.bind b).lookup key = if b.key = key then some b else s.lookup key := by
  unfold lookup levels bind
  simp only [List.findSome?_cons, List.find?_append]
  by_cases same : b.key = key
  · have replaced : (s.level.tables.filter (·.key != b.key)).find? (·.key == key) = none := by
      simp [List.find?_eq_none, same]
    rw [replaced, if_pos same]
    simp [same]
  · have kept : (s.level.tables.filter (·.key != b.key)).find? (·.key == key) =
        s.level.tables.find? (·.key == key) := by
      rw [List.find?_filter]
      congr 1
      funext other
      by_cases hit : other.key = key
      · simp [hit, Ne.symm same]
      · simp [hit]
    simp [kept, same]

/-- The scope binds these sources, in order, inside another one. -/
structure Extends (outer : Scope) (sources : List TableSource) (s : Scope) : Prop where
  known : ∀ key, s.source? key = outer.lastKnown sources key
  commons : ∀ key, s.common key = outer.common key

namespace Extends

variable {outer s t : Scope} {front back : List TableSource}

theorem refl (s : Scope) : s.Extends [] s := ⟨fun _ => rfl, fun _ => rfl⟩

theorem child (s : Scope) : s.Extends [] s.child := ⟨fun _ => rfl, fun _ => rfl⟩

theorem trans (first : outer.Extends front s) (second : s.Extends back t) : outer.Extends (front ++ back) t where
  known key := by
    rw [second.known, lastKnown, first.known, lastKnown, lastKnown, TableSource.lastKnownAs_append, Option.or_assoc]
  commons key := (second.commons key).trans (first.commons key)

/-- Bindings under the name that their source is known by. -/
theorem bind (s : Scope) (b : Binding) (keyed : b.key = fold b.source.visibleName) :
    s.Extends [b.source] (s.bind b) where
  known key := by
    rw [source?, lookup_bind, lastKnown, TableSource.lastKnownAs_singleton, ← keyed]
    split
    · rfl
    · rfl
  commons _ := rfl

theorem ofSource (s : Scope) (source : TableSource) (columns : Option (List String)) :
    s.Extends [source] (s.bind (.ofSource source columns)) := bind s (.ofSource source columns) rfl

end Extends

end Scope

/-! ### Bindings of tables -/

variable (env : Env)

theorem Env.tableBinding_key (name : ObjectName) (aliasName : String) (s : Scope) :
    (env.tableBinding name aliasName s).key = fold (env.tableBinding name aliasName s).source.visibleName := by
  unfold Env.tableBinding
  split
  · split
    · rfl
    · split <;> rfl
  · rfl

theorem remoteBinding_key (kind : String) (object : Option ObjectName) (aliasName : String) :
    (remoteBinding kind object aliasName).key =
      fold (remoteBinding kind object aliasName).source.visibleName := by
  cases object <;> rfl

/-- Only the common tables of a scope decide what a table name stands for. -/
theorem Env.tableBinding_congr (name : ObjectName) (aliasName : String) {s t : Scope}
    (commons : ∀ key, s.common key = t.common key) :
    env.tableBinding name aliasName s = env.tableBinding name aliasName t := by
  unfold Env.tableBinding
  rw [commons]

mutual

/-- The table sources of a clause, from left to right. -/
def FromClause.sources (s : Scope) : FromClause → List TableSource
  | ⟨_, source, joins⟩ => source.sources s ++ Join.sources s joins

def Join.sources (s : Scope) : List Join → List TableSource
  | [] => []
  | ⟨_, _, right, _⟩ :: rest => right.sources s ++ Join.sources s rest

def TableRef.sources (s : Scope) : TableRef → List TableSource
  | .missing => []
  | .named _ name aliasName _ => [(env.tableBinding name aliasName s).source]
  | .derived _ _ aliasName _ => [derivedSource "(subquery)" aliasName]
  | .values _ _ aliasName _ => [derivedSource "(values)" aliasName]
  | .function _ fn aliasName columns => [(functionBinding fn aliasName columns).source]
  | .pivot _ _ _ aliasName _ => [derivedSource "(pivot)" aliasName]
  | .remote _ kind _ object aliasName => [(remoteBinding kind object aliasName).source]
  | .joined _ source => source.sources s

end

def FromClause.sources? (s : Scope) : Option FromClause → List TableSource
  | none => []
  | some clause => clause.sources env s

section

variable {env} {s t : Scope}

mutual

theorem FromClause.sources_congr (commons : ∀ key, s.common key = t.common key) (clause : FromClause) :
    clause.sources env s = clause.sources env t := by
  match clause with
  | ⟨_, source, joins⟩ =>
    rw [FromClause.sources, FromClause.sources, source.sources_congr commons, Join.sources_congr commons joins]

theorem Join.sources_congr (commons : ∀ key, s.common key = t.common key) (joins : List Join) :
    Join.sources env s joins = Join.sources env t joins := by
  match joins with
  | [] => rfl
  | ⟨_, _, right, _⟩ :: rest =>
    rw [Join.sources, Join.sources, right.sources_congr commons, Join.sources_congr commons rest]

theorem TableRef.sources_congr (commons : ∀ key, s.common key = t.common key) (table : TableRef) :
    table.sources env s = table.sources env t := by
  match table with
  | .named _ name aliasName _ => rw [TableRef.sources, TableRef.sources, env.tableBinding_congr name aliasName commons]
  | .joined _ source => rw [TableRef.sources, TableRef.sources, source.sources_congr commons]
  | .missing | .derived .. | .values .. | .function .. | .pivot .. | .remote .. => rfl

end

end

/-! ### Scopes of clauses and statements -/

mutual

theorem bindSource_extends (clause : FromClause) (s : Scope) :
    s.Extends (clause.sources env s) (bindSource env clause s).value := by
  match clause with
  | ⟨_, source, joins⟩ =>
    have first := bindTable_extends source s
    have rest := bindJoins_extends joins (bindTable env source s).value
    rw [Join.sources_congr first.commons joins] at rest
    exact first.trans rest

theorem bindJoins_extends (joins : List Join) (s : Scope) :
    s.Extends (Join.sources env s joins) (bindJoins env joins s).value := by
  match joins with
  | [] => exact .refl s
  | ⟨_, _, right, _⟩ :: joins =>
    have first := bindTable_extends right s
    have rest := bindJoins_extends joins (bindTable env right s).value
    rw [Join.sources_congr first.commons joins] at rest
    exact first.trans rest

/-- A table source adds itself to the scope, or its tables in their order, and nothing else. -/
theorem bindTable_extends (table : TableRef) (s : Scope) :
    s.Extends (table.sources env s) (bindTable env table s).value := by
  match table with
  | .missing => exact .refl s
  | .named _ name aliasName _ => exact .bind s _ (env.tableBinding_key name aliasName s)
  | .derived .. | .values .. | .pivot .. => exact .ofSource s _ _
  | .function _ fn aliasName columns => exact .bind s (functionBinding fn aliasName columns) rfl
  | .remote _ kind _ object aliasName => exact .bind s _ (remoteBinding_key kind object aliasName)
  | .joined _ source => exact bindSource_extends source s

end

theorem bindSource?_extends (clause : Option FromClause) (outer : Scope) :
    outer.Extends (FromClause.sources? env outer clause) (bindSource? env clause outer.child).value := by
  cases clause with
  | none => exact .child outer
  | some clause =>
    have inner := bindSource_extends env clause outer.child
    rw [clause.sources_congr (Scope.Extends.child outer).commons] at inner
    exact (Scope.Extends.child outer).trans inner

/-- The target of an `UPDATE` or `DELETE` may stand for a table source: it names no database, and no schema but the
one of the source. -/
def ObjectName.mayName (name : ObjectName) (t : TableSource) : Bool :=
  name.database == "" && (name.schema == "" || fold name.schema == fold t.schema)

/-- The table sources of an `UPDATE` or `DELETE`: those of its clause, and behind them the target, unless it stands for
the table source that is known by its name already. -/
def targetSources (name : ObjectName) (clause : Option FromClause) (outer : Scope) : List TableSource :=
  let listed := FromClause.sources? env outer clause
  if (outer.lastKnown listed (fold name.name)).any name.mayName then listed
  else listed ++ [(env.tableBinding name "" outer).source]

/-- The target is added to the tables of the clause unless it is one of them. -/
theorem bindTarget_extends (name : ObjectName) (clause : Option FromClause) (outer : Scope) :
    outer.Extends (targetSources env name clause outer) (bindTarget env name clause outer).value.1 := by
  have listed := bindSource?_extends env clause outer
  have own := env.tableBinding_congr name "" listed.commons
  have added := listed.trans (.bind _ { env.tableBinding name "" outer with hidden := clause.isSome }
    (env.tableBinding_key name "" outer))
  simp only [targetSources, ← listed.known, Scope.source?, bindTarget, bind, own]
  cases (bindSource? env clause outer.child).value.lookup (fold name.name) with
  | none => exact added
  | some b =>
    dsimp only
    split
    · rename_i stands
      rw [if_pos (show (name.database == "" && _) = true from stands)]
      exact listed
    · rename_i other
      rw [if_neg (show ¬(name.database == "" && _) = true from other)]
      exact added

/-- The scope of a clause of a `MERGE`. -/
def MergeStmt.clauseScope (stmt : MergeStmt) (outer : Scope) (w : MergeWhen) : Scope :=
  let target := env.tableBinding stmt.target stmt.targetAlias outer
  w.scope (bindTable env stmt.source (outer.child.bind target)).value outer target

/-- The table sources that a clause of a `MERGE` sees, in the order in which they are bound. -/
def MergeStmt.clauseSources (stmt : MergeStmt) (outer : Scope) (w : MergeWhen) : List TableSource :=
  let target := (env.tableBinding stmt.target stmt.targetAlias outer).source
  match w.rows with
  | .matched => target :: stmt.source.sources env outer
  | .notMatchedBySource => [target]
  | .notMatchedByTarget => target :: stmt.source.sources env outer ++ [target]

/-- A clause sees the target and the source. Where rows have no source it is not bound; where they have no target it is
hidden. -/
theorem MergeStmt.clauseScope_extends (stmt : MergeStmt) (outer : Scope) (w : MergeWhen) :
    outer.Extends (stmt.clauseSources env outer w) (stmt.clauseScope env outer w) := by
  have keyed := env.tableBinding_key stmt.target stmt.targetAlias outer
  have target := (Scope.Extends.child outer).trans (.bind outer.child _ keyed)
  have both := target.trans (bindTable_extends env stmt.source _)
  rw [stmt.source.sources_congr target.commons] at both
  unfold clauseSources clauseScope MergeWhen.scope
  cases w.rows with
  | matched => exact both
  | notMatchedBySource => exact target
  | notMatchedByTarget =>
    let hiddenTarget := { env.tableBinding stmt.target stmt.targetAlias outer with hidden := true }
    exact both.trans (.bind _ hiddenTarget keyed)

/-! ### Resolved columns -/

/-- If the reference is resolved to a plain table, then to one of the schema it is written with. -/
def ColumnRef.KeepsSchema (ref : ColumnRef) (s : Scope) : Prop :=
  (resolveColumn ref s).kind = some .plain → fold (resolveColumn ref s).schema = fold ref.schema

/-- A reference with a table qualifier keeps its schema in a scope exactly if what the qualifier stands for is no plain
table of another schema. -/
theorem ColumnRef.keepsSchema_iff {ref : ColumnRef} (qualified : ref.table ≠ "") (s : Scope) :
    ref.KeepsSchema s ↔ ∀ t ∈ s.source? (fold ref.table), t.AgreesWith ref.schema := by
  have written : (ref.table != "") = true := by simpa using qualified
  unfold KeepsSchema resolveColumn Scope.source?
  rw [if_pos written]
  cases s.lookup (fold ref.table) with
  | none => simp
  | some b => simp [Binding.read, TableSource.AgreesWith]

theorem ColumnRef.keepsSchema_iff_lastKnown {ref : ColumnRef} (qualified : ref.table ≠ "") {outer s : Scope}
    {sources : List TableSource} (bound : outer.Extends sources s) :
    ref.KeepsSchema s ↔ ∀ t ∈ outer.lastKnown sources (fold ref.table), t.AgreesWith ref.schema := by
  rw [keepsSchema_iff qualified, bound.known]

/-- A reference with a table qualifier keeps its schema in a scope exactly if the qualifier stands for no plain table
of another schema there. In the scope of a `FROM` clause, of an `UPDATE` or `DELETE` and of a clause of a `MERGE`
the qualifier stands for the last of the sources known by it, in the order in which they are bound, and only without
such a source for what it stands for outside. -/
theorem schema_kept_iff {ref : ColumnRef} (qualified : ref.table ≠ "") :
    (∀ s : Scope, ref.KeepsSchema s ↔ ∀ t ∈ s.source? (Text.fold ref.table), t.AgreesWith ref.schema) ∧
    ∀ (env : Env) (outer : Scope),
      (∀ clause, ref.KeepsSchema (bindSource? env clause outer.child).value ↔
        ∀ t ∈ outer.lastKnown (FromClause.sources? env outer clause) (Text.fold ref.table),
          t.AgreesWith ref.schema) ∧
      (∀ name clause, ref.KeepsSchema (bindTarget env name clause outer).value.1 ↔
        ∀ t ∈ outer.lastKnown (targetSources env name clause outer) (Text.fold ref.table),
          t.AgreesWith ref.schema) ∧
      (∀ (stmt : MergeStmt) (w : MergeWhen), ref.KeepsSchema (stmt.clauseScope env outer w) ↔
        ∀ t ∈ outer.lastKnown (stmt.clauseSources env outer w) (Text.fold ref.table),
          t.AgreesWith ref.schema) := by
  refine ⟨ColumnRef.keepsSchema_iff qualified, fun env outer => ⟨?_, ?_, ?_⟩⟩
  · intro clause
    exact ColumnRef.keepsSchema_iff_lastKnown qualified (bindSource?_extends env clause outer)
  · intro name clause
    exact ColumnRef.keepsSchema_iff_lastKnown qualified (bindTarget_extends env name clause outer)
  · intro stmt w
    exact ColumnRef.keepsSchema_iff_lastKnown qualified (stmt.clauseScope_extends env outer w)

/-- In `FROM dbo.T JOIN sales.T` the column `sales.T.x` keeps its schema and `dbo.T.x` does not. Nor does `dbo.T.x` in
`UPDATE sales.T … FROM dbo.T` and where rows match in `MERGE INTO dbo.T USING sales.T`. -/
theorem schema_kept_iff_joined :
    let env : Env := { defaultSchema := "dbo", resolve := fun _ _ => none }
    let table (schema : String) : TableRef := .named .unset { schema, name := "T" } "" []
    let column (schema : String) : ColumnRef := { schema, table := "T", column := "x" }
    let joined : FromClause := ⟨.unset, table "dbo", [⟨.unset, .inner, table "sales", none⟩]⟩
    let alone : FromClause := ⟨.unset, table "dbo", []⟩
    let merge : MergeStmt :=
      ⟨.unset, none, { schema := "dbo", name := "T" }, "", table "sales", .missing, [], none⟩
    (∀ schema, (column schema).table ≠ "") ∧
      (column "sales").KeepsSchema (bindSource? env (some joined) (Scope.child {})).value ∧
      ¬ (column "dbo").KeepsSchema (bindSource? env (some joined) (Scope.child {})).value ∧
      ¬ (column "dbo").KeepsSchema
        (bindTarget env { schema := "sales", name := "T" } (some alone) {}).value.1 ∧
      ¬ (column "dbo").KeepsSchema (merge.clauseScope env {} ⟨.unset, .matched, none, .delete⟩) := by
  intro env table column joined alone merge
  have qualified (schema : String) : (column schema).table ≠ "" := show "T" ≠ "" by decide
  obtain ⟨-, sales⟩ := schema_kept_iff (qualified "sales")
  obtain ⟨-, dbo⟩ := schema_kept_iff (qualified "dbo")
  obtain ⟨listed, written, merged⟩ := dbo env {}
  refine ⟨qualified, ?_, ?_, ?_, ?_⟩
  · rw [(sales env {}).1 (some joined)]
    decide +kernel
  · rw [listed (some joined)]
    decide +kernel
  · rw [written _ (some alone)]
    decide +kernel
  · rw [merged merge]
    decide +kernel

end ColumnFlow
