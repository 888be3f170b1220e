import ColumnFlow.Proofs.FoldedNames
import ColumnFlow.Proofs.GraphColumns
import ColumnFlow.Proofs.InsertPairing

/-!
# Where writing and reading a table meet

A written column is named after the target of its statement, a column that is read after the table it was found in.
The two names are made apart from each other: a target keeps schema and table of a name, a source its database too.
So an `INSERT` into a permanent table and a query over the same name meet in one column of the graph exactly when
the name has no database part. A column called `*` is never written, since it stands for all columns there.
-/

namespace ColumnFlow

open ColumnGraph (key ofLineages)

/-- A table that is neither temporary nor a variable. -/
structure ObjectName.IsPermanent (o : ObjectName) : Prop where
  named : o.name ≠ ""
  notTemp : o.isTemp = false
  notVariable : o.isVariable = false

/-! ### The two names of a column -/

/-- A database in front makes another key. -/
theorem key_database_ne (database rest : String) : key (database ++ "." ++ rest) ≠ key rest := by
  intro same
  have lengths := congrArg String.length same
  have dot : Text.fold "." = "." := by decide +kernel
  unfold ColumnGraph.key at lengths
  rw [Text.length_fold_append, Text.length_fold_append, dot] at lengths
  have one : ".".length = 1 := rfl
  omega

namespace Env

variable {env : Env} {name : ObjectName} (schema : env.defaultSchema ≠ "") (permanent : name.IsPermanent)

include schema permanent

/-- The column of a permanent table, as a target names it. -/
theorem columnName_target (c : String) : (env.target name).schema ≠ "" ∧
      (env.target name).columnName c = (env.target name).schema ++ "." ++ (name.name ++ "." ++ c) := by
  have given : (env.target name).schema ≠ "" := by
    unfold target
    by_cases written : name.schema = ""
    · simpa [written, permanent.notTemp, permanent.notVariable] using schema
    · simp [written]
  have table : (env.target name).table = name.name := rfl
  exact ⟨given, by simp [Target.columnName, given, table, permanent.named, String.append_assoc]⟩

/-- The same column as a source names it: with its database, if there is one. -/
theorem qualifiedName_read (aliasName c : String) : ((env.plainBinding name aliasName).read c).qualifiedName =
      if name.database = "" then (env.target name).columnName c
      else name.database ++ "." ++ (env.target name).columnName c := by
  obtain ⟨given, same⟩ := columnName_target schema permanent c
  rw [same]
  have read : ((env.plainBinding name aliasName).read c).qualifiers =
      [name.database, (env.target name).schema].filter (· != "") ++ [name.name] := by
    simp [SourceColumn.qualifiers, plainBinding, plainSource, Binding.ofSource, Binding.read, SourceColumn.isResolved,
      permanent.named]
  rw [SourceColumn.qualifiedName, read]
  by_cases database : name.database = "" <;>
    simp [database, given, String.intercalate_cons_cons, String.append_assoc, Binding.read]

/-- The column of the graph that is written: none for `*`. -/
theorem targetNode?_eq {e : Edge} (target : e.target = env.target name) (kept : e.isRemoval = false) (definition : String) :
    e.targetNode? definition =
      if e.column = wildcardColumn then none else some ((env.target name).columnName e.column) := by
  obtain ⟨given, -⟩ := columnName_target schema permanent e.column
  have table : (env.target name).table = name.name := rfl
  unfold Edge.targetNode?
  by_cases star : e.column = wildcardColumn
  · simp [star]
  · simp [star, kept, target, table, permanent.named, nodeName?, given, Edge.targetName]

/-- The column of the graph that is read. -/
theorem node?_eq (aliasName c definition : String) :
    ((env.plainBinding name aliasName).read c).node? definition =
      some (if name.database = "" then (env.target name).columnName c
        else name.database ++ "." ++ (env.target name).columnName c) := by
  obtain ⟨given, -⟩ := columnName_target schema permanent c
  rw [← qualifiedName_read schema permanent aliasName c]
  simp [SourceColumn.node?, nodeName?, plainBinding, plainSource, Binding.ofSource, Binding.read,
    SourceColumn.isResolved, permanent.named, given]

/-- Only a database in the name keeps the two apart, and the name `*`. -/
theorem written_eq_read_iff {e : Edge} (target : e.target = env.target name) (kept : e.isRemoval = false)
    (aliasName definition definition' : String) :
    (e.targetNode? definition).map key =
        (((env.plainBinding name aliasName).read e.column).node? definition').map key ↔
      name.database = "" ∧ e.column ≠ wildcardColumn := by
  rw [targetNode?_eq schema permanent target kept, node?_eq schema permanent]
  by_cases star : e.column = wildcardColumn
  · simp [star]
  · by_cases database : name.database = ""
    · simp [star, database]
    · simp only [star, database, if_false, Option.map_some, Option.some.injEq, false_and, iff_false]
      exact fun same => key_database_ne _ _ same.symm

end Env

/-- The default schema of a run is never empty. -/
theorem ExtractOptions.env_defaultSchema (options : ExtractOptions) : options.env.defaultSchema ≠ "" := by
  unfold ExtractOptions.env
  dsimp only
  split
  · decide
  · simp_all

/-! ### Writing -/

/-- An `INSERT` has a value for each column of its list. -/
def InsertStmt.Fills (env : Env) (stmt : InsertStmt) : Prop :=
  match stmt.source with
  | .missing => False
  | .query query =>
    let columns := (queryColumns env query (defineCommon? env stmt.ctes env.commons).value).value
    columns.length = stmt.columns.length ∧ ∀ column ∈ columns, column.isWildcard = false
  | .values _ | .exec _ | .defaults => True

/-- `INSERT INTO name (..., c, ...)`, with a value for each column. -/
structure InsertStmt.Writes (env : Env) (stmt : InsertStmt) (name : ObjectName) (c : String) : Prop where
  target : stmt.target = name
  listed : c ∈ stmt.columns.map (·.column)
  filled : stmt.Fills env

variable {name : ObjectName} {stmt : InsertStmt} {column : Column} {env : Env} {c : String}

/-- Each pair of a target column and a column of the query has its edge. -/
theorem insertQuery_mem (env : Env) (target : Target) {targets : List String} {columns : List Column} (line : Nat)
    (expanded : ∀ column ∈ columns, column.isWildcard = false) {name : String}
    (paired : (name, column) ∈ targets.zip columns) :
    .edge { kind := .insert, target, column := name, statement := env.statement, line := column.line
            value := .computed (SourceColumn.distinct column.sources) column.transform } ∈
      (insertQuery env target targets columns line).events := by
  have noStar : columns.any (·.isWildcard) = false := by simpa using expanded
  have listed : targets.isEmpty = false := List.isEmpty_eq_false_iff.2 (List.ne_nil_of_mem (List.of_mem_zip paired).1)
  unfold insertQuery
  simp only [noStar, listed, Bool.false_eq_true, if_false]
  rw [← Traced.mem_edges, pairColumns_edges, ← List.map_uncurry_zip_eq_zipWith]
  refine List.mem_map.2 ⟨_, List.mem_map_of_mem paired, ?_⟩
  rw [Function.uncurry_apply_pair, Column.edge_eq (expanded column (List.of_mem_zip paired).2)]

theorem exists_zip_of_mem {α β : Type} {as : List α} {bs : List β} {a : α} (member : a ∈ as)
    (same : bs.length = as.length) : ∃ b, (a, b) ∈ as.zip bs := by
  obtain ⟨i, bound, rfl⟩ := List.getElem_of_mem member
  have inZip : i < (as.zip bs).length := by
    rw [List.length_zip, same, Nat.min_self]
    exact bound
  refine ⟨bs[i], ?_⟩
  rw [← List.getElem_zip (h := inZip)]
  exact List.getElem_mem inZip

theorem insertTargets_of_listed (env : Env) (listed : c ∈ stmt.columns.map (·.column)) :
    insertTargets env stmt.target stmt.columns = stmt.columns.map (·.column) := by
  cases columns : stmt.columns with
  | nil => simp [columns] at listed
  | cons first rest => rfl

/-- An `INSERT` has an edge into each column of its list. -/
theorem insertStmt_writes (writes : stmt.Writes env name c) :
    ∃ e, .edge e ∈ (insertStmt env stmt).events ∧ e.target = env.target name ∧ e.column = c ∧
      e.isRemoval = false := by
  obtain ⟨rfl, listed, filled⟩ := writes
  have targets := insertTargets_of_listed env listed
  have some := List.isEmpty_eq_false_iff.2 (List.ne_nil_of_mem listed)
  unfold InsertStmt.Fills at filled
  unfold insertStmt
  rw [targets]
  cases source : stmt.source with
  | missing => simp [source] at filled
  | query query =>
    simp only [source] at filled
    obtain ⟨same, expanded⟩ := filled
    obtain ⟨column, paired⟩ := exists_zip_of_mem listed (same.trans (List.length_map _).symm)
    have emitted := insertQuery_mem env (env.target stmt.target) stmt.span.start.line expanded paired
    exact ⟨_, Traced.mem_bind_right (Traced.mem_bind_right (Traced.mem_bind_left emitted)), rfl, rfl, rfl⟩
  | values rows =>
    simp only [some, Bool.false_eq_true, if_false]
    exact ⟨_, Traced.mem_bind_right (Traced.mem_bind_right (Traced.mem_bind_left
      (env.mem_emitAll (List.mem_map_of_mem listed)))), rfl, rfl, rfl⟩
  | exec exec =>
    simp only [some, Bool.false_eq_true, if_false]
    exact ⟨_, Traced.mem_bind_right (Traced.mem_bind_left (env.mem_emitAll (List.mem_map_of_mem listed))), rfl, rfl, rfl⟩
  | defaults =>
    exact ⟨_, Traced.mem_bind_right (Traced.mem_bind_left (env.mem_emitAll (List.mem_map_of_mem listed))), rfl, rfl, rfl⟩

/-! ### Reading -/

/-- `SELECT ref FROM name`, the table under an alias or not, with any other clauses. -/
def Query.Selects (q : Query) (ref : ColumnRef) (name : ObjectName) (aliasName : String) : Prop :=
  q.ctes = none ∧ ∃ bodySpan core itemSpan itemAlias fromSpan tableSpan hints,
    q.body = .single bodySpan core ∧ core.columns = [.value itemSpan (.column ref) itemAlias] ∧
      core.source = some ⟨fromSpan, .named tableSpan name aliasName hints, []⟩

/-- A name stands for a plain table: it is qualified, or no common table and no table of a trigger has it. -/
def Env.IsPlain (env : Env) (name : ObjectName) : Prop :=
  name.server ≠ "" ∨ name.database ≠ "" ∨ name.schema ≠ "" ∨
    env.commons.common (Text.fold name.name) = none ∧ env.triggerTable? name = none

/-- A reference is to a table: by the name the table is known by, or without a qualifier to a column that the table
may have. -/
def ColumnRef.RefersTo (ref : ColumnRef) (b : Binding) : Prop :=
  if ref.table = "" then b.mayHave ref.column = true else Text.fold ref.table = b.key

/-- `INSERT INTO other (x) SELECT c FROM name`, where the names stand for plain tables. -/
structure InsertStmt.Reads (env : Env) (stmt : InsertStmt) (name : ObjectName) (c : String) : Prop where
  target : stmt.target.IsPermanent
  alone : stmt.ctes = none
  column : ∃ x, stmt.columns.map (·.column) = [x] ∧ x ≠ wildcardColumn
  plain : env.IsPlain name
  selects : ∃ q ref aliasName, stmt.source = .query q ∧ q.Selects ref name aliasName ∧ ref.column = c ∧
    ref.RefersTo (env.plainBinding name aliasName)

theorem Env.IsPlain.tableBinding (plain : env.IsPlain name) (aliasName : String) :
    env.tableBinding name aliasName env.commons.child = env.plainBinding name aliasName := by
  unfold Env.tableBinding
  split
  · rename_i bare
    simp only [Bool.and_eq_true, beq_iff_eq] at bare
    obtain ⟨⟨server, database⟩, schema⟩ := bare
    obtain ⟨common, trigger⟩ : env.commons.common (Text.fold name.name) = none ∧ env.triggerTable? name = none := by
      simpa [Env.IsPlain, server, database, schema] using plain
    have inner : env.commons.child.common (Text.fold name.name) = none := common
    simp only [inner, trigger]
  · rfl

theorem resolveColumn_bind (s : Scope) {ref : ColumnRef} {b : Binding} (visible : b.hidden = false)
    (refers : ref.RefersTo b) : resolveColumn ref (s.child.bind b) = b.read ref.column := by
  unfold ColumnRef.RefersTo at refers
  unfold resolveColumn
  by_cases bare : ref.table = ""
  · have owner : (s.child.bind b).candidates ref.column = [b] := by
      rw [if_pos bare] at refers
      simp [Scope.candidates, Scope.levels, Scope.bind, Scope.child, Level.owners, visible, refers]
    simp [bare, owner]
  · have found : (s.child.bind b).lookup (Text.fold ref.table) = some b := by
      rw [if_neg bare] at refers
      simp [Scope.lookup, Scope.levels, Scope.bind, Scope.child, refers]
    simp [bare, found]

theorem Column.uniqueNames_singleton (column : Column) :
    ∃ name, Column.uniqueNames [column] = [{ column with name }] := by
  unfold Column.uniqueNames Column.uniqueNames.go
  split
  · exact ⟨column.name, rfl⟩
  · exact ⟨_, rfl⟩

/-- The one column of such a query is read from the table. -/
theorem Query.Selects.queryColumns_eq {q : Query} {ref : ColumnRef}
    {aliasName : String} (selects : q.Selects ref name aliasName) (plain : env.IsPlain name)
    (refers : ref.RefersTo (env.plainBinding name aliasName)) :
    ∃ column, (queryColumns env q env.commons).value = [column] ∧ column.isWildcard = false ∧
      column.sources = [(env.plainBinding name aliasName).read ref.column] := by
  obtain ⟨span, ctes, body, orderBy, offset, fetch, forMode⟩ := q
  obtain ⟨noTables, bodySpan, core, itemSpan, itemAlias, fromSpan, tableSpan, hints, single, item, source⟩ := selects
  obtain ⟨coreSpan, distinct, top, columns, into, clause, filter, groupBy, having⟩ := core
  cases noTables
  cases single
  cases item
  cases source
  have bound := plain.tableBinding aliasName
  have resolved := resolveColumn_bind env.commons rfl refers
  rw [← bound] at resolved
  obtain ⟨unique, columns⟩ := Column.uniqueNames_singleton
    { name := if itemAlias == "" then ref.column else itemAlias, isAlias := itemAlias != ""
      value := .reads ⟨[resolveColumn ref (env.commons.child.bind (env.tableBinding name aliasName env.commons.child))], .bare⟩
      line := itemSpan.start.line }
  exact ⟨_, columns, rfl, congrArg (fun c => [c]) (resolved.trans (by rw [bound]))⟩

/-- Such an `INSERT` has an edge from the column of the table. -/
theorem insertStmt_reads (reads : stmt.Reads env name c) :
    ∃ e aliasName, .edge e ∈ (insertStmt env stmt).events ∧ e.target = env.target stmt.target ∧
      e.column ≠ wildcardColumn ∧ e.isRemoval = false ∧ e.sources = [(env.plainBinding name aliasName).read c] := by
  obtain ⟨-, alone, ⟨x, columns, real⟩, plain, q, ref, aliasName, source, selects, rfl, refers⟩ := reads
  obtain ⟨column, projected, expanded, sources⟩ := selects.queryColumns_eq plain refers
  have targets : insertTargets env stmt.target stmt.columns = [x] :=
    (insertTargets_of_listed env (columns ▸ List.mem_singleton_self x)).trans columns
  have onlyExpanded : ∀ other ∈ (queryColumns env q env.commons).value, other.isWildcard = false := by
    rw [projected]
    simpa using expanded
  have paired : (x, column) ∈ [x].zip (queryColumns env q env.commons).value := by simp [projected]
  have emitted := insertQuery_mem env (env.target stmt.target) stmt.span.start.line onlyExpanded paired
  rw [insertStmt_query env source, targets, alone]
  exact ⟨_, aliasName, Traced.mem_bind_right (Traced.mem_bind_right (Traced.mem_bind_left emitted)), rfl, real, rfl,
    congrArg SourceColumn.distinct sources⟩

/-! ### The column of the graph -/

/-- What an edge of a definition writes or reads is a column of every graph with the definition. -/
theorem ColumnGraph.mem_ids_of_edge {ls : List Lineage} {l : Lineage} (inList : l ∈ ls) {e : Edge} (edge : e ∈ l.edges)
    {target : String} (written : e.targetNode? l.name = some target) :
    key target ∈ (ofLineages ls).ids ∧
      ∀ s ∈ e.sources, ∀ name, s.node? l.name = some name → key name ∈ (ofLineages ls).ids := by
  have calls : e.graphCalls l.name = .node target :: .writer (key target) l.name ::
      e.sources.flatMap (·.graphCalls l.name (key target)) := by rw [Edge.graphCalls, written]
  have column {name : String} (called : .node name ∈ e.graphCalls l.name) : key name ∈ (ofLineages ls).ids := by
    refine ColumnGraph.mem_ids_ofLineages.2 ⟨l, inList, Lineage.touches_iff.2 ⟨e, edge, ?_⟩⟩
    exact Edge.mem_graphCalls_node.1 ⟨name, called, rfl⟩
  refine ⟨column (calls ▸ List.mem_cons_self), fun s source name read => column ?_⟩
  rw [calls]
  refine List.mem_cons_of_mem _ (List.mem_cons_of_mem _ (List.mem_flatMap.2 ⟨s, source, ?_⟩))
  exact SourceColumn.mem_graphCalls_node.2 read

/-- Let one definition `INSERT` into column `c` of a permanent table and another read `c` from a table of the same
name. The column of the graph that is written and the column that is read are the same exactly when the name has no
database and `c` is not `*`. Both are columns of every graph of the two definitions. -/
theorem write_read_same_node_iff (options : ExtractOptions) {name : ObjectName} (permanent : name.IsPermanent)
    {c : String} {writing reading : Script} {w r : InsertStmt} {env env' : Env}
    (runs : writing.Runs options (.insert w) env) (writes : w.Writes env name c)
    (runs' : reading.Runs options (.insert r) env') (reads : r.Reads env' name c)
    (errors errors' : List ParseError) (definition definition' : String) :
    let l := { extract (some writing) errors options with name := definition }
    let m := { extract (some reading) errors' options with name := definition' }
    ∃ e ∈ l.edges, e.target = options.env.target name ∧ e.column = c ∧
      ∃ e' ∈ m.edges, ∃ s ∈ e'.sources, s.column = c ∧ s.table = name.name ∧
        let written := (e.targetNode? l.name).map key
        let read := (s.node? m.name).map key
        (written = read ↔ name.database = "" ∧ c ≠ wildcardColumn) ∧ read.isSome ∧
          ∀ ls : List Lineage, l ∈ ls → m ∈ ls → ∀ id, written = some id ∨ read = some id → id ∈ (ofLineages ls).ids := by
  intro l m
  have schema : env'.defaultSchema ≠ "" := runs'.defaultSchema ▸ options.env_defaultSchema
  have sameTarget (other : Env) (same : other.defaultSchema = options.env.defaultSchema) (o : ObjectName) :
      other.target o = options.env.target o := by
    simp only [Env.target, same]
  obtain ⟨e, emitted, target, rfl, kept⟩ := insertStmt_writes writes
  obtain ⟨e', aliasName, emitted', target', real, kept', sources⟩ := insertStmt_reads reads
  rw [sameTarget env runs.defaultSchema] at target
  have targetHere : e.target = env'.target name := target.trans (sameTarget env' runs'.defaultSchema name).symm
  have edge : e ∈ l.edges := runs.mem_edges errors emitted
  have edge' : e' ∈ m.edges := runs'.mem_edges errors' emitted'
  have source : (env'.plainBinding name aliasName).read e.column ∈ e'.sources := sources ▸ List.mem_singleton_self _
  have reading' := Env.node?_eq schema permanent aliasName e.column m.name
  refine ⟨e, edge, target, rfl, e', edge', _, source, rfl, rfl,
    Env.written_eq_read_iff schema permanent targetHere kept aliasName l.name m.name, by simp [reading'], ?_⟩
  intro ls inList inList' id either
  rcases either with written | read
  · obtain ⟨node, found, rfl⟩ := Option.map_eq_some_iff.1 written
    exact (ColumnGraph.mem_ids_of_edge inList edge found).1
  · obtain ⟨node, found, rfl⟩ := Option.map_eq_some_iff.1 read
    have written' := Env.targetNode?_eq schema reads.target target' kept' m.name
    rw [if_neg real] at written'
    exact (ColumnGraph.mem_ids_of_edge inList' edge' written').2 _ source node found

/-- `INSERT INTO t (c) SELECT a FROM s` and `INSERT INTO u (x) SELECT c FROM t` meet in the column `c` of `t`. Under
the name `dw.dbo.t` they do not. -/
theorem write_read_same_node_iff_database :
    let select (column : String) (table : ObjectName) : Query :=
      ⟨.unset, none, .single .unset ⟨.unset, false, none, [.value .unset (.column { column }) ""], none,
        some ⟨.unset, .named .unset table "" [], []⟩, none, [], none⟩, [], none, none, ""⟩
    let insert (table : ObjectName) (column : String) (query : Query) : InsertStmt :=
      ⟨.unset, none, none, table, [{ column }], none, .query query⟩
    let script (stmt : InsertStmt) : Script := ⟨.unset, "", [⟨.unset, [.insert stmt]⟩]⟩
    let meets (name : ObjectName) (same : Prop) : Prop :=
      ∃ e ∈ (extract (some (script (insert name "c" (select "a" { name := "s" })))) [] {}).edges, e.column = "c" ∧
        ∃ e' ∈ (extract (some (script (insert { name := "u" } "x" (select "c" name)))) [] {}).edges,
          ∃ s ∈ e'.sources, s.column = "c" ∧ ((e.targetNode? "p").map key = (s.node? "q").map key ↔ same)
    meets { name := "t" } True ∧ meets { database := "dw", schema := "dbo", name := "t" } False := by
  intro select insert script meets
  have runs (stmt : InsertStmt) : (script stmt).Runs {} (.insert stmt) ({} : ExtractOptions).env :=
    ⟨[], ⟨.unset, [.insert stmt]⟩, [], [], [], none, rfl, rfl, rfl⟩
  have expanded : ∀ column ∈ (queryColumns ({} : ExtractOptions).env (select "a" { name := "s" }) {}).value,
      column.isWildcard = false := by decide +kernel
  have writes (name : ObjectName) :
      (insert name "c" (select "a" { name := "s" })).Writes ({} : ExtractOptions).env name "c" :=
    ⟨rfl, List.mem_singleton_self "c", rfl, expanded⟩
  have selects (name : ObjectName) : (select "c" name).Selects { column := "c" } name "" :=
    ⟨rfl, .unset, _, .unset, "", .unset, .unset, [], rfl, rfl, rfl⟩
  have plain (name : ObjectName) : ({} : ExtractOptions).env.IsPlain name :=
    .inr (.inr (.inr ⟨rfl, by simp [Env.triggerTable?, ExtractOptions.env]⟩))
  have other : ObjectName.IsPermanent { name := "u" } := ⟨by decide, by decide, by decide⟩
  have reads (name : ObjectName) :
      (insert { name := "u" } "x" (select "c" name)).Reads ({} : ExtractOptions).env name "c" :=
    ⟨other, rfl, ⟨"x", rfl, by decide⟩, plain name, _, _, "", rfl, selects name, rfl, rfl⟩
  have both (name : ObjectName) (permanent : name.IsPermanent) : meets name (name.database = "") := by
    obtain ⟨e, edge, -, column, e', edge', s, source, read, -, same, -⟩ :=
      write_read_same_node_iff {} permanent (runs _) (writes name) (runs _) (reads name) [] [] "p" "q"
    refine ⟨e, edge, column, e', edge', s, source, read, same.trans ⟨And.left, fun database => ⟨database, ?_⟩⟩⟩
    decide
  refine ⟨?_, ?_⟩
  · simpa [meets] using both { name := "t" } ⟨by decide, by decide, by decide⟩
  · simpa [meets] using both { database := "dw", schema := "dbo", name := "t" } ⟨by decide, by decide, by decide⟩

end ColumnFlow
