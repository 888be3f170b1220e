import ColumnFlow.Lineage.Extract
import ColumnFlow.Proofs.QueryEvents

/-!
# Which columns a table is known by

Statements create tables: `CREATE TABLE`, the declaration of a table variable, the result variable of a function
and `SELECT ... INTO`. Along a run these changes form a history. The columns that a later statement takes a table
to have are those of the latest creation under its folded name, as long as they were known there. `DROP TABLE` is
part of the history and changes nothing.

The columns after an unexpanded star are not known. What is said of a table whose latest creation is of this kind
is left open.
-/

namespace ColumnFlow

/-- What a statement does to the tables of a run. A table is given by its folded name. -/
inductive TableChange where
  /-- The table is created, with these columns if they are known. -/
  | create (key : String) (columns : Option (List String))
  | drop (key : String)
  deriving DecidableEq, Repr

/-- What a creation with known columns makes known. -/
def TableChange.known? : TableChange → Option (String × List String)
  | .create key (some columns) => some (key, columns)
  | _ => none

/-- Whether a declaration is that of a table variable. -/
def VarDecl.isTable (decl : VarDecl) : Bool := decl.typeName == "TABLE" || !decl.tableColumns.isEmpty

namespace Env

/-- The creation of a table with a list of columns. -/
def creation (env : Env) (name : ObjectName) (columns : List String) : TableChange :=
  .create (tableKey (env.target name)) (listedColumns columns)

/-- What one statement, those inside it apart, does to the tables of a run. -/
def changes (env : Env) : Stmt → List TableChange
  | .createTable _ name columns => [env.creation name (columns.map (·.name))]
  | .declare _ vars =>
    (vars.filter VarDecl.isTable).map fun decl => env.creation { name := decl.name } (decl.tableColumns.map (·.name))
  | .createFunction _ header _ =>
    if header.returnTable == "" then []
    else [env.creation { name := header.returnTable } (header.tableColumns.map (·.name))]
  | .select query =>
    query.body.head.into.toList.map fun into =>
      .create (tableKey (env.target into)) (Column.names? (queryColumns env query env.commons).value)
  | .drop _ kind names => if kind == "TABLE" then names.map fun name => .drop (tableKey (env.target name)) else []
  | _ => []

/-! ### Runs -/

/-- What is known behind the statements of a batch. -/
def pass (env : Env) (batch : Batch) : Env := (extractSites { env with commons := {} } batch.sites).2

/-- What is known behind some batches and the first statements of the next one. -/
def reached (env : Env) (done : List Batch) (first : List Site) : Env :=
  (extractSites { done.foldl pass env with commons := {} } first).2

/-- What statements do to the tables of a run, in order. -/
def siteChanges (env : Env) : List Site → List TableChange
  | [] => []
  | site :: rest =>
    { env with owner := site.owner }.changes site.stmt ++ siteChanges (extractSites env [site]).2 rest

def batchChanges (env : Env) : List Batch → List TableChange
  | [] => []
  | batch :: rest => siteChanges { env with commons := {} } batch.sites ++ batchChanges (env.pass batch) rest

/-- What happened to tables up to a point of a run: behind some batches and the first statements of the next. -/
def history (env : Env) (done : List Batch) (first : List Site) : List TableChange :=
  env.batchChanges done ++ siteChanges { done.foldl pass env with commons := {} } first

variable (env : Env)

theorem extractSites_cons (site : Site) (rest : List Site) : extractSites env (site :: rest) =
      ((stmtEvents { env with owner := site.owner } site.stmt).events ++
          (extractSites (extractSites env [site]).2 rest).1,
        (extractSites (extractSites env [site]).2 rest).2) := rfl

theorem extractSites_append (first rest : List Site) : extractSites env (first ++ rest) =
      ((extractSites env first).1 ++ (extractSites (extractSites env first).2 rest).1,
        (extractSites (extractSites env first).2 rest).2) := by
  induction first generalizing env with
  | nil => rfl
  | cons site more ih =>
    rw [List.cons_append, extractSites_cons, ih, extractSites_cons env site more]
    simp [List.append_assoc]

theorem extractBatches_cons (batch : Batch) (rest : List Batch) : extractBatches env (batch :: rest) =
      (extractSites { env with commons := {} } batch.sites).1 ++ extractBatches (env.pass batch) rest := rfl

theorem extractBatches_append (done rest : List Batch) :
    extractBatches env (done ++ rest) = extractBatches env done ++ extractBatches (done.foldl pass env) rest := by
  induction done generalizing env with
  | nil => rfl
  | cons batch more ih =>
    rw [List.cons_append, extractBatches_cons, ih, extractBatches_cons, List.foldl_cons, List.append_assoc]

/-- In a run every statement is extracted under what is known at its place. -/
theorem extractBatches_at (done later : List Batch) {batch : Batch} {first rest : List Site}
    {site : Site} (inBatch : batch.sites = first ++ site :: rest) :
    ∃ before behind, extractBatches env (done ++ batch :: later) =
      before ++ (stmtEvents { env.reached done first with owner := site.owner } site.stmt).events ++ behind := by
  refine ⟨extractBatches env done ++ (extractSites { done.foldl pass env with commons := {} } first).1,
    (extractSites (extractSites (env.reached done first) [site]).2 rest).1 ++
      extractBatches ((done.foldl pass env).pass batch) later, ?_⟩
  rw [extractBatches_append, extractBatches_cons, inBatch, extractSites_append, extractSites_cons]
  simp only [reached, List.append_assoc]

/-! ### The tables that are known -/

end Env

/-- What an event makes known. -/
def Event.table? : Event → Option (String × List String)
  | .table key columns => some (key, columns)
  | _ => none

/-- The tables that a traced computation makes known, in order. -/
def Traced.tables {α : Type} (x : Traced α) : List (String × List String) := x.events.filterMap Event.table?

namespace Traced

variable {α β : Type}

theorem tables_bind (x : Traced α) (f : α → Traced β) : (x >>= f).tables = x.tables ++ (f x.value).tables :=
  List.filterMap_append

theorem Emits.tables_nil {x : Traced α} (emits : x.Emits Event.OfWrite) : x.tables = [] := by
  refine List.filterMap_eq_nil_iff.2 fun event member => ?_
  have own := emits.events event member
  cases event <;> first | rfl | exact own.elim

end Traced

theorem Column.names?_ne_nil {cs : List Column} {names : List String} (known : names? cs = some names) :
    names ≠ [] := by
  unfold names? at known
  split at known
  · cases known
  · rename_i expanded
    cases known
    simp only [Bool.or_eq_true, not_or] at expanded
    simpa using expanded.1

namespace Env

variable (env : Env)

theorem remember_tables (name : ObjectName) (columns : List String) :
    (env.remember name columns).tables = (env.creation name columns).known?.toList := by
  unfold remember creation listedColumns
  split <;> rfl

/-- Table variables are made known one after the other. -/
theorem declareTables_tables (vars : List VarDecl) : (declareTables env vars).tables =
      ((vars.filter VarDecl.isTable).map fun decl =>
        env.creation { name := decl.name } (decl.tableColumns.map (·.name))).filterMap TableChange.known? := by
  induction vars with
  | nil => rfl
  | cons decl rest ih =>
    rw [declareTables, Traced.tables_bind, remember_tables, ih]
    by_cases isTable : decl.isTable
    · rw [List.filter_cons_of_pos isTable, List.map_cons, List.filterMap_cons]
      cases (env.creation { name := decl.name } (decl.tableColumns.map (·.name))).known? <;> rfl
    · have empty : decl.tableColumns = [] := by
        simp only [VarDecl.isTable, Bool.or_eq_true, not_or] at isTable
        simpa using isTable.2
      rw [List.filter_cons_of_neg isTable, empty]
      rfl

theorem emitAll_tables (edges : List Edge) : (env.emitAll edges).tables = [] := by
  induction edges with
  | nil => rfl
  | cons e rest ih => exact ih

theorem selectStmt_tables (query : Query) :
    (selectStmt env query).tables = (env.changes (.select query)).filterMap TableChange.known? := by
  rw [selectStmt, Traced.tables_bind, (queryColumns_emits env.admits_ofWrite.queries query _).tables_nil, List.nil_append, changes]
  cases query.body.head.into with
  | none => exact env.emitAll_tables _
  | some into =>
    dsimp only
    cases known : Column.names? (queryColumns env query env.commons).value with
    | none => exact env.emitAll_tables _
    | some names =>
      rw [Traced.tables_bind, env.emitAll_tables, remember_tables, creation, listedColumns,
        if_neg (by simpa using Column.names?_ne_nil known)]
      rfl

theorem queryInto_tables (target : Target) (query : Query) (names : List String) :
    (queryInto env target query names).tables = [] := by
  rw [queryInto, Traced.tables_bind, (queryColumns_emits env.admits_ofWrite.queries query _).tables_nil, emitAll_tables]
  rfl

/-- A statement makes known what it creates with known columns, and nothing else. -/
theorem stmtEvents_tables (stmt : Stmt) :
    (stmtEvents env stmt).tables = (env.changes stmt).filterMap TableChange.known? := by
  cases stmt with
  | select query => exact env.selectStmt_tables query
  | insert s => exact (insertStmt_write env s).tables_nil
  | update s => exact (updateStmt_write env s).tables_nil
  | merge s => exact (mergeStmt_write env s).tables_nil
  | delete s => exact (deleteStmt_write env s).tables_nil
  | createView span alter name columns query =>
    exact (Traced.tables_bind _ _).trans (env.queryInto_tables _ query columns)
  | declareCursor span name query => exact env.queryInto_tables _ query []
  | «return» span value query =>
    cases query with
    | none => rfl
    | some query => exact env.queryInto_tables _ query []
  | declare span vars => exact env.declareTables_tables vars
  | createTable span name columns => exact env.remember_tables name (columns.map (·.name))
  | createFunction span header body =>
    rw [stmtEvents, Traced.tables_bind, changes]
    have object : (Traced.record (.object header.name.text)).tables = [] := rfl
    by_cases named : header.returnTable = ""
    · simp only [object, named, bne_self_eq_false, Bool.false_eq_true, if_false, beq_self_eq_true, if_true]
      rfl
    · simp only [object, List.nil_append, bne_iff_ne, ne_eq, named, not_false_eq_true, if_true, beq_iff_eq, if_false,
        remember_tables]
      rfl
  | drop span kind names =>
    rw [changes]
    split
    · induction names with
      | nil => rfl
      | cons name rest ih => exact ih
    · rfl
  | _ => rfl

/-- What is known after events is what they make known, latest first, before what was known. -/
theorem after_tables (events : List Event) :
    (env.after events).tables = (events.filterMap Event.table?).reverse ++ env.tables := by
  induction events generalizing env with
  | nil => rfl
  | cons event rest ih =>
    have step : (env.after (event :: rest)).tables = ((after.step env event).after rest).tables := rfl
    rw [step, ih, List.filterMap_cons]
    cases event <;> simp [after.step, Event.table?]

/-- The latest change comes first among the tables that are known. -/
theorem extractSites_tables (sites : List Site) :
    (extractSites env sites).2.tables = ((env.siteChanges sites).filterMap TableChange.known?).reverse ++ env.tables := by
  induction sites generalizing env with
  | nil => rfl
  | cons site rest ih =>
    have one : (extractSites env [site]).2.tables =
        (({ env with owner := site.owner }.changes site.stmt).filterMap TableChange.known?).reverse ++ env.tables := by
      rw [← stmtEvents_tables]
      exact after_tables env _
    rw [extractSites_cons, ih, one, siteChanges, List.filterMap_append, List.reverse_append, List.append_assoc]

theorem foldl_pass_tables (done : List Batch) :
    (done.foldl pass env).tables = ((env.batchChanges done).filterMap TableChange.known?).reverse ++ env.tables := by
  induction done generalizing env with
  | nil => rfl
  | cons batch rest ih =>
    have one := extractSites_tables { env with commons := {} } batch.sites
    rw [List.foldl_cons, ih, batchChanges, List.filterMap_append, List.reverse_append, List.append_assoc]
    exact congrArg _ one

/-- What is known at a point of a run: every creation with known columns, latest first. -/
theorem reached_tables (done : List Batch) (first : List Site) : (env.reached done first).tables =
      ((env.history done first).filterMap TableChange.known?).reverse ++ env.tables := by
  rw [reached, extractSites_tables, history, List.filterMap_append, List.reverse_append, List.append_assoc]
  exact congrArg _ (foldl_pass_tables env done)

/-- The entries of changes that do not create a table say nothing about it. -/
theorem lookup_entries_eq_none {key : String} {history : List TableChange}
    (absent : ∀ columns, .create key columns ∉ history) :
    (history.filterMap TableChange.known?).reverse.lookup key = none := by
  refine List.lookup_eq_none_iff.2 fun entry member => ?_
  obtain ⟨change, found, made⟩ := List.mem_filterMap.1 (List.mem_reverse.1 member)
  obtain ⟨made', columns⟩ | _ := change
  · cases columns with
    | none => cases made
    | some columns =>
      cases made
      simp only [bne_iff_ne, ne_eq]
      rintro rfl
      exact absent _ found
  · cases made

/-- The entry of a table is that of its latest creation, if the columns were known there. -/
theorem lookup_entries_eq_some {key : String} {columns : List String} (earlier : List TableChange)
    {since : List TableChange} (latest : ∀ other, .create key other ∉ since) :
    ((earlier ++ .create key (some columns) :: since).filterMap TableChange.known?).reverse.lookup key =
      some columns := by
  rw [List.filterMap_append, List.filterMap_cons]
  simp only [TableChange.known?, List.reverse_append, List.reverse_cons, List.append_assoc]
  rw [List.lookup_append, lookup_entries_eq_none latest, Option.none_or]
  simp

end Env

open Env (tableKey)

/-- At every statement of every run, a table whose latest creation under its folded name came with known columns
is taken to have these columns, whether or not a `DROP TABLE` stands in between, and a table that no statement
has created is not known. -/
theorem extractBatches_tables_latest (options : ExtractOptions) (script : Script) (done later : List Batch)
    (batch : Batch) (first rest : List Site) (site : Site) (inScript : script.batches = done ++ batch :: later)
    (inBatch : batch.sites = first ++ site :: rest) :
    let env := { options.env.reached done first with owner := site.owner }
    let history := options.env.history done first
    (∃ before behind,
        options.env.extractBatches script.batches = before ++ (stmtEvents env site.stmt).events ++ behind) ∧
      (∀ (t : Target) (earlier since : List TableChange) (columns : List String),
        history = earlier ++ .create (tableKey t) (some columns) :: since →
        (∀ other, .create (tableKey t) other ∉ since) →
        env.tables.lookup (tableKey t) = some columns ∧ env.columns t = some columns) ∧
      ∀ t : Target, (∀ other, .create (tableKey t) other ∉ history) →
        env.tables.lookup (tableKey t) = none ∧ env.columns t = env.resolve t.schema t.table := by
  intro env history
  have known : env.tables = (history.filterMap TableChange.known?).reverse := by
    have reached := options.env.reached_tables done first
    rwa [show options.env.tables = [] from rfl, List.append_nil] at reached
  refine ⟨inScript ▸ options.env.extractBatches_at done later inBatch,
    fun t earlier since columns split latest => ?_, fun t absent => ?_⟩
  · have entry : env.tables.lookup (tableKey t) = some columns := by
      rw [known, split]
      exact Env.lookup_entries_eq_some earlier latest
    exact ⟨entry, by simp [Env.columns, entry]⟩
  · have entry : env.tables.lookup (tableKey t) = none := by
      rw [known]
      exact Env.lookup_entries_eq_none absent
    exact ⟨entry, by simp [Env.columns, entry]⟩

/-- A table is created twice, under two spellings, and dropped: it is taken to have the columns of the second
creation. -/
theorem extractBatches_tables_latest_twice :
    let create (name column : String) : Stmt := .createTable .unset { name } [⟨column, "int", none⟩]
    let first : List Site :=
      [⟨create "t" "a", none⟩, ⟨create "T" "b", none⟩, ⟨.drop .unset "TABLE" [{ name := "t" }], none⟩]
    let last : Stmt := .truncate .unset { name := "t" }
    let batch : Batch := ⟨.unset, first.map (·.stmt) ++ [last]⟩
    let env := ({} : ExtractOptions).env
    batch.sites = first ++ [⟨last, none⟩] ∧
      env.history [] first = [.create "dbo.t" (some ["a"]), .create "dbo.t" (some ["b"]), .drop "dbo.t"] ∧
      { env.reached [] first with owner := none }.columns ⟨"dbo", "t"⟩ = some ["b"] := by
  intro create first last batch env
  have history : env.history [] first =
      [.create "dbo.t" (some ["a"]), .create "dbo.t" (some ["b"]), .drop "dbo.t"] := by decide +kernel
  have key : tableKey ⟨"dbo", "t"⟩ = "dbo.t" := by decide +kernel
  obtain ⟨-, created, -⟩ :=
    extractBatches_tables_latest {} ⟨.unset, "", [batch]⟩ [] [] batch first [] ⟨last, none⟩ rfl rfl
  refine ⟨rfl, history, (created ⟨"dbo", "t"⟩ [.create "dbo.t" (some ["a"])] [.drop "dbo.t"] ["b"] ?_ (by simp)).2⟩
  rw [key]
  exact history

/-- A table keeps its columns when it is dropped, and also when it is created again with columns that are not known:
the last star stands for the columns of the first creation. -/
theorem dropped_table_known :
    ∃ script, (parse "CREATE TABLE t (a int); DROP TABLE t; SELECT * INTO t FROM u; SELECT * FROM t").1 = some script ∧
      let env := ({} : ExtractOptions).env
      (env.history [] (script.sites.take 2) = [.create "dbo.t" (some ["a"]), .drop "dbo.t"] ∧
        (env.reached [] (script.sites.take 2)).tables.lookup "dbo.t" = some ["a"]) ∧
      (env.history [] (script.sites.take 3) =
          [.create "dbo.t" (some ["a"]), .drop "dbo.t", .create "dbo.t" none] ∧
        (env.reached [] (script.sites.take 3)).tables.lookup "dbo.t" = some ["a"]) ∧
      (extract (some script) [] {}).edges.map (fun e => (e.statement, e.column, e.sources.map (·.qualifiedName))) =
        [(2, "*", []), (3, "a", ["dbo.t.a"])] := by
  simp only [← Option.mem_def]
  decide +kernel

end ColumnFlow
