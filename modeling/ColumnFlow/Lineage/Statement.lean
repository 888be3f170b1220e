import ColumnFlow.Lineage.Write

/-!
# Lineage of statements

A script is a list of statements, nested ones directly after the statement that holds them. Each is extracted
on its own, under what the statements before it made known. Common tables are known to the end of their batch,
tables to the end of the script.
-/

namespace ColumnFlow

/-- A statement and the module whose body holds it. -/
structure Site where
  stmt : Stmt
  owner : Option Owner

namespace Site

mutual

/-- A statement and those inside it. -/
def ofStmt (owner : Option Owner) (stmt : Stmt) : List Site :=
  match stmt with
  | .missing => []
  | .block _ body => ⟨stmt, owner⟩ :: ofStmts owner body
  | .ifElse _ _ yes no => ⟨stmt, owner⟩ :: (ofStmt owner yes ++ ofStmt? owner no)
  | .loop _ _ body => ⟨stmt, owner⟩ :: ofStmt owner body
  | .tryCatch _ attempt handler => ⟨stmt, owner⟩ :: (ofStmts owner attempt ++ ofStmts owner handler)
  | .createProc _ _ name _ body => ⟨stmt, owner⟩ :: ofStmts (some { name }) body
  | .createFunction _ header body => ⟨stmt, owner⟩ :: ofStmts (some { name := header.name }) body
  | .createTrigger _ _ name table _ body =>
    ⟨stmt, owner⟩ :: ofStmts (some { name, trigger := table }) body
  | _ => [⟨stmt, owner⟩]

def ofStmt? (owner : Option Owner) (stmt : Option Stmt) : List Site :=
  match stmt with
  | none => []
  | some stmt => ofStmt owner stmt

def ofStmts (owner : Option Owner) (stmts : List Stmt) : List Site :=
  match stmts with
  | [] => []
  | stmt :: rest => ofStmt owner stmt ++ ofStmts owner rest

end

end Site

def Batch.sites (batch : Batch) : List Site := Site.ofStmts none batch.stmts

/-- All statements of a script, each before those inside it. -/
def Script.sites (script : Script) : List Site := script.batches.flatMap Batch.sites

section

variable (env : Env)

/-- A query as a statement. Its columns go to the `INTO` table, else to the enclosing module. -/
def selectStmt (query : Query) : Traced Unit := do
  let columns ← queryColumns env query env.commons
  match query.body.head.into with
  | none => env.emitAll (Column.edges .select env.ownerTarget columns)
  | some into =>
    match Column.names? columns with
    | some names => env.remember into names
    | none => pure ()
    env.emitAll (Column.edges .select (env.target into) columns)

/-- A query whose columns go to a target under the names of a list, if there is one. -/
def queryInto (target : Target) (query : Query) (names : List String) : Traced Unit := do
  let columns ← queryColumns env query env.commons
  env.emitAll (Column.edges .select target (Column.rename columns names))

/-- Make declared table variables known. -/
def declareTables : List VarDecl → Traced Unit
  | [] => return
  | decl :: rest => do
    env.remember { name := decl.name } (decl.tableColumns.map (·.name))
    declareTables rest

/-- One statement, those inside it apart. -/
def stmtEvents (stmt : Stmt) : Traced Unit :=
  match stmt with
  | .select query => selectStmt env query
  | .insert s => insertStmt env s
  | .update s => updateStmt env s
  | .merge s => mergeStmt env s
  | .delete s => deleteStmt env s
  | .truncate span table => truncateStmt env span.start.line table
  | .createView _ _ name columns query => do
    Traced.record (.object name.text)
    queryInto env (env.target name) query columns
  | .createProc _ _ name _ _ => Traced.record (.object name.text)
  | .createTrigger _ _ name _ _ _ => Traced.record (.object name.text)
  | .createFunction _ header _ => do
    Traced.record (.object header.name.text)
    if header.returnTable != "" then
      env.remember { name := header.returnTable } (header.tableColumns.map (·.name))
  | .return _ _ (some query) => queryInto env env.ownerTarget query []
  | .declareCursor _ name query => queryInto env { table := name } query []
  | .declare _ vars => declareTables env vars
  | .createTable _ name columns => env.remember name (columns.map (·.name))
  | _ => return

end

namespace Env

/-- Extract statements in order. Returns their events and what statements after them see. -/
def extractSites (env : Env) : List Site → List Event × Env
  | [] => ([], env)
  | site :: rest =>
    let events := (stmtEvents { env with owner := site.owner } site.stmt).events
    let (later, final) := extractSites { env.after events with statement := env.statement + 1 } rest
    (events ++ later, final)

/-- Extract batches in order. A batch starts without common tables. -/
def extractBatches (env : Env) : List Batch → List Event
  | [] => []
  | batch :: rest =>
    let (events, final) := extractSites { env with commons := {} } batch.sites
    events ++ extractBatches final rest

end Env

end ColumnFlow
