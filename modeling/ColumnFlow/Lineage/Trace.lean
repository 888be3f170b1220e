import ColumnFlow.Lineage.Result
import ColumnFlow.Lineage.Scope
import ColumnFlow.Syntax.Basic

/-!
# Events of an extraction

Extracting a statement yields events: edges and gaps, objects it creates, and tables it makes known to later
statements. A `Traced` value carries the events met while it was computed. The value of a traced computation
never depends on the events before it; what later statements see of a statement is its list of events.
-/

namespace ColumnFlow

inductive Event where
  | edge (edge : Edge)
  | gap (gap : Gap)
  | object (name : String)
  /-- A table with these columns exists from here on. -/
  | table (key : String) (columns : List String)
  /-- A common table can be named in the rest of the batch. -/
  | common (table : CommonDef)

structure Traced (α : Type) where
  value : α
  events : List Event

namespace Traced

instance : Monad Traced where
  pure x := ⟨x, []⟩
  bind x f := ⟨(f x.value).value, x.events ++ (f x.value).events⟩

instance : LawfulMonad Traced :=
  LawfulMonad.mk' Traced (fun _ => by simp [Functor.map]) (fun _ _ => rfl)
    (fun _ _ _ => by simp [bind])

def record (event : Event) : Traced Unit := ⟨(), [event]⟩

def recordAll (events : List Event) : Traced Unit := ⟨(), events⟩

end Traced

/-- The module whose body holds a statement, and the table of a trigger. -/
structure Owner where
  name : ObjectName
  trigger : Option ObjectName := none

/-- What a statement is extracted under. -/
structure Env where
  /-- The schema of permanent tables that are named without one. -/
  defaultSchema : String
  /-- The columns of a table, given its schema and name. -/
  resolve : String → String → Option (List String)
  /-- Columns of tables that earlier statements created, latest first. -/
  tables : List (String × List String) := []
  /-- Common tables of earlier statements of the batch. -/
  commons : Scope := {}
  /-- The number of the statement. -/
  statement : Nat := 0
  owner : Option Owner := none

namespace Env

/-- The table a name stands for. Temporary tables and table variables have no schema. -/
def target (env : Env) (name : ObjectName) : Target :=
  let schema := if name.schema == "" && !name.isTemp && !name.isVariable then env.defaultSchema
    else name.schema
  { schema, table := name.name }

/-- Where result sets go: to the enclosing module, if there is one. -/
def ownerTarget (env : Env) : Target :=
  match env.owner with
  | some owner => env.target owner.name
  | none => {}

/-- The key of a table in the list of tables that statements create. -/
def tableKey (t : Target) : String := Text.fold (t.schema ++ "." ++ t.table)

/-- The columns of a table: as created by an earlier statement, else as the resolver knows it. -/
def columns (env : Env) (t : Target) : Option (List String) :=
  match env.tables.lookup (tableKey t) with
  | some columns => some columns
  | none => env.resolve t.schema t.table

/-- A permanent, temporary or variable table under an alias. -/
def plainSource (env : Env) (name : ObjectName) (aliasName : String) : TableSource :=
  { name := name.name, schema := (env.target name).schema, database := name.database, aliasName, kind := .plain }

def plainBinding (env : Env) (name : ObjectName) (aliasName : String) : Binding :=
  .ofSource (env.plainSource name aliasName) (env.columns (env.target name))

/-- `inserted` and `deleted` in the body of a trigger stand for the table of the trigger. -/
def triggerTable? (env : Env) (name : ObjectName) : Option ObjectName :=
  let key := Text.fold name.name
  if key == "inserted" || key == "deleted" then env.owner.bind (·.trigger) else none

/-- What a table name stands for in a scope: a common table, a table of a trigger or a plain table. -/
def tableBinding (env : Env) (name : ObjectName) (aliasName : String) (s : Scope) : Binding :=
  if name.server == "" && name.database == "" && name.schema == "" then
    match s.common (Text.fold name.name) with
    | some table => .ofSource { name := table.name, aliasName, kind := .common } table.columns
    | none =>
      match env.triggerTable? name with
      | some table => env.plainBinding table (if aliasName == "" then name.name else aliasName)
      | none => env.plainBinding name aliasName
  else env.plainBinding name aliasName

/-- Record an edge of the current statement. -/
def emit (env : Env) (edge : Edge) : Traced Unit :=
  .record (.edge { edge with statement := env.statement })

def emitAll (env : Env) (edges : List Edge) : Traced Unit :=
  .recordAll (edges.map fun edge => .edge { edge with statement := env.statement })

def gap (env : Env) (line : Nat) (cause : GapCause) : Traced Unit :=
  .record (.gap { statement := env.statement, line, cause })

/-- Make the columns of a table known to later statements. -/
def remember (env : Env) (name : ObjectName) (columns : List String) : Traced Unit :=
  if columns.isEmpty then return
  else .record (.table (tableKey (env.target name)) columns)

/-- What the next statement sees after these events. -/
def after (env : Env) (events : List Event) : Env :=
  events.foldl step env
where
  step (env : Env) : Event → Env
    | .table key columns => { env with tables := (key, columns) :: env.tables }
    | .common table => { env with commons := env.commons.define table }
    | _ => env

end Env

end ColumnFlow
