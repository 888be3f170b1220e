import ColumnFlow.Text.Case
import ColumnFlow.Text.Sorted

/-!
# Catalog of tables

The columns of known tables, found by schema and name without regard to case.
-/

namespace ColumnFlow

/-- A table as a schema file lists it. -/
structure CatalogEntry where
  schema : String
  table : String
  columns : List String
  deriving DecidableEq, Repr

namespace CatalogEntry

def qualifiedName (e : CatalogEntry) : String := e.schema ++ "." ++ e.table

def key (e : CatalogEntry) : String := Text.fold e.qualifiedName

end CatalogEntry

/-- What a schema file says. -/
structure SchemaFile where
  defaultSchema : String := ""
  entries : List CatalogEntry := []

structure Catalog where
  /-- The schema of tables that are looked up without one. -/
  defaultSchema : String
  entries : List CatalogEntry

namespace Catalog

/-- Of the first entry whose key a later entry has, the first such later entry. -/
def duplicate? : List CatalogEntry → Option CatalogEntry
  | [] => none
  | e :: rest =>
    match rest.find? (·.key == e.key) with
    | some other => some other
    | none => duplicate? rest

/-- The catalog of a schema file, unless two of its entries name the same table. The default schema is that of
the file, else `fallback`, else `dbo`. -/
def ofFile (file : SchemaFile) (fallback : String) : Except CatalogEntry Catalog :=
  match duplicate? file.entries with
  | some entry => .error entry
  | none =>
    let defaultSchema := if file.defaultSchema != "" then file.defaultSchema
      else if fallback != "" then fallback
      else "dbo"
    .ok { defaultSchema, entries := file.entries }

/-- The names of all tables in order. -/
def tables (c : Catalog) : List String := sortTexts (c.entries.map (·.qualifiedName))

/-- The columns of a table, in the default schema if none is given. -/
def columns? (c : Catalog) (schema table : String) : Option (List String) :=
  let schema := if schema == "" then c.defaultSchema else schema
  let key := Text.fold (schema ++ "." ++ table)
  (c.entries.find? (·.key == key)).map (·.columns)

end Catalog

end ColumnFlow
