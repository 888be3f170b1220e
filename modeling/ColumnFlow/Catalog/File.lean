import ColumnFlow.Catalog
import ColumnFlow.Yaml.Decode

/-!
# Schema files

A schema file maps schemas to tables to columns, and may name the default schema. It has no other fields.
-/

namespace ColumnFlow

open Yaml (DecodeFault)

namespace SchemaFile

/-- The tables of one schema. -/
def readTables (schema : String) (node : Yaml.Node) : Except DecodeFault (List CatalogEntry) := do
  (← node.readEntries).mapM fun (table, columns) => return { schema, table, columns := ← columns.readTexts }

def readSchemas (node : Yaml.Node) : Except DecodeFault (List CatalogEntry) := do
  let schemas ← (← node.readEntries).mapM fun (schema, tables) => readTables schema tables
  return schemas.flatten

/-- Add one field of the file. -/
def readField (file : SchemaFile) (name : String) (value : Yaml.Node) : Except DecodeFault SchemaFile := do
  match name with
  | "default_schema" => return { file with defaultSchema := ← value.readText }
  | "schemas" => return { file with entries := ← readSchemas value }
  | _ => throw (.unknownField name)

def ofYaml (node : Yaml.Node) : Except DecodeFault SchemaFile := do
  (← node.readEntries).foldlM (fun file (name, value) => file.readField name value) {}

end SchemaFile

end ColumnFlow
