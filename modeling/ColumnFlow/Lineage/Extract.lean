import ColumnFlow.Grammar.Script
import ColumnFlow.Lineage.Dynamic

/-!
# Extraction

The lineage of a text, and of many definitions. Definitions are independent of each other, so their results
can be computed in any order; they are listed in the order of the definitions.
-/

namespace ColumnFlow

/-- The columns of a table, given its schema and name. -/
abbrev Resolver := String → String → Option (List String)

structure ExtractOptions where
  /-- Assumed for permanent tables that are named without a schema; `dbo` if empty. -/
  defaultSchema : String := ""
  resolver : Resolver := fun _ _ => none

def ExtractOptions.env (options : ExtractOptions) : Env :=
  { defaultSchema := if options.defaultSchema == "" then "dbo" else options.defaultSchema
    resolve := options.resolver }

def Event.edge? : Event → Option Edge
  | .edge e => some e
  | _ => none

def Event.gap? : Event → Option Gap
  | .gap g => some g
  | _ => none

def Event.object? : Event → Option String
  | .object name => some name
  | _ => none

/-- The lineage of a script that was read with these errors. Without a script there are only the errors. -/
def extract (script : Option Script) (parseErrors : List ParseError) (options : ExtractOptions) : Lineage :=
  match script with
  | none => { parseErrors }
  | some script =>
    let events := options.env.extractBatches script.batches
    { objects := events.filterMap Event.object?
      edges := events.filterMap Event.edge?
      findings := script.findings
      parseErrors
      gaps := events.filterMap Event.gap? }

/-- The lineage of a text. -/
def extractText (source : String) (options : ExtractOptions) : Lineage :=
  let (script, errors) := parse source
  extract script errors options

/-- One named piece of code. -/
structure Definition where
  name : String
  sql : String
  /-- Overrides the default schema of the options, unless empty. -/
  defaultSchema : String := ""

namespace Definition

def lineage (d : Definition) (options : ExtractOptions) : Lineage :=
  let schema := if d.defaultSchema == "" then options.defaultSchema else d.defaultSchema
  { extractText d.sql { options with defaultSchema := schema } with name := d.name }

end Definition

/-- The results of all definitions, in their order. -/
def extractAll (definitions : List Definition) (options : ExtractOptions) : List Lineage :=
  definitions.map (·.lineage options)

end ColumnFlow
