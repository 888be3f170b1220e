import ColumnFlow.Json.Value
import ColumnFlow.Lineage.Result

/-!
# Lineage as JSON
-/

namespace ColumnFlow

open JsonValue (ofNat textField flagField listField texts)

def SourceColumn.json (c : SourceColumn) : JsonValue :=
  .record <| ("column", .text c.column) :: textField "table_alias" c.qualifier
    ++ textField "database" c.database ++ textField "schema" c.schema ++ textField "table" c.table
    ++ textField "kind" ((c.kind.map TableKind.text).getD "") ++ flagField "ambiguous" c.ambiguous

def Edge.json (e : Edge) : JsonValue :=
  .record <| ("statement_kind", .text e.kind.text) :: textField "target_schema" e.target.schema
    ++ textField "target_table" e.target.table
    ++ [("target_column", .text e.column), ("source_columns", .list (e.sources.map SourceColumn.json))]
    ++ textField "transformation" e.transform.text ++ flagField "is_wildcard" e.isWildcard
    ++ textField "wildcard_qualifier" e.wildcardQualifier ++ flagField "is_literal_source" e.isLiteral
    ++ flagField "is_dynamic_source" e.isDynamic ++ flagField "is_delete" e.isRemoval
    ++ textField "merge_action" ((e.merge.map (·.1.text)).getD "")
    ++ textField "condition_type" ((e.merge.map (·.2.text)).getD "")
    ++ textField "assignment_operator" ((e.operator.map Symbol.text).getD "")
    ++ [("statement_index", ofNat e.statement), ("line", ofNat e.line)]

/-- The fields of a finding. -/
def Finding.fields (f : Finding) : List (String × JsonValue) :=
  [("kind", .text f.kind.text), ("pattern", .text f.pattern), ("line", ofNat f.line),
   ("column", ofNat f.column), ("risk", .text f.risk.text), ("statement_index", ofNat f.statement)]

def Finding.json (f : Finding) : JsonValue := .record f.fields

def ParseError.json (e : ParseError) : JsonValue :=
  .record [
    ("Pos", .record [("Line", ofNat e.position.line), ("Column", ofNat e.position.column),
      ("Offset", ofNat e.position.offset)]),
    ("Message", .text e.message)]

def Gap.json (g : Gap) : JsonValue :=
  .record <| [("statement_index", ofNat g.statement), ("line", ofNat g.line),
    ("reason", .text g.cause.reason)] ++ textField "detail" g.cause.detail

/-- The fields of a result, those that are empty left out except edges and findings. -/
def Lineage.fields (l : Lineage) : List (String × JsonValue) :=
  textField "name" l.name ++ listField "objects" (l.objects.map .text)
    ++ [("edges", .list (l.edges.map Edge.json)), ("findings", .list (l.findings.map Finding.json))]
    ++ listField "parse_errors" (l.parseErrors.map ParseError.json) ++ listField "gaps" (l.gaps.map Gap.json)

def Lineage.json (l : Lineage) : JsonValue := .record l.fields

def RiskPattern.json (p : RiskPattern) : JsonValue :=
  .record [("kind", .text p.kind.text), ("risk", .text p.risk.text), ("construct", .text p.construct),
    ("description", .text p.description), ("example", .text p.sample)]

end ColumnFlow
