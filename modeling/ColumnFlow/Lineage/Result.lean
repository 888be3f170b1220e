import ColumnFlow.Grammar.State
import ColumnFlow.Lineage.Edge
import ColumnFlow.Lineage.Risk

/-!
# The lineage of one definition
-/

namespace ColumnFlow

/-- Why a construct that was recognised could not be traced in full. -/
inductive GapCause where
  | rowMismatch (row targets values : Nat)
  | columnMismatch (targets sources : Nat)
  | unexpandedWildcard
  | valuesWithoutColumns
  | execWithoutColumns
  | mergeInsertWithoutColumns
  | unknownTargets
  /-- Among the values of a `MERGE` one is missing. -/
  | missingValue
  deriving DecidableEq, Repr

namespace GapCause

def reason : GapCause → String
  | .rowMismatch .. | .columnMismatch .. => "column_count_mismatch"
  | .unexpandedWildcard => "unresolved_wildcard"
  | .valuesWithoutColumns | .execWithoutColumns | .mergeInsertWithoutColumns | .unknownTargets =>
    "unresolved_target_columns"
  | .missingValue => "internal_error"

def detail : GapCause → String
  | .rowMismatch row targets values => s!"row {row}: {targets} target columns, {values} values"
  | .columnMismatch targets sources => s!"{targets} target columns, {sources} source columns"
  | .unexpandedWildcard => "SELECT * could not be expanded into the target columns"
  | .valuesWithoutColumns => "INSERT VALUES without a column list"
  | .execWithoutColumns => "INSERT EXEC without a column list"
  | .mergeInsertWithoutColumns => "MERGE INSERT without a column list"
  | .unknownTargets => "target columns unknown"
  | .missingValue => "runtime error: invalid memory address or nil pointer dereference"

end GapCause

/-- A construct that was recognised and could not be traced in full. -/
structure Gap where
  statement : Nat
  line : Nat
  cause : GapCause
  deriving DecidableEq, Repr

structure Lineage where
  name : String := ""
  /-- The objects the definition creates. -/
  objects : List String := []
  edges : List Edge := []
  findings : List Finding := []
  parseErrors : List ParseError := []
  gaps : List Gap := []

namespace Lineage

def hasDynamicCode (l : Lineage) : Bool := !l.findings.isEmpty

/-- The highest risk among the findings, low if there are none. -/
def highestRisk (l : Lineage) : RiskLevel := l.findings.foldl (fun risk f => risk.max f.risk) .low

/-- Nothing was found and there are parse errors. No edges without errors is a valid outcome. -/
def hasFailed (l : Lineage) : Bool := l.edges.isEmpty && !l.parseErrors.isEmpty

/-- Every source column that some edge reads, first occurrence first. -/
def distinctSources (l : Lineage) : List SourceColumn :=
  SourceColumn.distinct (l.edges.flatMap (·.sources))

end Lineage

end ColumnFlow
