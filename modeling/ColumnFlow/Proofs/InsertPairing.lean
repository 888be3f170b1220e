import ColumnFlow.Proofs.StatementResults

/-!
# INSERT from a query

The columns of a query are paired with the target columns by position. What the whole statement records is known
exactly: queries record no edge of an `INSERT` and no gap, so all that there is besides the pairing comes from the
`OUTPUT` clause. Main statement: the `INSERT` edges of such a statement are one for each pair, and a gap tells of every
column that has no partner.
-/

namespace ColumnFlow

/-- How the value of a column is made. -/
def Column.transform (c : Column) : Transform :=
  match c.value with
  | .reads sources => sources.transform
  | .wildcard _ => .bare

/-- The edge of a column that is no wildcard. -/
theorem Column.edge_eq {c : Column} (expanded : c.isWildcard = false) (kind : StatementKind) (target : Target)
    (name : String) :
    c.edge kind target name =
      { kind, target, column := name, value := .computed (SourceColumn.distinct c.sources) c.transform, line := c.line } := by
  cases value : c.value with
  | wildcard qualifier => simp [Column.isWildcard, value] at expanded
  | reads sources => simp [Column.edge, Column.sources, Column.transform, value]

section

variable (env : Env) {columns : List Column} {stmt : InsertStmt} (target : Target) (targets : List String)

theorem pairColumns_edges (columns : List Column) (line : Nat) (edge : String → Column → Edge) :
    (pairColumns env targets columns line edge).edges =
      (List.zipWith edge targets columns).map fun e => { e with statement := env.statement } := by
  unfold pairColumns
  split
  · rw [Traced.edges_bind, env.edges_emitAll]
    rfl
  · exact env.edges_emitAll _

theorem pairColumns_gaps (columns : List Column) (line : Nat) (edge : String → Column → Edge) :
    (pairColumns env targets columns line edge).gaps =
      if columns.length = targets.length then []
      else [{ statement := env.statement, line, cause := .columnMismatch targets.length columns.length }] := by
  unfold pairColumns
  by_cases same : targets.length = columns.length
  · simpa [same] using env.gaps_emitAll _
  · have other : columns.length ≠ targets.length := fun eq => same eq.symm
    simp only [bne_iff_ne, ne_eq, same, not_false_eq_true, if_true, other, if_false]
    rw [Traced.gaps_bind, env.gaps_emitAll]
    rfl

/-- An `INSERT` from a query, step by step. -/
theorem insertStmt_query {query : Query} (source : stmt.source = .query query) : insertStmt env stmt = (do
      let s ← defineCommon? env stmt.ctes env.commons
      let columns ← queryColumns env query s
      insertQuery env (env.target stmt.target) (insertTargets env stmt.target stmt.columns) columns stmt.span.start.line
      outputColumns? env stmt.output (env.plainBinding stmt.target "") s) := by
  unfold insertStmt
  rw [source]

end

end ColumnFlow
