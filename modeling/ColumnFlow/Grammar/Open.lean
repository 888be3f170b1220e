import ColumnFlow.Grammar.State
import ColumnFlow.Syntax.Statement

/-!
# Open recursion

The productions call each other in cycles. Each cycle passes through one of the entry points collected here,
so a production is an ordinary function of the entry points, and the cycles are closed in one place. Between
two entry points of a cycle at least one token is read.
-/

namespace ColumnFlow

structure Grammar where
  /-- An expression whose outermost operator binds at least as tightly as the given level. -/
  exprAt : Nat → Parse Expr
  withClause : Parse WithClause
  /-- A query, given the `WITH` clause in front of it. -/
  query : Option WithClause → Parse Query
  /-- Query blocks with set operations between them. -/
  selectBody : Parse SelectBody
  table : Parse TableRef
  stmt : Parse Stmt

namespace Grammar

/-- Reads nothing. -/
def stuck : Grammar where
  exprAt _ := return .missing
  withClause := return { span := .unset, tables := [] }
  query _ := return .missing
  selectBody := return .single .unset .missing
  table := return .missing
  stmt := return .missing

def expr (g : Grammar) : Parse Expr := g.exprAt 1

/-- A query with its own `WITH` clause, if it has one. -/
def innerQuery (g : Grammar) : Parse Query := do
  if ← Parse.sees Keyword.WITH then g.query (some (← g.withClause))
  else g.query none

end Grammar

end ColumnFlow
