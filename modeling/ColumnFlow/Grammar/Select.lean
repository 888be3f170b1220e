import ColumnFlow.Grammar.Table

/-!
# Queries
-/

namespace ColumnFlow

namespace Parse

variable (g : Grammar)

/-! ### Common tables -/

/-- `name [(columns)] AS (query)`. -/
def commonTable : Parse CommonTable := do
  let start ← position
  let name ← ident
  let columns ← if ← sees Symbol.lparen then identList else pure []
  require Keyword.AS
  require Symbol.lparen
  let query ← g.innerQuery
  require Symbol.rparen
  return { span := ← spanFrom start, name, columns, query }

def withClause : Parse WithClause := do
  let start ← position
  require Keyword.WITH
  let tables ← separated (commonTable g)
  return { span := ← spanFrom start, tables }

/-! ### Select lists -/

/-- Read `WITH TIES`, if it stands here. -/
def acceptTies : Parse Bool := do
  if (← sees Keyword.WITH) && (← seesNextWord "TIES") then
    advance
    advance
    return true
  else return false

/-- `TOP n` or `TOP (n)`, with `PERCENT` and `WITH TIES`. -/
def top : Parse TopClause := do
  require Keyword.TOP
  let count ← if ← accept Symbol.lparen then do
      let count ← g.expr
      require Symbol.rparen
      pure count
    else primary g
  let percent ← acceptWord "PERCENT"
  let withTies ← acceptTies
  return { count, percent, withTies }

/-- Whether the token after the current one assigns: `=` or a compound form. -/
def seesNextAssign : Parse Bool := do
  let kind := (← get).next.kind
  return kind == Symbol.eq || kind.isCompoundAssign

/-- The alias after an item, if there is one. -/
def itemAlias : Parse String := do
  if ← accept Keyword.AS then aliasAfterAs
  else if (← sees .string) || (← current).isImplicitAlias then takeLiteral
  else return ""

/-- An item of a select list or of an `OUTPUT` list. -/
def selectItem : Parse SelectItem := do
  let start ← position
  if ← accept Symbol.star then
    return .star (← spanFrom start)
  else if (← sees .variableName) && (← seesNextAssign) then
    let name ← takeLiteral
    advance
    let value ← g.expr
    return .assign (← spanFrom start) name value
  else if ((← sees .ident) || (← sees .string)) && (← seesNext Symbol.eq) then
    let aliasName ← takeLiteral
    advance
    let value ← g.expr
    return .value (← spanFrom start) value aliasName
  else
    match ← g.expr with
    | .star _ "" => return .star (← spanFrom start)
    | .star _ table => return .tableStar (← spanFrom start) table
    | value =>
      let aliasName ← itemAlias
      return .value (← spanFrom start) value aliasName

def selectList : Parse (List SelectItem) := separated (selectItem g)

/-! ### Query blocks -/

/-- The expressions after `GROUP BY`. Grouping sets are dropped. -/
def groupBy : Parse (List Expr) := do
  discard <| accept Keyword.ALL
  let found ← separated do
    if (← seesWord "GROUPING") && (← seesNextWord "SETS") then
      advance
      advance
      skipParens
      return none
    else return some (← g.expr)
  if (← sees Keyword.WITH) && ((← seesNextWord "ROLLUP") || (← seesNextWord "CUBE")) then
    advance
    advance
  return found.filterMap id

/-- The clauses of a query block that began at `start`, after `SELECT`. -/
def selectClauses (start : Text.Position) : Parse SelectCore := do
  let distinct ← accept Keyword.DISTINCT
  if !distinct then
    discard <| accept Keyword.ALL
  let top ← if ← sees Keyword.TOP then some <$> top g else pure none
  let columns ← selectList g
  let into ← if ← accept Keyword.INTO then some <$> targetName else pure none
  let source ← if ← sees Keyword.FROM then some <$> fromClause g else pure none
  let filter ← if ← accept Keyword.WHERE then some <$> g.expr else pure none
  let groupBy ← if ← accept Keyword.GROUP then do
      require Keyword.BY
      groupBy g
    else pure []
  let having ← if ← accept Keyword.HAVING then some <$> g.expr else pure none
  return { span := ← spanFrom start, distinct, top, columns, into, source, filter, groupBy, having }

/-- A single `SELECT`. -/
def selectCore : Parse SelectCore := do
  let start ← position
  if ← expect Keyword.SELECT then selectClauses g start else return .missing

/-- An operand of a set operation. One in parentheses joins the chain, without the clauses around its own
body. -/
def selectOperand : Parse SelectBody := do
  let start ← position
  if ← accept Symbol.lparen then
    let inner ← g.query none
    require Symbol.rparen
    return inner.body
  else
    let core ← selectCore g
    return .single (← spanFrom start) core

/-- What a set operation adds to its first operand. -/
def setOperation (start : Text.Position) (first : SelectBody) : Parse SelectBody := do
  let body ← match SetOp.ofToken? (← current).kind with
    | some op => do
      advance
      let all ← accept Keyword.ALL
      let more ← g.selectBody
      pure (SelectBody.append op all more first)
    | none => pure first
  return body.withSpan (← spanFrom start)

/-- Query blocks and set operations. -/
def selectBody : Parse SelectBody := do
  let start ← position
  let first ← selectOperand g
  setOperation g start first

/-- Skip to the end of a `FOR` clause: a parenthesis that closes what stands around it, a new statement or
`OPTION`. -/
def skipForOptions : Parse Unit :=
  discard <| scan 0 fun (depth : Nat) s =>
    let kind := s.current.kind
    if kind.endsBatch then none
    else match kind with
      | .symbol .lparen => some (depth + 1)
      | .symbol .rparen => if depth == 0 then none else some (depth - 1)
      | _ =>
        if depth == 0 && (kind == Symbol.semicolon || kind.startsStatement || kind == Keyword.OPTION) then none
        else some depth

/-- The mode of a trailing `FOR XML`, `FOR JSON`, `FOR BROWSE` or `FOR UPDATE [OF columns]`; the rest is
dropped. -/
def forClause : Parse String := do
  require Keyword.FOR
  let mode := Text.upper (← current).literal
  if ← accept Keyword.UPDATE then
    if ← acceptWord "OF" then
      discard (exprList g)
  else
    advance
    skipForOptions
  return mode

def skipRowWord : Parse Unit := do
  if !(← acceptWord "ROWS") then
    discard <| acceptWord "ROW"

/-- `OPTION (...)`, which is dropped. -/
def skipOption : Parse Unit := do
  if (← sees Keyword.OPTION) && (← seesNext Symbol.lparen) then
    advance
    skipParens

/-- `FETCH NEXT n ROWS ONLY` after an offset. -/
def fetchClause : Parse (Option Expr) := do
  if ← accept Keyword.FETCH then
    if !(← acceptWord "NEXT") then
      requireWord "FIRST"
    let count ← g.expr
    skipRowWord
    requireWord "ONLY"
    return some count
  else return none

/-- Where a query or a statement begins, its `WITH` clause included. -/
def startWith (ctes : Option WithClause) : Parse Text.Position :=
  match ctes with
  | some clause => return clause.span.start
  | none => position

/-- The clauses behind the body of a query. -/
def queryClauses (start : Text.Position) (ctes : Option WithClause) (body : SelectBody) : Parse Query := do
  let orderBy ← if ← sees Keyword.ORDER then orderBy g else pure []
  let hasOffset ← acceptWord "OFFSET"
  let offset ← if hasOffset then do
      let count ← g.expr
      skipRowWord
      pure (some count)
    else pure none
  let fetch ← if hasOffset then fetchClause g else pure none
  let forMode ← if ← sees Keyword.FOR then forClause g else pure ""
  skipOption
  return { span := ← spanFrom start, ctes, body, orderBy, offset, fetch, forMode }

/-- A query with its trailing clauses, given the `WITH` clause in front of it. -/
def query (ctes : Option WithClause) : Parse Query := do
  let start ← startWith ctes
  nested { Query.missing with ctes } do
    let body ← selectBody g
    queryClauses g start ctes body

end Parse

end ColumnFlow
