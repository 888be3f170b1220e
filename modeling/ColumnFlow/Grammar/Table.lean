import ColumnFlow.Grammar.Expression

/-!
# Table sources
-/

namespace ColumnFlow

/-- Hints that may follow a table in parentheses without `WITH`. -/
def legacyHints : List String :=
  ["NOLOCK", "READUNCOMMITTED", "READCOMMITTED", "REPEATABLEREAD", "SERIALIZABLE", "UPDLOCK",
   "HOLDLOCK", "ROWLOCK", "PAGLOCK", "TABLOCK", "TABLOCKX", "XLOCK", "READPAST", "NOWAIT"]

/-- Whether an `ON` condition belongs to the join. -/
def JoinKind.hasCondition : JoinKind → Bool
  | .inner | .left | .right | .full => true
  | .comma | .cross | .crossApply | .outerApply => false

namespace Parse

open Text (Position)

variable (g : Grammar)

/-- `(values), ...`. -/
def valueRows : Parse (List (List Expr)) :=
  separated do
    require Symbol.lparen
    let row ← exprList g
    require Symbol.rparen
    return row

/-! ### Clauses after a table -/

def seesLegacyHint : Parse Bool := do
  let next := (← get).next
  return (← sees Symbol.lparen) && next.kind == .ident && legacyHints.contains (Text.upper next.literal)

/-- The names in a list of hints, up to its end. -/
def hintNames : Parse (List String) := do
  let found ← collect do
    if (← sees Symbol.rparen) || (← sees .eof) then return none
    else if ← sees Symbol.lparen then
      skipParens
      return some none
    else if ← sees .ident then return some (some (Text.upper (← takeLiteral)))
    else
      advance
      return some none
  return found.filterMap id

/-- `WITH (hint, ...)` or the form without `WITH`. -/
def tableHints : Parse (List String) := do
  if (← sees Keyword.WITH) && (← seesNext Symbol.lparen) then
    advance
    bracketed
  else if ← seesLegacyHint then bracketed
  else return []
where
  bracketed : Parse (List String) := do
    require Symbol.lparen
    let hints ← hintNames
    require Symbol.rparen
    return hints

/-- `FOR SYSTEM_TIME ...`, which is dropped. -/
def skipTemporal : Parse Unit := do
  if (← sees Keyword.FOR) && (← seesNextWord "SYSTEM_TIME") then
    advance
    advance
    if ← accept Keyword.AS then
      requireWord "OF"
      discard g.expr
    else if ← accept Keyword.FROM then range
    else if ← acceptWord "CONTAINED" then range
    else if ← accept Keyword.BETWEEN then
      discard (primary g)
      discard <| accept Keyword.AND
      discard (primary g)
    else discard <| accept Keyword.ALL
where
  range : Parse Unit := do
    discard <| accept Keyword.IN
    if ← accept Symbol.lparen then
      discard (exprList g)
      require Symbol.rparen
    else
      discard (primary g)
      if !(← acceptWord "TO") then
        discard <| accept Keyword.AND
      discard (primary g)

/-- `TABLESAMPLE ...`, which is dropped. -/
def skipSample : Parse Unit := do
  if ← acceptWord "TABLESAMPLE" then
    discard <| acceptWord "SYSTEM"
    skipParens
    if ← acceptWord "REPEATABLE" then
      skipParens

/-- The column names of `WITH (name type [path], ...)` after a table function. -/
def withSchema : Parse (List String) := do
  require Keyword.WITH
  require Symbol.lparen
  let columns ← go (← rounds)
  require Symbol.rparen
  return columns
where
  go : Nat → Parse (List String)
    | 0 => cutOff []
    | n + 1 => do
      if (← sees Symbol.rparen) || (← sees .eof) then return []
      else
        let column ← ident
        skipElement
        if ← accept Symbol.comma then return column :: (← go n) else return [column]

/-! ### Kinds of sources -/

/-- The strings among the arguments of a remote source; the other arguments are dropped. -/
def remoteArgs : Parse (List Expr) := do
  if ← sees Symbol.lparen then
    advance
    let (_, found) ← scan (1, []) fun (depth, found) s =>
      if depth == 0 then none
      else match s.current.kind with
        | .eof => none
        | .symbol .lparen => some (depth + 1, found)
        | .symbol .rparen => some (depth - 1, found)
        | .string =>
          let t := s.current
          some (depth, Expr.literal ⟨t.start, t.stop⟩ .string t.literal :: found)
        | _ => some (depth, found)
    return found.reverse
  else
    unexpected "("
    return []

/-- `OPENQUERY(...)`, `OPENROWSET(...)` and `OPENDATASOURCE(...).database.schema.table`. -/
def remoteTable : Parse TableRef := do
  let start ← position
  let kind := (← current).kind.text
  advance
  let args ← remoteArgs
  let object ← if ← sees Symbol.dot then do
      let start ← position
      let parts ← dottedParts
      let name := { ObjectName.ofParts parts with server := "" }
      pure (some { name with span := ← spanFrom start })
    else pure none
  if (← sees Keyword.WITH) && (← seesNext Symbol.lparen) then
    advance
    skipParens
  let aliasName ← tableAlias
  if aliasName != "" && (← sees Symbol.lparen) then
    skipParens
  return .remote (← spanFrom start) kind args object aliasName

/-- A table variable, or a method call on a variable. -/
def variableTable : Parse TableRef := do
  let start ← position
  let name ← takeLiteral
  let span ← spanFrom start
  if (← sees Symbol.dot) && (← seesNext .ident) && (← seesAfterNext Symbol.lparen) then
    advance
    let method ← takeLiteral
    let fn ← funcArgs g (.named "" method)
    let call := { fn with args := .localVar span name :: fn.args, span := ← spanFrom start }
    let (aliasName, columns) ← derivedAlias
    return .function (← spanFrom start) call aliasName columns
  else
    let aliasName ← tableAlias
    return .named (← spanFrom start) { name, span } aliasName []

/-- A table, a view or a table-valued function. -/
def namedTable : Parse TableRef := do
  let start ← position
  let name ← objectName
  if (← sees Symbol.lparen) && !(← seesLegacyHint) then
    let schema := if name.database == "" then name.schema else name.database ++ "." ++ name.schema
    let fn ← funcArgs g (.named schema name.name)
    let call := { fn with span := ← spanFrom start }
    let declared ← if (← sees Keyword.WITH) && (← seesNext Symbol.lparen) then withSchema else pure []
    let (aliasName, columns) ← derivedAlias
    return .function (← spanFrom start) call aliasName (if columns.isEmpty then declared else columns)
  else
    let before ← tableHints
    skipTemporal g
    let aliasName ← tableAlias
    let after ← tableHints
    skipSample
    return .named (← spanFrom start) name aliasName (before ++ after)

def joinHintWords : List String := ["HASH", "LOOP", "REMOTE"]

def seesJoinHint : Parse Bool := do
  let t ← current
  return joinHintWords.any t.isWord || t.kind == Keyword.MERGE

def skipJoinHint : Parse Unit := do
  if ← seesJoinHint then
    advance

/-- The words that announce a join: which one it is, and nothing if none follows. -/
def joinKind : Parse (Option JoinKind) := do
  match (← current).kind with
  | .symbol .comma =>
    advance
    return some .comma
  | .keyword .JOIN =>
    advance
    return some .inner
  | .keyword .INNER =>
    advance
    skipJoinHint
    require Keyword.JOIN
    return some .inner
  | .keyword .LEFT => outer .left
  | .keyword .RIGHT => outer .right
  | .keyword .FULL => outer .full
  | .keyword .CROSS =>
    advance
    if ← accept Keyword.JOIN then return some .cross
    else
      requireWord "APPLY"
      return some .crossApply
  | .keyword .OUTER =>
    if ← seesNextWord "APPLY" then
      advance
      advance
      return some .outerApply
    else return none
  | _ =>
    if (← seesJoinHint) && (← seesNext Keyword.JOIN) then
      advance
      advance
      return some .inner
    else return none
where
  outer (kind : JoinKind) : Parse (Option JoinKind) := do
    advance
    discard <| accept Keyword.OUTER
    skipJoinHint
    require Keyword.JOIN
    return some kind

def join : Parse (Option Join) := do
  let start ← position
  match ← joinKind with
  | none => return none
  | some kind =>
    let right ← g.table
    let condition ← if kind.hasCondition then do
        require Keyword.ON
        some <$> g.expr
      else pure none
    return some { span := ← spanFrom start, kind, right, condition }

def joins : Parse (List Join) := collect (join g)

/-- A derived table, a table of values or a join in parentheses. -/
def parenTable : Parse TableRef := do
  let start ← position
  if (← seesNext Keyword.SELECT) || (← seesNext Keyword.WITH) || ((← seesNext Symbol.lparen) &&
      ((← seesAfterNext Keyword.SELECT) || (← seesAfterNext Keyword.WITH))) then
    advance
    let query ← g.innerQuery
    require Symbol.rparen
    let (aliasName, columns) ← derivedAlias
    return .derived (← spanFrom start) query aliasName columns
  else if ← seesNext Keyword.VALUES then
    advance
    advance
    let rows ← valueRows g
    require Symbol.rparen
    let (aliasName, columns) ← derivedAlias
    return .values (← spanFrom start) rows aliasName columns
  else
    advance
    let source ← g.table
    let joins ← joins g
    let clause := { span := ← spanFrom start, source, joins : FromClause }
    require Symbol.rparen
    return .joined (← spanFrom start) clause

def seesPivot : Parse Bool := do
  return (← seesWord "PIVOT") || (← seesWord "UNPIVOT")

/-- `PIVOT (aggregate FOR values)` and `UNPIVOT`, applied to `source`. -/
def pivot (start : Position) (source : TableRef) : Parse TableRef := do
  let name := Text.upper (← takeLiteral)
  require Symbol.lparen
  let aggregate ← g.expr
  require Keyword.FOR
  let values ← g.expr
  require Symbol.rparen
  let call := { FuncCall.named "" name with args := [aggregate, values], span := ← spanFrom start }
  let (aliasName, columns) ← derivedAlias
  return .pivot (← spanFrom start) call source aliasName columns

/-- The pivots that follow a source. -/
def pivots (start : Position) (source : TableRef) : Parse TableRef := do
  go (← rounds) source
where
  go : Nat → TableRef → Parse TableRef
    | 0, source => cutOff source
    | n + 1, source => do
      if ← seesPivot then go n (← pivot g start source) else return source

/-- A single table source. -/
def tableRef : Parse TableRef :=
  nested .missing do
    let start ← position
    match (← current).kind with
    | .symbol .lparen => pivots g start (← parenTable g)
    | .keyword .OPENQUERY | .keyword .OPENROWSET | .keyword .OPENDATASOURCE =>
      pivots g start (← remoteTable)
    | .variableName => pivots g start (← variableTable g)
    | .ident => pivots g start (← namedTable g)
    | _ =>
      unexpected "table name"
      return .missing

/-- `FROM source join ...`. -/
def fromClause : Parse FromClause := do
  let start ← position
  require Keyword.FROM
  let source ← tableRef g
  let joins ← joins g
  return { span := ← spanFrom start, source, joins }

end Parse

end ColumnFlow
