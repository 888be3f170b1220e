import ColumnFlow.Grammar.Select

/-!
# Statements that write data or run procedures
-/

namespace ColumnFlow

namespace Parse

open Text (Position)

variable (g : Grammar)

/-- `(column, ...)`. The list ends at the first column that cannot be read. -/
def columnList : Parse (List ColumnRef) := do
  require Symbol.lparen
  let columns ← go (← rounds)
  require Symbol.rparen
  return columns
where
  go : Nat → Parse (List ColumnRef)
    | 0 => cutOff []
    | n + 1 => do
      let start ← position
      if ← sees .ident then
        let first ← takeLiteral
        let more ← collect do
          if ← accept Symbol.dot then return some (← namePart) else return none
        let column := { ColumnRef.ofParts (first :: more) with span := ← spanFrom start }
        if ← accept Symbol.comma then return column :: (← go n) else return [column]
      else
        expectedIdentifier
        return []

/-- `OUTPUT items [INTO table [(columns)]]`. -/
def outputClause : Parse OutputClause := do
  let start ← position
  requireWord "OUTPUT"
  let columns ← selectList g
  if ← accept Keyword.INTO then
    let into ← targetName
    let intoColumns ← if ← sees Symbol.lparen then columnList else pure []
    return { span := ← spanFrom start, columns, into := some into, intoColumns }
  else return { span := ← spanFrom start, columns, into := none, intoColumns := [] }

def optionalOutput : Parse (Option OutputClause) := do
  if ← seesWord "OUTPUT" then some <$> outputClause g else return none

def optionalTop : Parse (Option TopClause) := do
  if ← sees Keyword.TOP then some <$> top g else return none

def optionalFrom : Parse (Option FromClause) := do
  if ← sees Keyword.FROM then some <$> fromClause g else return none

/-- `WHERE condition`. `WHERE CURRENT OF cursor` is dropped. -/
def rowFilter : Parse (Option Expr) := do
  if ← accept Keyword.WHERE then
    if (← seesWord "CURRENT") && (← seesNextWord "OF") then
      advance
      advance
      discard <| acceptWord "GLOBAL"
      if (← sees .ident) || (← sees .variableName) then
        advance
      return none
    else return some (← g.expr)
  else return none

/-! ### Assignments -/

/-- `=` or a compound assignment. -/
def assignOp : Parse Symbol := do
  match (← current).kind with
  | .symbol s =>
    if s == .eq || s.isCompoundAssign then
      advance
      return s
    else missing
  | _ => missing
where
  missing : Parse Symbol := do
    unexpected "="
    return .eq

/-- The column of `@variable = column = value`, after the first `=`. -/
def chainedColumn (op : Symbol) : Parse (Option ColumnRef) := do
  if op == .eq && (← sees .ident) && (← seesNext Symbol.eq) then
    let t ← current
    advance
    advance
    return some { column := t.literal, span := ⟨t.start, t.stop⟩ }
  else return none

/-- `column op value`, `@variable op value` or `@variable = column = value`. -/
def setClause : Parse SetClause := do
  let start ← position
  if ← sees .variableName then
    let variableName ← takeLiteral
    let op ← assignOp
    let column ← chainedColumn op
    let value ← g.expr
    return { span := ← spanFrom start, column, variableName, op, value }
  else if ← sees .ident then
    match ← identExpr g with
    | .column ref =>
      let op ← assignOp
      let value ← g.expr
      return { span := ← spanFrom start, column := some ref, variableName := "", op, value }
    | _ =>
      report .expectedSetColumn
      return nothing
  else
    expectedIdentifier
    return nothing
where
  nothing : SetClause :=
    { span := .unset, column := none, variableName := "", op := .eq, value := .missing }

def setList : Parse (List SetClause) := separated (setClause g)

/-! ### Procedure calls -/

def isOutput : Parse Bool := do
  if ← acceptWord "OUTPUT" then return true else acceptWord "OUT"

/-- `[@name =] value [OUTPUT]` or `[@name =] DEFAULT`. -/
def execParam : Parse ExecParam := do
  let start ← position
  let name ← if (← sees .variableName) && (← seesNext Symbol.eq) then do
      let name ← takeLiteral
      advance
      pure name
    else pure ""
  let value ← if ← accept Keyword.DEFAULT then pure none else some <$> g.expr
  let output ← isOutput
  return { span := ← spanFrom start, name, value, output }

/-- `WITH RECOMPILE` or `WITH RESULT SETS` after a call. -/
def seesExecOptions : Parse Bool := do
  return (← sees Keyword.WITH) && ((← seesNextWord "RECOMPILE") || (← seesNextWord "RESULT"))

/-- Whether the call has no arguments, or no more of them. -/
def atExecEnd : Parse Bool := do
  let t ← current
  return t.kind.endsStatement || t.kind == Symbol.rparen || (← seesExecOptions) || t.isWord "THROW"
    || (t.kind == .ident && (← seesNext Symbol.colon))

def skipExecOptions : Parse Unit := do
  if ← seesExecOptions then
    advance
    discard <| separated do
      if ← acceptWord "RESULT" then
        requireWord "SETS"
        if !(← acceptWord "NONE") then
          if !(← acceptWord "UNDEFINED") then
            skipWhile do
              if ← sees Symbol.lparen then
                skipParens
                accept Symbol.comma
              else return false
      else requireWord "RECOMPILE"

/-- `EXEC (text, arguments) [AS LOGIN = name] [AT server]`, after the opening parenthesis. -/
def execText (start : Position) : Parse ExecStmt := do
  let sql ← g.expr
  let params ← collect do
    if ← accept Symbol.comma then
      let start ← position
      let value ← g.expr
      let span ← spanFrom start
      let output ← isOutput
      return some { span, name := "", value := some value, output : ExecParam }
    else return none
  require Symbol.rparen
  if (← sees Keyword.AS) && ((← seesNextWord "LOGIN") || (← seesNextWord "USER")) then
    advance
    advance
    require Symbol.eq
    require .string
  let server ← if ← acceptWord "AT" then do
      discard <| acceptWord "DATA_SOURCE"
      ident
    else pure ""
  return { span := ← spanFrom start, returnVariable := "", target := .text sql server, params }

/-- `;number` behind the name of a procedure, on the same line. -/
def skipProcNumber : Parse Unit := do
  let s ← get
  if s.current.kind == Symbol.semicolon && s.next.kind == .number && s.next.start.line == s.current.start.line then
    advance
    advance

def execTarget : Parse ExecTarget := do
  if ← sees .variableName then return .localVar (← takeLiteral)
  else
    let name ← objectName
    skipProcNumber
    return .procedure name

/-- `EXEC` in all its forms. -/
def exec : Parse ExecStmt := do
  let start ← position
  require Keyword.EXEC
  if ← accept Symbol.lparen then execText g start
  else
    let returnVariable ← if (← sees .variableName) && (← seesNext Symbol.eq) then do
        let name ← takeLiteral
        advance
        pure name
      else pure ""
    let target ← execTarget
    let params ← if ← atExecEnd then pure [] else separated (execParam g)
    skipExecOptions
    return { span := ← spanFrom start, returnVariable, target, params }

/-! ### INSERT, UPDATE, DELETE -/

/-- Where the rows of an `INSERT` come from. -/
def insertSource : Parse InsertSource := do
  if ← accept Keyword.VALUES then return .values (← valueRows g)
  else if (← sees Keyword.SELECT) || (← sees Symbol.lparen) then return .query (← g.query none)
  else if ← sees Keyword.WITH then return .query (← g.innerQuery)
  else if ← sees Keyword.EXEC then return .exec (← exec g)
  else if ← accept Keyword.DEFAULT then
    require Keyword.VALUES
    return .defaults
  else
    unexpected "VALUES, SELECT, EXEC or DEFAULT VALUES"
    return .missing

def insert (ctes : Option WithClause) : Parse Stmt := do
  let start ← startWith ctes
  require Keyword.INSERT
  let top ← optionalTop g
  discard <| accept Keyword.INTO
  let target ← targetName
  discard tableHints
  let columns ← if (← sees Symbol.lparen) && !(← seesNext Keyword.SELECT) && !(← seesNext Keyword.WITH)
    then columnList
    else pure []
  let output ← optionalOutput g
  let source ← insertSource g
  return .insert { span := ← spanFrom start, ctes, top, target, columns, output, source }

def update (ctes : Option WithClause) : Parse Stmt := do
  let start ← startWith ctes
  require Keyword.UPDATE
  let top ← optionalTop g
  let target ← targetName
  discard tableHints
  require Keyword.SET
  let sets ← setList g
  let output ← optionalOutput g
  let source ← optionalFrom g
  let filter ← rowFilter g
  skipOption
  return .update { span := ← spanFrom start, ctes, top, target, sets, output, source, filter }

def delete (ctes : Option WithClause) : Parse Stmt := do
  let start ← startWith ctes
  require Keyword.DELETE
  let top ← optionalTop g
  discard <| accept Keyword.FROM
  let target ← targetName
  discard tableHints
  let output ← optionalOutput g
  let source ← optionalFrom g
  let filter ← rowFilter g
  skipOption
  return .delete { span := ← spanFrom start, ctes, top, target, output, source, filter }

/-! ### MERGE -/

/-- `[NOT] MATCHED [BY TARGET | BY SOURCE]`. -/
def mergeMatch : Parse MergeMatch := do
  if ← accept Keyword.NOT then
    requireWord "MATCHED"
    if ← accept Keyword.BY then
      if ← acceptWord "SOURCE" then return .notMatchedBySource
      else
        requireWord "TARGET"
        return .notMatchedByTarget
    else return .notMatchedByTarget
  else
    requireWord "MATCHED"
    return .matched

/-- What a clause does with its rows. -/
def mergeDo : Parse MergeDo := do
  if ← accept Keyword.UPDATE then
    require Keyword.SET
    return .update (← setList g)
  else if ← accept Keyword.DELETE then return .delete
  else if ← accept Keyword.INSERT then
    let columns ← if ← sees Symbol.lparen then columnList else pure []
    if ← accept Keyword.DEFAULT then
      require Keyword.VALUES
      return .insertDefaults columns
    else
      require Keyword.VALUES
      require Symbol.lparen
      let values ← exprList g
      require Symbol.rparen
      return .insert columns values
  else
    unexpected "UPDATE, DELETE or INSERT"
    return .update []

def mergeWhen : Parse MergeWhen := do
  let start ← position
  require Keyword.WHEN
  let rows ← mergeMatch
  let condition ← if ← accept Keyword.AND then some <$> g.expr else pure none
  require Keyword.THEN
  let action ← mergeDo g
  return { span := ← spanFrom start, rows, condition, action }

/-- The clauses of a `MERGE`, up to the first one with a fault. -/
def mergeWhens : Parse (List MergeWhen) := do
  go (← rounds)
where
  go : Nat → Parse (List MergeWhen)
    | 0 => cutOff []
    | n + 1 => do
      if ← sees Keyword.WHEN then
        let clause ← mergeWhen g
        if (← get).failed then return [clause] else return clause :: (← go n)
      else return []

def merge (ctes : Option WithClause) : Parse Stmt := do
  let start ← startWith ctes
  require Keyword.MERGE
  discard (optionalTop g)
  discard <| accept Keyword.INTO
  let target ← targetName
  discard tableHints
  let targetAlias ← tableAlias
  requireWord "USING"
  let source ← tableRef g
  require Keyword.ON
  let on ← g.expr
  let whens ← mergeWhens g
  if whens.isEmpty then
    unexpected "WHEN"
  let output ← optionalOutput g
  skipOption
  return .merge { span := ← spanFrom start, ctes, target, targetAlias, source, on, whens, output }

end Parse

end ColumnFlow
