import ColumnFlow.Grammar.Define

/-!
# Control flow, transactions, variables and cursors
-/

namespace ColumnFlow

namespace Parse

variable (g : Grammar)

/-- The statement that `IF`, `ELSE` or `WHILE` governs. -/
def branch : Parse Stmt := do
  if (← current).kind.endsBranch then
    unexpected "statement"
    return .missing
  else g.stmt

/-- `IF condition statement [ELSE statement]`. -/
def ifElse : Parse Stmt := do
  let start ← position
  require Keyword.IF
  let cond ← g.expr
  let yes ← branch g
  if (← sees Symbol.semicolon) && (← seesNext Keyword.ELSE) then
    advance
  let no ← if ← accept Keyword.ELSE then some <$> branch g else pure none
  return .ifElse (← spanFrom start) cond yes no

/-- `WHILE condition statement`. -/
def loop : Parse Stmt := do
  let start ← position
  require Keyword.WHILE
  let cond ← g.expr
  let body ← branch g
  return .loop (← spanFrom start) cond body

/-- `BEGIN statement ... END`. -/
def block : Parse Stmt := do
  let start ← position
  require Keyword.BEGIN
  let body ← blockBody g
  require Keyword.END
  return .block (← spanFrom start) body

/-- `BEGIN TRY ... END TRY BEGIN CATCH ... END CATCH`. -/
def tryCatch : Parse Stmt := do
  let start ← position
  let attempt ← part "TRY"
  let handler ← part "CATCH"
  return .tryCatch (← spanFrom start) attempt handler
where
  part (word : String) : Parse (List Stmt) := do
    require Keyword.BEGIN
    requireWord word
    let body ← blockBody g
    require Keyword.END
    requireWord word
    return body

/-- `BEGIN`, `COMMIT`, `ROLLBACK` or `SAVE` of a transaction, whose name stands on the same line. -/
def transaction : Parse Stmt := do
  let start ← position
  let action := Text.upper (← takeLiteral)
  discard <| acceptWord "DISTRIBUTED"
  if !(← accept Keyword.TRAN) then
    discard <| acceptWord "WORK"
  let name ← if ((← sees .ident) || (← sees .variableName)) && (← get).sameLine then takeLiteral
    else pure ""
  if (← sees Keyword.WITH) && (← seesNextWord "MARK") then
    advance
    advance
    discard <| accept .string
  return .transaction (← spanFrom start) action name

/-- A statement that is recognised and skipped. -/
def other : Parse Stmt := do
  let start ← position
  let keyword := Text.upper (← takeLiteral)
  skipStatement
  return .other (← spanFrom start) keyword

/-- What `BEGIN` starts. -/
def begins : Parse Stmt := do
  if ← seesNextWord "TRY" then tryCatch g
  else if (← seesNext Keyword.TRAN) || (← seesNextWord "DISTRIBUTED") then transaction
  else if (← seesNextWord "CONVERSATION") || (← seesNextWord "DIALOG") then other
  else block g

def inInlineFunction : Parse Bool := return (← get).inlineFunction

/-- `RETURN [value]`. In an inline function the value is a query. -/
def returnStmt : Parse Stmt := do
  let start ← position
  require Keyword.RETURN
  if ((← sees Keyword.SELECT) || (← sees Keyword.WITH)) && (← inInlineFunction) then
    let query ← g.innerQuery
    return .return (← spanFrom start) none (some query)
  else if ← atStatementEnd then return .return (← spanFrom start) none none
  else
    let inline ← inInlineFunction
    let value ← g.expr
    match value.unparen with
    | .subquery _ query =>
      if inline then return .return (← spanFrom start) none (some query)
      else return .return (← spanFrom start) (some value) none
    | _ => return .return (← spanFrom start) (some value) none

/-- `RAISERROR (args) [WITH options]` or `THROW [args]`. -/
def raise : Parse Stmt := do
  let start ← position
  let keyword := Text.upper (← takeLiteral)
  if keyword == "RAISERROR" then
    require Symbol.lparen
    let args ← exprList g
    require Symbol.rparen
    if ← accept Keyword.WITH then
      skipWhile do
        if ← accept .ident then accept Symbol.comma else return false
    return .raise (← spanFrom start) keyword args
  else if ← atStatementEnd then return .raise (← spanFrom start) keyword []
  else
    let args ← exprList g
    return .raise (← spanFrom start) keyword args

def print : Parse Stmt := do
  let start ← position
  advance
  let value ← g.expr
  return .print (← spanFrom start) value

/-- `SET option words`, where the words stand on one line. -/
def setOption (start : Text.Position) : Parse Stmt := do
  let option := Text.upper (← takeLiteral)
  let words ← collect do
    let s ← get
    let kind := s.current.kind
    if kind.endsBatch || kind == Symbol.semicolon || !s.sameLine || kind.startsStatement then return none
    else return some (← takeLiteral)
  return .setOption (← spanFrom start) option (" ".intercalate words)

/-- `SET @variable op value` or a session option. A cursor as the value is dropped. -/
def set : Parse Stmt := do
  let start ← position
  require Keyword.SET
  if (← sees .variableName) && (← seesNextAssign) then
    let variableName ← takeLiteral
    let op ← assignOp
    if ← sees Keyword.CURSOR then
      skipStatement
      return .setVariable (← spanFrom start) variableName op none
    else
      let value ← g.expr
      return .setVariable (← spanFrom start) variableName op (some value)
  else setOption start

/-! ### Cursors -/

/-- Which row a `FETCH` asks for. -/
def skipFetchRow : Parse Unit := do
  if ["NEXT", "PRIOR", "FIRST", "LAST"].any (← current).isWord then
    advance
  else if ["ABSOLUTE", "RELATIVE"].any (← current).isWord then
    advance
    discard g.expr
  discard <| accept Keyword.FROM

/-- `@variable, ...`, which ends where no variable follows. -/
def variableNames : Parse (List String) := do
  go (← rounds)
where
  go : Nat → Parse (List String)
    | 0 => cutOff []
    | n + 1 => do
      if ← sees .variableName then
        let name ← takeLiteral
        if ← accept Symbol.comma then return name :: (← go n) else return [name]
      else return []

def cursorName : Parse String := do
  if (← sees .ident) || (← sees .variableName) then takeLiteral
  else
    expectedIdentifier
    return ""

/-- `OPEN`, `CLOSE`, `DEALLOCATE` and `FETCH`. -/
def cursor : Parse Stmt := do
  let start ← position
  let isFetch ← sees Keyword.FETCH
  let action := Text.upper (← takeLiteral)
  if isFetch then
    skipFetchRow g
  discard <| acceptWord "GLOBAL"
  let name ← cursorName
  let hasInto ← if isFetch then accept Keyword.INTO else pure false
  let into ← if hasInto then variableNames else pure []
  return .cursor (← spanFrom start) action name into

/-! ### Jumps -/

/-- `BREAK` or `CONTINUE`. -/
def jump : Parse Stmt := do
  let start ← position
  let keyword := Text.upper (← takeLiteral)
  return .control (← spanFrom start) keyword ""

def goto : Parse Stmt := do
  let start ← position
  advance
  let label ← ident
  return .control (← spanFrom start) "GOTO" label

/-- `label:`. -/
def label : Parse Stmt := do
  let start ← position
  let name ← takeLiteral
  advance
  return .control (← spanFrom start) "LABEL" name

def useDatabase : Parse Stmt := do
  let start ← position
  advance
  let database ← ident
  return .use (← spanFrom start) database

end Parse

end ColumnFlow
