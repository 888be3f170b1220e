import ColumnFlow.Grammar.Modify

/-!
# Statement lists and definitions

A list of statements goes on after a statement with a fault: the statement is dropped, and reading resumes
where the next one can begin. The body of a module is a list that runs to the end of its batch.
-/

namespace ColumnFlow

namespace Parse

open Text (Position)

variable (g : Grammar)

/-! ### Lists of statements -/

/-- Faults met in `m` are its own: whether the statement around it has one is not changed. -/
def apart {α : Type} (m : Parse α) : Parse α := do
  let outer := (← get).failed
  modify fun s => { s with failed := false }
  let result ← m
  modify fun s => { s with failed := outer }
  return result

/-- The statement that has been read, which began at `start`. It is dropped if it has a fault. -/
def recovered (start : Token) (stmt : Stmt) : Parse (Option Stmt) := do
  if (← get).failed then
    synchronize start
    return none
  else
    discard <| accept Symbol.semicolon
    return if stmt.isMissing then none else some stmt

/-- One round of a list: a statement, or nothing for a stray semicolon or a fault. -/
def listItem : Parse (Option Stmt) := do
  if ← accept Symbol.semicolon then return none
  else
    let start ← current
    apart do recovered start (← g.stmt)

/-- Statements up to the end of the batch or a token for which `stop` holds. -/
def stmtList (stop : TokenKind → Bool) : Parse (List Stmt) := do
  let found ← collect do
    let kind := (← current).kind
    if kind.endsBatch || stop kind then return none
    else return some (← listItem g)
  return found.filterMap id

def moduleBody : Parse (List Stmt) := stmtList g fun _ => false

/-- Statements up to `END`. -/
def blockBody : Parse (List Stmt) := stmtList g (· == Keyword.END)

/-! ### Headers of modules -/

/-- One option after `WITH`, such as `EXECUTE AS OWNER` or `RETURNS NULL ON NULL INPUT`. -/
def skipModuleOption : Parse Bool := do
  if ← accept Keyword.EXEC then
    require Keyword.AS
    advance
    return true
  else if ← acceptWord "RETURNS" then
    discard <| scan () fun _ s =>
      if s.current.kind == .eof || s.current.isWord "INPUT" then none else some ()
    advance
    return true
  else if (← sees .ident) && (← seesNext Symbol.eq) then
    advance
    advance
    advance
    return true
  else if ← accept .ident then return true
  else
    unexpected "option"
    return false

def skipModuleOptions : Parse Unit :=
  skipWhile do
    if ← skipModuleOption then accept Symbol.comma else return false

def optionalModuleOptions : Parse Unit := do
  if ← accept Keyword.WITH then
    skipModuleOptions

/-- One parameter: `@name [AS] type [= default] [OUTPUT] [READONLY]`. -/
def paramDef : Parse ParamDef := do
  let name ← takeLiteral
  discard <| accept Keyword.AS
  let typeName ← if ← accept Keyword.CURSOR then pure "CURSOR" else dataType
  discard <| acceptWord "VARYING"
  let default ← if ← accept Symbol.eq then some <$> g.expr else pure none
  let output ← isOutput
  let readOnly ← acceptWord "READONLY"
  return { name, typeName, default, output, readOnly }

/-- The parameters of a module, which end where no variable follows. -/
def paramDefs : Parse (List ParamDef) := do
  go (← rounds)
where
  go : Nat → Parse (List ParamDef)
    | 0 => cutOff []
    | n + 1 => do
      if ← sees .variableName then
        let param ← paramDef g
        if ← accept Symbol.comma then return param :: (← go n) else return [param]
      else return []

/-! ### Columns of tables -/

def constraintWords : List String :=
  ["CONSTRAINT", "PRIMARY", "UNIQUE", "FOREIGN", "CHECK", "INDEX", "PERIOD"]

/-- Whether a table constraint starts here, rather than a column. -/
def seesConstraint : Parse Bool := do
  let t ← current
  return t.kind == .ident && !t.quoted && constraintWords.contains (Text.upper t.literal)

/-- One element of a table definition: a column, or nothing for a constraint. -/
def columnDef : Parse (Option ColumnDef) := do
  if ← seesConstraint then
    skipElement
    return none
  else
    let name ← ident
    if ← accept Keyword.AS then
      let computed ← g.expr
      skipElement
      return some { name, typeName := "", computed := some computed }
    else
      let typeName ← dataType
      skipElement
      return some { name, typeName, computed := none }

/-- `(column, ...)` of a table definition. -/
def columnDefs : Parse (List ColumnDef) := do
  require Symbol.lparen
  let found ← go (← rounds)
  require Symbol.rparen
  return found.filterMap id
where
  go : Nat → Parse (List (Option ColumnDef))
    | 0 => cutOff []
    | n + 1 => do
      if (← sees Symbol.rparen) || (← sees .eof) then return []
      else
        let column ← columnDef g
        if ← accept Symbol.comma then return column :: (← go n) else return [column]

/-! ### Definitions -/

/-- The rest of `CREATE PROCEDURE`. -/
def createProc (start : Position) (alter : Bool) : Parse Stmt := do
  require Keyword.PROC
  let name ← objectName
  if (← sees Symbol.semicolon) && (← seesNext .number) then
    advance
    advance
  let params ← if ← accept Symbol.lparen then do
      let params ← paramDefs g
      require Symbol.rparen
      pure params
    else paramDefs g
  optionalModuleOptions
  if (← sees Keyword.FOR) && (← seesNextWord "REPLICATION") then
    advance
    advance
  if ← expect Keyword.AS then
    let body ← moduleBody g
    return .createProc (← spanFrom start) alter name params body
  else return .missing

/-- The rest of `CREATE VIEW`. -/
def createView (start : Position) (alter : Bool) : Parse Stmt := do
  require Keyword.VIEW
  let name ← objectName
  let columns ← if ← sees Symbol.lparen then identList else pure []
  optionalModuleOptions
  if ← expect Keyword.AS then
    let query ← g.innerQuery
    if (← sees Keyword.WITH) && (← seesNextWord "CHECK") && (← seesAfterNext Keyword.OPTION) then
      advance
      advance
      advance
    return .createView (← spanFrom start) alter name columns query
  else return .missing

/-- The body of a function. An inline function returns a query. -/
def functionBody (inline : Bool) : Parse (List Stmt) := do
  if inline then
    modify fun s => { s with inlineFunction := true }
    let body ← moduleBody g
    modify fun s => { s with inlineFunction := false }
    return body
  else moduleBody g

/-- What a function returns. -/
structure Returns where
  type : String
  table : String := ""
  columns : List ColumnDef := []
  inline : Bool := false

def returns : Parse Returns := do
  requireWord "RETURNS"
  if ← sees .variableName then
    let table ← takeLiteral
    require Keyword.TABLE
    let columns ← columnDefs g
    return { type := "TABLE", table, columns }
  else if ← accept Keyword.TABLE then return { type := "TABLE", inline := true }
  else return { type := ← dataType }

/-- The rest of `CREATE FUNCTION`. -/
def createFunction (start : Position) (alter : Bool) : Parse Stmt := do
  require Keyword.FUNCTION
  let name ← objectName
  require Symbol.lparen
  let params ← if ← sees Symbol.rparen then pure [] else paramDefs g
  require Symbol.rparen
  let result ← returns g
  optionalModuleOptions
  discard <| accept Keyword.AS
  let body ← functionBody g result.inline
  let header :=
    { alter, name, params, returnType := result.type, returnTable := result.table
      tableColumns := result.columns }
  return .createFunction (← spanFrom start) header body

/-- One event of a trigger, or nothing for a comma and for the options among the events. -/
def triggerEvent : Parse (Option String) := do
  if ← accept Symbol.comma then return none
  else if (← sees Keyword.WITH) && (← seesNextWord "APPEND") then
    advance
    advance
    return none
  else if (← sees Keyword.NOT) && (← seesNext Keyword.FOR) then
    advance
    advance
    advance
    return none
  else return some (Text.upper (← takeLiteral))

/-- The events a trigger reacts to, up to `AS`. -/
def triggerEvents : Parse (List String) := do
  let found ← collect do
    let kind := (← current).kind
    if kind == Keyword.AS || kind.endsBatch then return none
    else return some (← triggerEvent)
  return found.filterMap id

/-- The rest of `CREATE TRIGGER`. -/
def createTrigger (start : Position) (alter : Bool) : Parse Stmt := do
  require Keyword.TRIGGER
  let name ← objectName
  require Keyword.ON
  let table ← if (← sees Keyword.ALL) || (← seesWord "DATABASE") then do
      discard <| accept Keyword.ALL
      advance
      pure none
    else some <$> objectName
  optionalModuleOptions
  if ← announced then
    let events ← triggerEvents
    if ← expect Keyword.AS then
      let body ← moduleBody g
      return .createTrigger (← spanFrom start) alter name table events body
    else return .missing
  else return .missing
where
  announced : Parse Bool := do
    if ← accept Keyword.FOR then return true
    else if ← acceptWord "AFTER" then return true
    else if ← acceptWord "INSTEAD" then
      requireWord "OF"
      return true
    else
      unexpected "FOR, AFTER or INSTEAD OF"
      return false

/-- The rest of `CREATE TABLE`. -/
def createTable (start : Position) : Parse Stmt := do
  require Keyword.TABLE
  let name ← objectName
  if (← sees Keyword.AS) || (← seesWord "FILETABLE") then
    skipStatement
    return .createTable (← spanFrom start) name []
  else
    let columns ← columnDefs g
    if !(← atStatementEnd) then
      skipStatement
    return .createTable (← spanFrom start) name columns

/-- `CREATE` and `ALTER`. What is not a module or a new table is skipped. -/
def create : Parse Stmt := do
  let start ← position
  let keyword := Text.upper (← current).literal
  let isAlter ← sees Keyword.ALTER
  advance
  let orAlter ← if isAlter then pure false else accept Keyword.OR
  if orAlter then
    require Keyword.ALTER
  let alter := isAlter || orAlter
  match (← current).kind with
  | .keyword .PROC => createProc g start alter
  | .keyword .VIEW => createView g start alter
  | .keyword .FUNCTION => createFunction g start alter
  | .keyword .TRIGGER => createTrigger g start alter
  | .keyword .TABLE => if keyword == "CREATE" then createTable g start else skipped start keyword
  | _ => skipped start keyword
where
  skipped (start : Position) (keyword : String) : Parse Stmt := do
    skipStatement
    return .other (← spanFrom start) keyword

/-! ### Declarations -/

/-- One variable of a `DECLARE`, which starts with its name. -/
def varDecl : Parse VarDecl := do
  let start ← position
  let name ← takeLiteral
  discard <| accept Keyword.AS
  if ← accept Keyword.TABLE then
    let tableColumns ← columnDefs g
    return { span := ← spanFrom start, name, typeName := "TABLE", value := none, tableColumns }
  else if ← accept Keyword.CURSOR then
    return { span := ← spanFrom start, name, typeName := "CURSOR", value := none, tableColumns := [] }
  else
    let typeName ← dataType
    let value ← if ← accept Symbol.eq then some <$> g.expr else pure none
    return { span := ← spanFrom start, name, typeName, value, tableColumns := [] }

/-- The variables of a `DECLARE`, up to a place where none starts. -/
def varDecls : Parse (List VarDecl) := do
  go (← rounds)
where
  go : Nat → Parse (List VarDecl)
    | 0 => cutOff []
    | n + 1 => do
      if ← sees .variableName then
        let decl ← varDecl g
        if ← accept Symbol.comma then return decl :: (← go n) else return [decl]
      else
        unexpected "variable"
        return []

/-- `DECLARE name [options] CURSOR [options] FOR query`, after the first word. -/
def declareCursor (start : Position) : Parse Stmt := do
  let name ← ident
  discard <| scan () fun _ s =>
    if s.current.kind == Keyword.FOR || s.current.kind.endsStatement then none else some ()
  require Keyword.FOR
  let query ← g.innerQuery
  return .declareCursor (← spanFrom start) name query

def declare : Parse Stmt := do
  let start ← position
  require Keyword.DECLARE
  if ← sees .ident then declareCursor g start
  else
    let vars ← varDecls g
    return .declare (← spanFrom start) vars

/-! ### DROP and TRUNCATE -/

/-- The names of a `DROP`, which end where no name follows. -/
def dropNames : Parse (List ObjectName) := do
  go (← rounds)
where
  go : Nat → Parse (List ObjectName)
    | 0 => cutOff []
    | n + 1 => do
      if ← sees .ident then
        let name ← objectName
        if ← accept Symbol.comma then return name :: (← go n) else return [name]
      else return []

/-- `DROP kind [IF EXISTS] name, ...`. -/
def drop : Parse Stmt := do
  let start ← position
  require Keyword.DROP
  let t ← current
  let kind := if t.kind.isKeyword then t.kind.text else Text.upper t.literal
  advance
  if (← sees Keyword.IF) && (← seesNext Keyword.EXISTS) then
    advance
    advance
  let names ← dropNames
  if !(← atStatementEnd) then
    skipStatement
  return .drop (← spanFrom start) kind names

def truncate : Parse Stmt := do
  let start ← position
  require Keyword.TRUNCATE
  require Keyword.TABLE
  let table ← objectName
  if (← sees Keyword.WITH) && (← seesNext Symbol.lparen) then
    advance
    skipParens
  return .truncate (← spanFrom start) table

end Parse

end ColumnFlow
