import ColumnFlow.Grammar.Control
import ColumnFlow.Token.Lexer

/-!
# Scripts

`parse` reads a whole text. It never stops at a fault: a statement that cannot be read costs only itself, so
the result holds the statements that could be read together with every error, in the order of their places.
-/

namespace ColumnFlow

namespace Parse

variable (g : Grammar)

/-- The statement after a `WITH` clause. -/
def withStmt : Parse Stmt := do
  let ctes ← withClause g
  match (← current).kind with
  | .keyword .SELECT | .symbol .lparen => return .select (← query g (some ctes))
  | .keyword .INSERT => insert g (some ctes)
  | .keyword .UPDATE => update g (some ctes)
  | .keyword .DELETE => delete g (some ctes)
  | .keyword .MERGE => merge g (some ctes)
  | _ =>
    unexpected "SELECT, INSERT, UPDATE, DELETE or MERGE"
    return .missing

/-- One statement. -/
def stmt : Parse Stmt := do
  let t ← current
  match t.kind with
  | .symbol .lparen => return .select (← query g none)
  | .keyword k =>
    match k with
    | .SELECT => return .select (← query g none)
    | .WITH => withStmt g
    | .INSERT => insert g none
    | .UPDATE => update g none
    | .DELETE => delete g none
    | .MERGE => merge g none
    | .EXEC => return .exec (← exec g)
    | .DECLARE => declare g
    | .SET => set g
    | .IF => ifElse g
    | .WHILE => loop g
    | .BEGIN => begins g
    | .COMMIT | .ROLLBACK | .SAVE => transaction
    | .RETURN => returnStmt g
    | .PRINT => print g
    | .RAISERROR => raise g
    | .CREATE | .ALTER => create g
    | .DROP => drop
    | .TRUNCATE => truncate
    | .OPEN | .CLOSE | .DEALLOCATE | .FETCH => cursor g
    | .BREAK | .CONTINUE => jump
    | .GOTO => goto
    | .USE => useDatabase
    | .GRANT | .REVOKE => other
    | _ => noStmt
  | .ident =>
    if t.isWord "THROW" then raise g
    else if !t.quoted && (← seesNext Symbol.colon) then label
    else other
  | _ => noStmt
where
  noStmt : Parse Stmt := do
    report (.unexpectedStatement (← current).describe)
    return .missing

end Parse

/-- The grammar whose entry points can be nested `fuel` deep. -/
def Grammar.ofDepth : Nat → Grammar
  | 0 => .stuck
  | fuel + 1 =>
    { exprAt := fun least s => Parse.exprAt (ofDepth fuel) least s
      withClause := fun s => Parse.withClause (ofDepth fuel) s
      query := fun ctes s => Parse.query (ofDepth fuel) ctes s
      selectBody := fun s => Parse.selectBody (ofDepth fuel) s
      table := fun s => Parse.tableRef (ofDepth fuel) s
      stmt := fun s => Parse.stmt (ofDepth fuel) s }

namespace Parse

variable (g : Grammar)

/-- Statements up to the next separator. -/
def batch : Parse Batch := do
  let start ← position
  let stmts ← moduleBody g
  return { span := ← spanFrom start, stmts }

/-- The batches of the text, those without a statement left out. -/
def batches : Parse (List Batch) := do
  go (← rounds)
where
  go : Nat → Parse (List Batch)
    | 0 => cutOff []
    | n + 1 => do
      let first ← batch g
      let rest ← if ← accept .separator then go n else pure []
      return if first.stmts.isEmpty then rest else first :: rest

/-- The whole text. -/
def script (source : String) : Parse Script := do
  let start ← position
  let batches ← batches g
  return { span := ⟨start, (← current).stop⟩, source, batches }

end Parse

def Script.stmtCount (script : Script) : Nat := (script.batches.map (·.stmts.length)).foldr (· + ·) 0

/-- Every statement that could be read, and the errors met while reading, in the order of their places. -/
def parseAll (source : String) : Script × List ParseError :=
  let tokens := tokenize source
  let (script, final) := (Parse.script (.ofDepth (tokens.length + 2)) source).run (.ofTokens tokens)
  let lexical := (lexErrors source).map fun e => ⟨e.position, .lexical e.fault⟩
  let errors := (lexical ++ final.errors.reverse).mergeSort fun a b =>
    decide (a.position.offset ≤ b.position.offset)
  (script, errors)

/-- The script, absent only if there are errors and no statement could be read. -/
def parse (source : String) : Option Script × List ParseError :=
  let (script, errors) := parseAll source
  if !errors.isEmpty && script.stmtCount == 0 then (none, errors) else (some script, errors)

end ColumnFlow
