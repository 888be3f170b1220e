import ColumnFlow.Grammar.State

/-!
# Where statements begin and end

Statements need no separator, so the words that can begin one also end the one before. Parentheses shield
what stands between them.
-/

namespace ColumnFlow

namespace TokenKind

/-- The words that can begin a statement, and `END`. -/
def startsStatement : TokenKind → Bool
  | .keyword k =>
    match k with
    | .SELECT | .INSERT | .UPDATE | .DELETE | .MERGE | .WITH | .DECLARE | .SET | .IF | .WHILE
    | .BEGIN | .END | .EXEC | .RETURN | .PRINT | .RAISERROR | .CREATE | .ALTER | .DROP | .TRUNCATE
    | .COMMIT | .ROLLBACK | .SAVE | .OPEN | .CLOSE | .FETCH | .DEALLOCATE | .BREAK | .CONTINUE
    | .GOTO | .USE | .GRANT | .REVOKE => true
    | _ => false
  | _ => false

/-- The end of the text or of the batch. -/
def endsBatch : TokenKind → Bool
  | .eof | .separator => true
  | _ => false

/-- What cannot stand where a single statement has to. -/
def endsBranch : TokenKind → Bool
  | .eof | .separator | .symbol .semicolon | .keyword .ELSE | .keyword .END => true
  | _ => false

/-- What cannot continue a statement. -/
def endsStatement (kind : TokenKind) : Bool := kind.endsBranch || kind.startsStatement

end TokenKind

namespace Parse

def atStatementEnd : Parse Bool := return (← current).kind.endsStatement

/-- Skip to the next place where a statement can begin. -/
def skipToStatement : Parse Unit :=
  discard <| scan 0 fun (depth : Nat) s =>
    let kind := s.current.kind
    if kind.endsBatch then none
    else match kind with
      | .symbol .lparen => some (depth + 1)
      | .symbol .rparen => some (depth - 1)
      | _ =>
        if depth == 0 && (kind == Symbol.semicolon || kind.startsStatement) then none
        else some depth

/-- Skip to the next place where a statement can begin, past at least one token if none has been read since
`start`. -/
def synchronize (start : Token) : Parse Unit := do
  let t ← current
  if t.start.offset == start.start.offset && !t.kind.endsBatch then
    advance
  skipToStatement

/-- Skip the rest of a statement that is not looked into. A word that begins a statement ends this one only
on a new line, so `GRANT SELECT ON t TO r` is one statement. -/
def skipStatement : Parse Unit :=
  discard <| scan 0 fun (depth : Nat) s =>
    let kind := s.current.kind
    if kind.endsBatch then none
    else match kind with
      | .symbol .lparen => some (depth + 1)
      | .symbol .rparen => if depth == 0 then none else some (depth - 1)
      | _ =>
        if depth == 0 && kind == Symbol.semicolon then none
        else if depth == 0 && (kind.startsStatement || s.current.isWord "THROW") && !s.sameLine
            && !(kind == Keyword.WITH && s.next.kind == Symbol.lparen) then none
        else some depth

/-- Skip a group in parentheses, if one starts here. -/
def skipParens : Parse Unit := do
  if ← accept Symbol.lparen then
    discard <| scan 1 fun (depth : Nat) s =>
      if depth == 0 then none
      else match s.current.kind with
        | .eof => none
        | .symbol .lparen => some (depth + 1)
        | .symbol .rparen => some (depth - 1)
        | _ => some depth

/-- Skip to the comma or parenthesis that ends a list element. -/
def skipElement : Parse Unit :=
  discard <| scan 0 fun (depth : Nat) s =>
    if s.current.kind.endsBatch then none
    else match s.current.kind with
      | .symbol .lparen => some (depth + 1)
      | .symbol .rparen => if depth == 0 then none else some (depth - 1)
      | .symbol .comma => if depth == 0 then none else some depth
      | _ => some depth

end Parse

end ColumnFlow
