import ColumnFlow.Grammar.Name
import ColumnFlow.Grammar.Open

/-!
# Expressions

Operators are read by precedence, from `OR` at level 1 to `COLLATE` at level 8. An expression that cannot be
read is a hole; nothing is read for it, and an operator without a right operand loses its left one too.
-/

namespace ColumnFlow

namespace Level

def or : Nat := 1
def and : Nat := 2
def not : Nat := 3
def comparison : Nat := 4
def addition : Nat := 5
def multiplication : Nat := 6
def unary : Nat := 7
def collation : Nat := 8

end Level

/-- The precedence of an operator between two operands. -/
def BinaryOp.level : BinaryOp → Nat
  | .or => Level.or
  | .and => Level.and
  | .eq | .ne | .lt | .gt | .le | .ge => Level.comparison
  | .add | .sub | .bitAnd | .bitOr | .bitXor => Level.addition
  | .mul | .div | .mod => Level.multiplication

/-- Functions whose first argument is the name of a part of a date. -/
def datePartFunctions : List String :=
  ["DATEADD", "DATEDIFF", "DATEDIFF_BIG", "DATEPART", "DATENAME", "DATETRUNC", "DATE_BUCKET"]

/-- Functions that are called without parentheses. -/
def niladicFunctions : List String :=
  ["CURRENT_TIMESTAMP", "CURRENT_USER", "SESSION_USER", "SYSTEM_USER", "USER", "CURRENT_DATE"]

/-- Methods of values of type `xml`. -/
def xmlMethods : List String := ["value", "query", "exist", "nodes", "modify"]

/-- A call with nothing but a name. -/
def FuncCall.named (schema name : String) : FuncCall :=
  { span := .unset, schema, name, distinct := false, args := [], star := false, withinGroup := []
    window := none }

namespace Parse

open Text (Position)

variable (g : Grammar)

def exprList : Parse (List Expr) := separated g.expr

def orderItem : Parse OrderItem := do
  let expr ← g.expr
  if ← accept Keyword.DESC then return { expr, descending := true }
  else
    discard <| accept Keyword.ASC
    return { expr, descending := false }

/-- `ORDER BY item, ...`. -/
def orderBy : Parse (List OrderItem) := do
  require Keyword.ORDER
  require Keyword.BY
  separated (orderItem g)

/-! ### Literals and calls -/

def literal (kind : LiteralKind) : Parse Expr := do
  let t ← current
  advance
  return .literal ⟨t.start, t.stop⟩ kind t.literal

/-- One argument. `PARSE(x AS type USING culture)` has more inside it, which is dropped. -/
def funcArg (isDatePart : Bool) : Parse Expr := do
  let arg ← if isDatePart && (← sees .ident) && ((← seesNext Symbol.comma) || (← seesNext Symbol.rparen))
    then literal .string
    else g.expr
  if ← accept Keyword.AS then
    discard dataType
    if ← acceptWord "USING" then
      discard g.expr
  return arg

/-- The arguments after the first. -/
def moreFuncArgs : Parse (List Expr) :=
  collect do
    if ← accept Symbol.comma then return some (← funcArg g false) else return none

/-- `([DISTINCT | ALL] args)`, `(*)` or `()`, added to the call. -/
def funcArgs (fn : FuncCall) : Parse FuncCall := do
  require Symbol.lparen
  if ← accept Symbol.rparen then return fn
  else if (← sees Symbol.star) && (← seesNext Symbol.rparen) then
    advance
    advance
    return { fn with star := true }
  else
    let distinct ← accept Keyword.DISTINCT
    if !distinct then
      discard <| accept Keyword.ALL
    let first ← funcArg g (datePartFunctions.contains (Text.upper fn.name))
    let more ← moreFuncArgs g
    require Symbol.rparen
    return { fn with distinct, args := first :: more }

/-- `OVER (...)` or `OVER name`. Frames are dropped. -/
def windowSpec : Parse WindowSpec := do
  require Keyword.OVER
  if ← accept .ident then return { partitionBy := [], orderBy := [] }
  else
    require Symbol.lparen
    let partitionBy ← if ← accept Keyword.PARTITION then do
        require Keyword.BY
        exprList g
      else pure []
    let orderBy ← if ← sees Keyword.ORDER then orderBy g else pure []
    if (← seesWord "ROWS") || (← seesWord "RANGE") then
      discard <| scan () fun _ s =>
        if s.current.kind == Symbol.rparen || s.current.kind == .eof then none else some ()
    require Symbol.rparen
    return { partitionBy, orderBy }

/-- `WITHIN GROUP (...)` and `OVER (...)` after a call. -/
def funcSuffix (fn : FuncCall) : Parse FuncCall := do
  let withinGroup ← if (← seesWord "WITHIN") && (← seesNext Keyword.GROUP) then do
      advance
      advance
      require Symbol.lparen
      let items ← orderBy g
      require Symbol.rparen
      pure items
    else pure []
  let window ← if ← sees Keyword.OVER then some <$> windowSpec g else pure none
  return { fn with withinGroup, window }

/-- Method calls chained onto `base`, whose value is the first argument of the next call. -/
def methodCalls (start : Position) (base : Expr) : Parse Expr := do
  if base.isMissing then return base
  else go (← rounds) base
where
  go : Nat → Expr → Parse Expr
    | 0, base => cutOff base
    | n + 1, base => do
      if (← sees Symbol.dot) && (← seesNext .ident) && (← seesAfterNext Symbol.lparen) then
        advance
        let name ← takeLiteral
        let fn ← funcArgs g (.named "" name)
        go n (.call { fn with args := base :: fn.args, span := ← spanFrom start })
      else return base

/-! ### Special forms -/

/-- `CASE [operand] WHEN condition THEN result ... [ELSE result] END`. -/
def caseExpr : Parse Expr := do
  let start ← position
  require Keyword.CASE
  let operand ← if ← sees Keyword.WHEN then pure none else some <$> g.expr
  let whens ← collect do
    if ← accept Keyword.WHEN then
      let condition ← g.expr
      require Keyword.THEN
      let result ← g.expr
      return some { condition, result : WhenClause }
    else return none
  if whens.isEmpty then
    unexpected "WHEN"
  let otherwise ← if ← accept Keyword.ELSE then some <$> g.expr else pure none
  require Keyword.END
  return .case (← spanFrom start) operand whens otherwise

/-- `CAST(value AS type)` and `TRY_CAST`. -/
def castExpr (lenient : Bool) : Parse Expr := do
  let start ← position
  advance
  require Symbol.lparen
  let operand ← g.expr
  require Keyword.AS
  let typeName ← dataType
  require Symbol.rparen
  return .cast (← spanFrom start) operand typeName lenient

/-- `CONVERT(type, value [, style])` and `TRY_CONVERT`. -/
def convertExpr : Parse Expr := do
  let start ← position
  let lenient ← seesWord "TRY_CONVERT"
  advance
  require Symbol.lparen
  let typeName ← dataType
  require Symbol.comma
  let operand ← g.expr
  let style ← if ← accept Symbol.comma then some <$> g.expr else pure none
  require Symbol.rparen
  return .convert (← spanFrom start) typeName operand style lenient

def coalesceExpr : Parse Expr := do
  let start ← position
  advance
  require Symbol.lparen
  let args ← exprList g
  require Symbol.rparen
  return .coalesce (← spanFrom start) args

def nullIfExpr : Parse Expr := do
  let start ← position
  advance
  require Symbol.lparen
  let left ← g.expr
  require Symbol.comma
  let right ← g.expr
  require Symbol.rparen
  return .nullIf (← spanFrom start) left right

def iifExpr : Parse Expr := do
  let start ← position
  advance
  require Symbol.lparen
  let cond ← g.expr
  require Symbol.comma
  let yes ← g.expr
  require Symbol.comma
  let no ← g.expr
  require Symbol.rparen
  return .iif (← spanFrom start) cond yes no

/-- `NEXT VALUE FOR sequence [OVER (...)]`, a call named after the sequence. -/
def nextValueExpr : Parse Expr := do
  let start ← position
  advance
  advance
  require Keyword.FOR
  let sequence ← objectName
  let window ← if ← sees Keyword.OVER then some <$> windowSpec g else pure none
  return .call { FuncCall.named sequence.schema (sequenceRead ++ " " ++ sequence.name) with
    window, span := ← spanFrom start }

def existsExpr : Parse Expr := do
  let start ← position
  require Keyword.EXISTS
  require Symbol.lparen
  let query ← g.innerQuery
  require Symbol.rparen
  return .exists (← spanFrom start) query

/-- A parenthesised expression or a scalar subquery. -/
def parenExpr : Parse Expr := do
  let start ← position
  require Symbol.lparen
  if (← sees Keyword.SELECT) || (← sees Keyword.WITH) ||
      ((← sees Symbol.lparen) && ((← seesNext Keyword.SELECT) || (← seesNext Keyword.WITH))) then
    let query ← g.innerQuery
    require Symbol.rparen
    return .subquery (← spanFrom start) query
  else
    let inner ← g.expr
    if inner.isMissing then return .missing
    else
      require Symbol.rparen
      return .paren (← spanFrom start) inner

/-! ### Names -/

/-- The parts after the first of a dotted name in an expression, and whether it ends in a star. A dot that
nothing usable follows is left alone. -/
def chain : Parse (List String × Bool) := do
  go (← rounds)
where
  go : Nat → Parse (List String × Bool)
    | 0 => cutOff ([], false)
    | n + 1 => do
      if ← sees Symbol.dot then
        let next := (← get).next.kind
        if next == Symbol.star then
          advance
          advance
          return ([], true)
        else if next == Symbol.dot then
          advance
          let (parts, star) ← go n
          return ("" :: parts, star)
        else if next == .ident || next.isKeyword then
          advance
          let part ← takeLiteral
          let (parts, star) ← go n
          return (part :: parts, star)
        else return ([], false)
      else return ([], false)

/-- What starts with an identifier: a column, a qualified star, a call or a niladic function. -/
def identExpr : Parse Expr := do
  let start ← position
  let first ← current
  advance
  let (more, star) ← chain
  let parts := first.literal :: more
  if star then
    return .star (← spanFrom start) (".".intercalate parts)
  else if ← sees Symbol.lparen then
    let name := parts.getLastD ""
    let qualifiers := parts.dropLast
    if !qualifiers.isEmpty && xmlMethods.contains (Text.lower name) then
      let column := { ColumnRef.ofParts qualifiers with span := ← spanFrom start }
      let fn ← funcArgs g (.named "" name)
      return .call { fn with args := .column column :: fn.args, span := ← spanFrom start }
    else
      let fn ← funcArgs g (.named (".".intercalate qualifiers) name)
      let fn ← funcSuffix g fn
      return .call { fn with span := ← spanFrom start }
  else if more.isEmpty && !first.quoted && niladicFunctions.contains (Text.upper first.literal) then
    return .call { FuncCall.named "" (Text.upper first.literal) with span := ← spanFrom start }
  else
    return .column { ColumnRef.ofParts parts with span := ← spanFrom start }

/-- What an unquoted identifier starts: a built-in with a form of its own, or a name. -/
def wordExpr : Parse Expr := do
  let t ← current
  if t.isWord "NEXT" && (← seesNextWord "VALUE") && (← seesAfterNext Keyword.FOR) then nextValueExpr g
  else if ← seesNext Symbol.lparen then
    match Text.upper t.literal with
    | "TRY_CAST" => castExpr g true
    | "CONVERT" | "TRY_CONVERT" => convertExpr g
    | "COALESCE" => coalesceExpr g
    | "NULLIF" => nullIfExpr g
    | "IIF" => iifExpr g
    | _ => identExpr g
  else identExpr g

/-- `LEFT`, `RIGHT` and, in triggers, `UPDATE` are functions before a parenthesis. -/
def keywordCall : Parse Expr := do
  let start ← position
  let name := Text.upper (← takeLiteral)
  let fn ← funcArgs g (.named "" name)
  return .call { fn with span := ← spanFrom start }

def noExpr : Parse Expr := do
  report (.expectedExpression (← current).describe)
  return .missing

/-- An operand. -/
def primary : Parse Expr := do
  let t ← current
  let start := t.start
  match t.kind with
  | .number => literal .number
  | .string => literal .string
  | .variableName =>
    advance
    methodCalls g start (.localVar (← spanFrom start) t.literal)
  | .ident => if t.quoted then identExpr g else wordExpr g
  | .symbol .lparen =>
    let inner ← parenExpr g
    methodCalls g start inner
  | .symbol .star =>
    advance
    return .star (← spanFrom start) ""
  | .keyword .NULL => literal .null
  | .keyword .DEFAULT => literal .default
  | .keyword .CASE => caseExpr g
  | .keyword .CAST => castExpr g false
  | .keyword .EXISTS => existsExpr g
  | .keyword .LEFT | .keyword .RIGHT | .keyword .UPDATE =>
    if ← seesNext Symbol.lparen then keywordCall g else noExpr
  | _ => noExpr

/-! ### Operators -/

/-- An operand with the operators in front of it. -/
def signedExpr : Parse Expr := do
  let start ← position
  match (← current).kind with
  | .keyword .NOT => applied start .not Level.not
  | .symbol .minus => applied start .minus Level.unary
  | .symbol .plus => applied start .plus Level.unary
  | .symbol .tilde => applied start .complement Level.unary
  | _ => primary g
where
  applied (start : Position) (op : UnaryOp) (level : Nat) : Parse Expr := do
    advance
    let operand ← g.exprAt level
    return .unary (← spanFrom start) op operand

def startsPredicate (kind : TokenKind) : Bool :=
  kind == Keyword.IN || kind == Keyword.BETWEEN || kind == Keyword.LIKE

/-- How tightly the current token binds as an operator after an operand, 0 if it is none. -/
def operatorLevel : Parse Nat := do
  let kind := (← current).kind
  match BinaryOp.ofToken? kind with
  | some op => return op.level
  | none =>
    if kind == Keyword.IS || startsPredicate kind then return Level.comparison
    else if kind == Keyword.NOT && startsPredicate (← get).next.kind then return Level.comparison
    else if kind == Keyword.COLLATE then return Level.collation
    else return 0

/-- `IN`, `BETWEEN` and `LIKE`, after an optional `NOT`. -/
def predicate (start : Position) (operand : Expr) (negated : Bool) : Parse Expr := do
  if ← accept Keyword.IN then
    require Symbol.lparen
    if (← sees Keyword.SELECT) || (← sees Keyword.WITH) then
      let query ← g.innerQuery
      require Symbol.rparen
      return .inQuery (← spanFrom start) operand negated query
    else
      let values ← exprList g
      require Symbol.rparen
      return .inList (← spanFrom start) operand negated values
  else if ← accept Keyword.BETWEEN then
    let low ← g.exprAt Level.addition
    require Keyword.AND
    let high ← g.exprAt Level.addition
    return .between (← spanFrom start) operand negated low high
  else if ← accept Keyword.LIKE then
    let pattern ← g.exprAt Level.addition
    let escape ← if ← acceptWord "ESCAPE" then some <$> primary g else pure none
    return .like (← spanFrom start) operand negated pattern escape
  else
    unexpected "IN, BETWEEN or LIKE"
    return .missing

/-- Whether a comparison with the rows of a query follows: `x > ALL (SELECT ...)`. -/
def seesQuantifier : Parse Bool := do
  return ((← sees Keyword.ALL) || (← seesWord "ANY") || (← seesWord "SOME"))
    && (← seesNext Symbol.lparen)

/-- The current operator, its right operand and `left` before it. -/
def operatorExpr (left : Expr) (level : Nat) : Parse Expr := do
  let start := left.span.start
  match (← current).kind with
  | .keyword .IS =>
    advance
    let negated ← accept Keyword.NOT
    require Keyword.NULL
    return .isNull (← spanFrom start) left negated
  | .keyword .COLLATE =>
    advance
    let collation ← ident
    return .collate (← spanFrom start) left collation
  | .keyword .NOT | .keyword .IN | .keyword .BETWEEN | .keyword .LIKE =>
    let negated ← accept Keyword.NOT
    predicate g start left negated
  | kind =>
    advance
    let right ← if level == Level.comparison && (← seesQuantifier) then do
        advance
        primary g
      else g.exprAt (level + 1)
    match BinaryOp.ofToken? kind with
    | some op =>
      if right.isMissing then
        report (.expectedExpression (← current).describe)
        return .missing
      else return .binary (← spanFrom start) left op right
    | none => return .missing

/-- Operators that bind at least as tightly as `least`, applied to `left`. -/
def operators (least : Nat) (left : Expr) : Parse Expr := do
  go (← rounds) left
where
  go : Nat → Expr → Parse Expr
    | 0, left => cutOff left
    | n + 1, left => do
      let level ← operatorLevel
      if level < least then return left
      else
        let combined ← operatorExpr g left level
        if combined.isMissing then return .missing
        else go n combined

/-- An expression whose outermost operator binds at least as tightly as `least`. -/
def exprAt (least : Nat) : Parse Expr :=
  nested .missing do
    let left ← signedExpr g
    if left.isMissing then return .missing
    else operators g least left

end Parse

end ColumnFlow
