import ColumnFlow.Grammar.Recovery
import ColumnFlow.Syntax.Basic

/-!
# Names, aliases and type names
-/

namespace ColumnFlow

/-- Unreserved words that introduce a clause or a statement, and so are no alias unless quoted. -/
def clauseWords : List String :=
  ["USING", "OUTPUT", "PIVOT", "UNPIVOT", "TABLESAMPLE", "THROW", "WAITFOR", "APPLY", "WINDOW",
   "OFFSET", "DENY", "CHECKPOINT", "RECONFIGURE", "KILL", "DBCC", "BULK"]

/-- Whether a token can be an alias without `AS` in front of it. -/
def Token.isImplicitAlias (t : Token) : Bool :=
  t.kind == .ident && (t.quoted || !clauseWords.contains (Text.upper t.literal))

namespace Parse

def ident : Parse String := do
  if ← sees .ident then takeLiteral
  else
    expectedIdentifier
    return ""

/-- `(name, ...)`. -/
def identList : Parse (List String) := do
  require Symbol.lparen
  let names ← separated ident
  require Symbol.rparen
  return names

/-- The part of a name after a dot: an identifier or any reserved word. -/
def namePart : Parse String := do
  let t ← current
  if t.kind == .ident || t.kind.isKeyword then takeLiteral
  else
    expectedIdentifier
    return ""

/-- The parts after the dots that follow. A part between two dots is empty. -/
def dottedParts : Parse (List String) :=
  collect do
    if ← accept Symbol.dot then
      if ← sees Symbol.dot then return some ""
      else return some (← namePart)
    else return none

/-- `[server.][database.][schema.]name`, where inner parts may be empty. -/
def objectName : Parse ObjectName := do
  let start ← position
  if ← sees .ident then
    let first ← takeLiteral
    let parts := first :: (← dottedParts)
    if 4 < parts.length then
      report (.tooManyParts (".".intercalate parts))
    return { ObjectName.ofParts parts with span := ← spanFrom start }
  else
    expectedIdentifier
    return {}

/-- The name of a table or of a table variable. -/
def targetName : Parse ObjectName := do
  if ← sees .variableName then
    let start ← position
    let name ← takeLiteral
    return { name, span := ← spanFrom start }
  else objectName

/-- The alias after `AS`. -/
def aliasAfterAs : Parse String := do
  if (← sees .ident) || (← sees .string) then takeLiteral
  else
    expectedIdentifier
    return ""

/-- `[AS] alias`, or nothing. -/
def tableAlias : Parse String := do
  if ← accept Keyword.AS then aliasAfterAs
  else if (← current).isImplicitAlias then takeLiteral
  else return ""

/-- `[AS] alias [(columns)]`. -/
def derivedAlias : Parse (String × List String) := do
  let aliasName ← tableAlias
  if aliasName != "" && (← sees Symbol.lparen) then return (aliasName, ← identList)
  else return (aliasName, [])

/-- The numbers in the parentheses of a type, up to the closing one or a fault. -/
def typeArgs : Parse String := do
  let args ← go (← rounds) true
  return String.join args
where
  go : Nat → Bool → Parse (List String)
    | 0, _ => cutOff []
    | n + 1, isFirst => do
      if (← sees Symbol.rparen) || (← sees .eof) then return []
      else if isFirst then arg n []
      else if ← expect Symbol.comma then arg n [","]
      else return []
  arg (n : Nat) (before : List String) : Parse (List String) := do
    if (← sees .number) || (← seesWord "MAX") then
      let literal ← takeLiteral
      return before ++ literal :: (← go n false)
    else
      unexpected "length"
      return before

/-- A type: `nvarchar(max)`, `decimal(18, 2)`, `double precision`, `dbo.type`. -/
def dataType : Parse String := do
  if ← sees .ident then
    let base ← takeLiteral
    let qualified ← if (← sees Symbol.dot) && (← seesNext .ident) then do
        advance
        pure (base ++ "." ++ (← takeLiteral))
      else pure base
    let named ← if (← seesWord "PRECISION") || (← seesWord "VARYING") then do
        pure (qualified ++ " " ++ (← takeLiteral))
      else pure qualified
    if ← accept Symbol.lparen then
      let args ← typeArgs
      require Symbol.rparen
      return named ++ "(" ++ args ++ ")"
    else return named
  else
    unexpected "data type"
    return ""

end Parse

end ColumnFlow
