import ColumnFlow.Text.Quoted
import ColumnFlow.Token.Basic

/-!
# Parser state

A parser reads tokens from left to right. When it meets a token it cannot use it reports that and goes on, so
that the rest of the statement is read as far as possible; only the first report of a statement counts. The
list of tokens ends with one that stands for the end of the text, and reading never gets past it.
-/

namespace ColumnFlow

open Text (Position Span)

/-- What a message calls a token. -/
def Token.describe (t : Token) : String :=
  match t.kind with
  | .eof => "end of input"
  | .ident | .variableName | .number => Text.quoted t.literal
  | .string => "string literal"
  | kind => kind.text

inductive SyntaxFault where
  | lexical (fault : LexFault)
  | unexpected (found : String) (expected : String)
  | unexpectedStatement (found : String)
  | expectedExpression (found : String)
  | expectedIdentifier (found : String)
  | expectedSetColumn
  | tooManyParts (name : String)
  | tooDeep
  deriving DecidableEq, Repr

/-- How deep expressions, queries and table sources may nest. -/
def maxDepth : Nat := 512

def SyntaxFault.message : SyntaxFault → String
  | .lexical fault => fault.message
  | .unexpected found expected => s!"unexpected token {found}, expected {expected}"
  | .unexpectedStatement found => s!"unexpected {found} at start of statement"
  | .expectedExpression found => s!"expected expression, got {found}"
  | .expectedIdentifier found => s!"expected identifier, got {found}"
  | .expectedSetColumn => "expected column name in SET"
  | .tooManyParts name => s!"object name {Text.quoted name} has more than four parts"
  | .tooDeep => s!"expression nesting exceeds {maxDepth} levels"

structure ParseError where
  position : Position
  fault : SyntaxFault
  deriving DecidableEq, Repr

def ParseError.message (e : ParseError) : String := e.fault.message

def ParseError.render (e : ParseError) : String :=
  s!"parse error at line {e.position.line}, column {e.position.column}: {e.message}"

structure ParseState where
  current : Token
  /-- The tokens after the current one; empty when that one ends the text. -/
  ahead : List Token
  /-- Where the last token that was read ends. -/
  lastStop : Position := .unset
  /-- The reports so far, latest first. -/
  errors : List ParseError := []
  /-- Whether the statement being read has been reported. -/
  failed : Bool := false
  depth : Nat := 0
  /-- Whether the body of an inline table-valued function is being read. -/
  inlineFunction : Bool := false
  /-- Whether a loop was cut off by the bound on its rounds. -/
  cutOff : Bool := false

namespace ParseState

def ofTokens (tokens : List Token) : ParseState :=
  match tokens with
  | [] => { current := { kind := .eof }, ahead := [] }
  | first :: rest => { current := first, ahead := rest }

def next (s : ParseState) : Token := s.ahead.headD s.current

def afterNext (s : ParseState) : Token :=
  match s.ahead with
  | _ :: t :: _ => t
  | _ => s.next

def advance (s : ParseState) : ParseState :=
  match s.ahead with
  | [] => { s with lastStop := s.current.stop }
  | t :: rest => { s with current := t, ahead := rest, lastStop := s.current.stop }

/-- Report a fault at the current token, unless the statement has been reported already. -/
def report (s : ParseState) (fault : SyntaxFault) : ParseState :=
  if s.failed then s
  else { s with failed := true, errors := ⟨s.current.start, fault⟩ :: s.errors }

/-- Whether the current token starts on the line where the last one ended. -/
def sameLine (s : ParseState) : Bool := s.current.start.line == s.lastStop.line

end ParseState

abbrev Parse := StateM ParseState

namespace Parse

def current : Parse Token := return (← get).current

def position : Parse Position := return (← get).current.start

def advance : Parse Unit := modify ParseState.advance

def report (fault : SyntaxFault) : Parse Unit := modify (·.report fault)

def sees (kind : TokenKind) : Parse Bool := return (← get).current.kind == kind

def seesNext (kind : TokenKind) : Parse Bool := return (← get).next.kind == kind

def seesAfterNext (kind : TokenKind) : Parse Bool := return (← get).afterNext.kind == kind

def seesWord (word : String) : Parse Bool := return (← get).current.isWord word

def seesNextWord (word : String) : Parse Bool := return (← get).next.isWord word

/-- Read the current token if it is of the kind. -/
def accept (kind : TokenKind) : Parse Bool := do
  if ← sees kind then
    advance
    return true
  else return false

/-- Read the current token if it is the unquoted word. -/
def acceptWord (word : String) : Parse Bool := do
  if ← seesWord word then
    advance
    return true
  else return false

/-- Report that something else was expected here. -/
def unexpected (expected : String) : Parse Unit := do
  report (.unexpected (← current).describe expected)

def expectedIdentifier : Parse Unit := do
  report (.expectedIdentifier (← current).describe)

/-- Read a token of the kind, or report its absence and read nothing. -/
def expect (kind : TokenKind) : Parse Bool := do
  if ← accept kind then return true
  else
    unexpected kind.text
    return false

def require (kind : TokenKind) : Parse Unit := discard (expect kind)

def requireWord (word : String) : Parse Unit := do
  if ← acceptWord word then return
  else unexpected word

/-- From `start` to the end of the last token that was read. -/
def spanFrom (start : Position) : Parse Span := return ⟨start, (← get).lastStop⟩

/-- The current literal, which is read. -/
def takeLiteral : Parse String := do
  let t ← current
  advance
  return t.literal

/-- How many rounds a loop that reads a token in each of them can make. -/
def rounds : Parse Nat := return (← get).ahead.length + 1

/-- What a loop yields when it has made all its rounds. -/
def cutOff {α : Type} (value : α) : Parse α := do
  modify fun s => { s with cutOff := true }
  return value

/-- Repeat `step` until it yields nothing. Each other round has to read a token. -/
def collect {α : Type} (step : Parse (Option α)) : Parse (List α) := do
  go (← rounds)
where
  go : Nat → Parse (List α)
    | 0 => cutOff []
    | n + 1 => do
      match ← step with
      | none => return []
      | some x => return x :: (← go n)

/-- Repeat `step` until it says no. Each other round has to read a token. -/
def skipWhile (step : Parse Bool) : Parse Unit := do
  discard <| collect do
    if ← step then return some () else return none

/-- One or more items with commas between them. -/
def separated {α : Type} (item : Parse α) : Parse (List α) := do
  go (← rounds)
where
  go : Nat → Parse (List α)
    | 0 => cutOff []
    | n + 1 => do
      let x ← item
      if ← accept Symbol.comma then return x :: (← go n) else return [x]

/-- Read tokens as long as `step` has a next value, and return the last one. -/
def scan {σ : Type} (start : σ) (step : σ → ParseState → Option σ) : Parse σ := do
  go (← rounds) start
where
  go : Nat → σ → Parse σ
    | 0, value => cutOff value
    | n + 1, value => do
      match step value (← get) with
      | none => return value
      | some value' =>
        advance
        go n value'

/-- Read `body` one level deeper, or report that the limit is passed and give `fallback`. -/
def nested {α : Type} (fallback : α) (body : Parse α) : Parse α := do
  modify fun s => { s with depth := s.depth + 1 }
  let tooDeep := maxDepth < (← get).depth
  let result ← if tooDeep then do
      report .tooDeep
      pure fallback
    else body
  modify fun s => { s with depth := s.depth - 1 }
  return result

end Parse

end ColumnFlow
