import ColumnFlow.Yaml.Scalar

/-!
# The tokens of a document

A document is cut into tokens before its nodes are built. Outside of brackets, lists and maps are told by their
indentation, which the tokens make explicit: `listStart` and `mapStart` stand where one begins and `blockEnd`
where it ends. That a scalar is a key shows only at the colon after it, so the token `key` is put before it
afterwards; the colon has to stand on the same line and within reach.
-/

namespace ColumnFlow.Yaml

inductive Token where
  | documentStart
  | documentEnd
  | streamEnd
  | listStart
  | mapStart
  | blockEnd
  | dash
  | flowListStart
  | flowListEnd
  | flowMapStart
  | flowMapEnd
  | comma
  | key
  | value
  | anchor (name : String)
  | reference (name : String)
  | tag (name : String)
  /-- `plain` is set for a scalar without quotes. -/
  | scalar (value : String) (plain : Bool)
  deriving DecidableEq

/-- Where a key may have started. -/
structure KeyPlace where
  /-- How many tokens stand before it. -/
  before : Nat
  cursor : Cursor
  /-- Whether nothing but a key can stand here. -/
  isRequired : Bool

/-- How far after its start the colon of a key may stand. -/
def keyReach : Nat := 1024

/-- What has been cut so far, and what the next token depends on. -/
structure Scanner where
  cursor : Cursor
  /-- Latest first. -/
  tokens : List Token := []
  count : Nat := 0
  /-- The column of the list or map that is open, and of those around it. -/
  indent : Int := -1
  outerIndents : List Int := []
  /-- Where a key may have started since the innermost bracket, and for each bracket the same before it. -/
  keyPlace : Option KeyPlace := none
  outerPlaces : List (Option KeyPlace) := []
  /-- Whether a key may start here. -/
  keyAllowed : Bool := true

namespace Scanner

def inFlow (s : Scanner) : Bool := !s.outerPlaces.isEmpty

def add (s : Scanner) (token : Token) : Scanner := { s with tokens := token :: s.tokens, count := s.count + 1 }

/-- Put a token where `before` tokens stand before it. -/
def insert (s : Scanner) (before : Nat) (token : Token) : Scanner :=
  let later := s.count - before
  { s with tokens := s.tokens.take later ++ token :: s.tokens.drop later, count := s.count + 1 }

/-- Add a token of one or more characters that stand here. -/
def take (s : Scanner) (size : Nat) (token : Token) : Scanner :=
  { s.add token with cursor := s.cursor.advanceBy size }

/-! ### Indentation -/

/-- Open a list or map in a column, unless one is open there. -/
def openAt (s : Scanner) (column : Nat) (before : Nat) (token : Token) : Scanner :=
  if s.inFlow || (column : Int) ≤ s.indent then s
  else
    let s := s.insert before token
    { s with indent := column, outerIndents := s.indent :: s.outerIndents }

def closeFrom (column : Int) : List Int → Scanner → Scanner
  | [], s => s
  | outer :: rest, s =>
    if s.indent ≤ column then s
    else closeFrom column rest { s.add .blockEnd with indent := outer, outerIndents := rest }

/-- Close the lists and maps that stand to the right of a column. -/
def closeTo (s : Scanner) (column : Int) : Scanner :=
  if s.inFlow then s else closeFrom column s.outerIndents s

/-! ### Keys -/

/-- Give up the place where a key may have started. -/
def dropKey (s : Scanner) : Option Scanner :=
  match s.keyPlace with
  | none => some s
  | some place => if place.isRequired then none else some { s with keyPlace := none }

/-- Note that a key may start here. -/
def markKey (s : Scanner) : Option Scanner :=
  if s.keyAllowed then do
    let s ← s.dropKey
    let isRequired := !s.inFlow && s.indent == (s.cursor.column : Int)
    return { s with keyPlace := some { before := s.count, cursor := s.cursor, isRequired } }
  else some s

/-- Whether a colon here would still make a key of what started at a place. -/
def reaches (s : Scanner) (place : KeyPlace) : Bool :=
  place.cursor.line == s.cursor.line && s.cursor.index ≤ place.cursor.index + keyReach

/-- A colon: what started on this line is a key, or else a key is empty or was marked as one. -/
def colon (s : Scanner) : Option Scanner :=
  match s.keyPlace with
  | some place =>
    if s.reaches place then
      let s := (s.insert place.before .key).openAt place.cursor.column place.before .mapStart
      some ({ s with keyPlace := none, keyAllowed := false }.take 1 .value)
    else if place.isRequired then none
    else withoutKey { s with keyPlace := none }
  | none => withoutKey s
where
  withoutKey (s : Scanner) : Option Scanner :=
    if s.inFlow then some ({ s with keyAllowed := false }.take 1 .value)
    else if s.keyAllowed then some ((s.openAt s.cursor.column s.count .mapStart).take 1 .value)
    else none

/-- A question mark, which marks what follows as a key. -/
def question (s : Scanner) : Option Scanner := do
  if !s.inFlow && !s.keyAllowed then none
  let s ← (s.openAt s.cursor.column s.count .mapStart).dropKey
  return { s with keyAllowed := !s.inFlow }.take 1 .key

/-- A dash, which starts an item of a list. -/
def dash (s : Scanner) : Option Scanner := do
  if !s.inFlow && !s.keyAllowed then none
  let s ← (s.openAt s.cursor.column s.count .listStart).dropKey
  return { s with keyAllowed := true }.take 1 .dash

/-! ### Brackets -/

def openBracket (s : Scanner) (token : Token) : Option Scanner := do
  let s ← s.markKey
  return { s with outerPlaces := s.keyPlace :: s.outerPlaces, keyPlace := none, keyAllowed := true }.take 1 token

def closeBracket (s : Scanner) (token : Token) : Option Scanner := do
  let s ← s.dropKey
  let s := match s.outerPlaces with
    | [] => s
    | place :: rest => { s with keyPlace := place, outerPlaces := rest }
  return { s with keyAllowed := false }.take 1 token

def comma (s : Scanner) : Option Scanner := do
  let s ← s.dropKey
  return { s with keyAllowed := true }.take 1 .comma

/-! ### Scalars and what goes with them -/

def isNameChar (c : Char) : Bool := c.isAlphanum || c == '-' || c == '_'

/-- The name of an anchor, or of a reference to one. -/
def name (s : Scanner) (token : String → Token) : Option Scanner := do
  let s ← s.markKey
  let name := s.cursor.rest.tail.takeWhile isNameChar
  let next := s.cursor.rest[name.length + 1]?
  if name.isEmpty || !(isGap next || next.any ['?', ':', ',', ']', '\x7d', '%', '@', '\x60'].contains) then none
  return { s with keyAllowed := false }.take (name.length + 1) (token (String.ofList name))

def tag (s : Scanner) : Option Scanner := do
  let s ← s.markKey
  let name := s.cursor.rest.takeWhile fun c => !isGap (some c)
  return { s with keyAllowed := false }.take name.length (.tag (String.ofList name))

def blockScalar (s : Scanner) (isFolded : Bool) : Option Scanner := do
  let s ← s.dropKey
  let (text, cursor) ← block isFolded s.indent s.cursor
  return { s.add (.scalar text false) with cursor, keyAllowed := true }

def quotedScalar (s : Scanner) (quote : Char) : Option Scanner := do
  let s ← s.markKey
  let (text, cursor) ← quoted quote s.cursor
  return { s.add (.scalar text false) with cursor, keyAllowed := false }

/-- A plain scalar. If lines have ended after it, the next line may start a key. -/
def plainScalar (s : Scanner) : Option Scanner := do
  let s ← s.markKey
  let (text, hasEnded, cursor) ← plain s.inFlow (s.indent + 1).toNat s.cursor
  return { s.add (.scalar text true) with cursor, keyAllowed := hasEnded }

/-! ### Between tokens -/

/-- Skip a comment, and further ones as long as only blanks stand between them. -/
def skipComments : Nat → Cursor → Cursor
  | 0, cursor => cursor
  | n + 1, cursor =>
    let atEnd := cursor.skipLine
    let next := atEnd.skipWhile fun c => isBlank c || c == '\n'
    if next.peek == some '#' then skipComments n next else atEnd

/-- Whether a character between tokens can be passed over. A tab does not count as indentation, so it cannot
stand where a key may start. -/
def passes (s : Scanner) (c : Char) : Bool := c == ' ' || (c == '\t' && (s.inFlow || !s.keyAllowed))

/-- Go on to the next token, over blanks, comments and line ends. -/
def toToken : Nat → Scanner → Scanner
  | 0, s => s
  | n + 1, s =>
    let cursor := if s.cursor.column == 0 && s.cursor.peek == some '\ufeff' then s.cursor.advance else s.cursor
    let cursor := cursor.skipWhile s.passes
    let cursor := if cursor.peek == some '#' then skipComments cursor.rounds cursor else cursor
    if cursor.peek.any isBreak then
      toToken n { s with cursor := cursor.advance, keyAllowed := s.keyAllowed || !s.inFlow }
    else { s with cursor }

/-- Skip a comment that stands on the line of the last token. -/
def skipRemark (s : Scanner) : Scanner :=
  let cursor := s.cursor.skipWhile isBlank
  if s.cursor.freshLines == 0 && s.tokens.head? != some .dash && cursor.peek == some '#' then
    { s with cursor := cursor.skipLine }
  else s

/-- A mark between documents, or the end of them all. -/
def endDocument (s : Scanner) (size : Nat) (token : Token) : Option Scanner := do
  let s ← (s.closeTo (-1)).dropKey
  return { s with keyAllowed := false }.take size token

/-- The token that starts with a character. -/
def content (s : Scanner) (c : Char) : Option Scanner :=
  let next := s.cursor.peekSecond
  match c with
  | '[' => s.openBracket .flowListStart
  | '\x7b' => s.openBracket .flowMapStart
  | ']' => s.closeBracket .flowListEnd
  | '\x7d' => s.closeBracket .flowMapEnd
  | ',' => s.comma
  | '*' => s.name .reference
  | '&' => s.name .anchor
  | '!' => s.tag
  | '\'' => s.quotedScalar c
  | '"' => s.quotedScalar c
  | _ =>
    if c == '-' && isGap next then s.dash
    else if c == '?' && (s.inFlow || isGap next) then s.question
    else if c == ':' && (s.inFlow || isGap next) then s.colon
    else if c == '|' && !s.inFlow then s.blockScalar false
    else if c == '>' && !s.inFlow then s.blockScalar true
    else if startsPlain s.inFlow c next then s.plainScalar
    else none

/-- Cut the next token. Directives are not read. -/
def next (s : Scanner) : Option Scanner :=
  let s := toToken s.cursor.rounds s
  let s := s.closeTo s.cursor.column
  match s.cursor.peek with
  | none => s.endDocument 0 .streamEnd
  | some c =>
    if s.cursor.column == 0 && c == '%' then none
    else if s.cursor.seesMark Cursor.startMark then s.endDocument 3 .documentStart
    else if s.cursor.seesMark Cursor.endMark then s.endDocument 3 .documentEnd
    else (s.content c).map skipRemark

/-- Cut all tokens. Returns those before the first fault, and whether there is none. -/
def run : Nat → Scanner → List Token × Bool
  | 0, s => (s.tokens.reverse, false)
  | n + 1, s =>
    match s.next with
    | none => (s.tokens.reverse, false)
    | some s => if s.tokens.head? == some .streamEnd then (s.tokens.reverse, true) else run n s

end Scanner

end ColumnFlow.Yaml
