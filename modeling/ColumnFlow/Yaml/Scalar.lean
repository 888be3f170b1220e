import ColumnFlow.Yaml.Cursor

/-!
# Scalars

Texts with and without quotes, and blocks of lines. Lines of a scalar that spans several are folded: one line
feed becomes a blank, and each further one is kept. A separator of lines or paragraphs is kept always.
-/

namespace ColumnFlow.Yaml

/-- What stands between two words of a scalar: blanks, or line ends with blanks around them that do not
count. Lists hold the latest character first. -/
structure Gap where
  blanks : List Char := []
  isBroken : Bool := false
  /-- The first line end, unless a backslash hides it. -/
  firstBreak : Option Char := none
  furtherBreaks : List Char := []

namespace Gap

def add (gap : Gap) (c : Char) : Gap :=
  if isBreak c then
    if gap.isBroken then { gap with furtherBreaks := c :: gap.furtherBreaks }
    else { isBroken := true, firstBreak := some c }
  else if gap.isBroken then gap
  else { gap with blanks := c :: gap.blanks }

/-- What a gap stands for. -/
def folded (gap : Gap) : List Char :=
  if !gap.isBroken then gap.blanks
  else if gap.firstBreak == some '\n' then
    if gap.furtherBreaks.isEmpty then [' '] else gap.furtherBreaks
  else gap.furtherBreaks ++ gap.firstBreak.toList

/-- Read the blanks and line ends that stand here. No tab may stand where a line has to be indented. -/
def read (indent : Nat) (gap : Gap) (cursor : Cursor) : Option (Gap × Cursor) :=
  (cursor.rest.takeWhile fun c => isBlank c || isBreak c).foldlM
    (fun (gap, cursor) c =>
      if c == '\t' && gap.isBroken && cursor.column < indent then none
      else some (gap.add c, cursor.advance))
    (gap, cursor)

end Gap

/-! ### Quoted -/

def hexValue? (c : Char) : Option Nat :=
  if '0' ≤ c && c ≤ '9' then some (c.toNat - 48)
  else if 'a' ≤ c && c ≤ 'f' then some (c.toNat - 87)
  else if 'A' ≤ c && c ≤ 'F' then some (c.toNat - 55)
  else none

/-- The character with this code in hexadecimal digits. -/
def hexChar? (digits : List Char) : Option Char := do
  let code ← digits.foldlM (fun code c => return code * 16 + (← hexValue? c)) 0
  if code.isValidChar then return Char.ofNat code else none

/-- What a letter after a backslash stands for. -/
def escape? : Char → Option Char
  | '0' => some '\x00'
  | 'a' => some '\x07'
  | 'b' => some '\x08'
  | 't' | '\t' => some '\t'
  | 'n' => some '\n'
  | 'v' => some '\x0b'
  | 'f' => some '\x0c'
  | 'r' => some '\r'
  | 'e' => some '\x1b'
  | ' ' => some ' '
  | '"' => some '"'
  | '\'' => some '\''
  | '\\' => some '\\'
  | 'N' => some '\u0085'
  | '_' => some '\u00a0'
  | 'L' => some '\u2028'
  | 'P' => some '\u2029'
  | _ => none

/-- How many hexadecimal digits follow a letter after a backslash. -/
def hexLength : Char → Nat
  | 'x' => 2
  | 'u' => 4
  | 'U' => 8
  | _ => 0

/-- The character that is written after a backslash, and how many characters that takes. -/
def escaped? (letter : Char) (rest : List Char) : Option (Char × Nat) :=
  match hexLength letter with
  | 0 => (escape? letter).map (·, 1)
  | size => if rest.length < size then none else (hexChar? (rest.take size)).map (·, size + 1)

/-- A part of a quoted text up to a gap or the closing quote. -/
structure QuotedPart where
  /-- The text so far, latest character first. -/
  text : List Char
  cursor : Cursor
  /-- Whether the part ends with a line end that a backslash hides. -/
  hidesBreak : Bool := false

/-- Between double quotes a backslash starts an escape. -/
def doubleQuotedPart : Nat → List Char → Cursor → Option QuotedPart
  | 0, _, _ => none
  | n + 1, text, cursor =>
    match cursor.rest with
    | [] => some { text, cursor }
    | '\\' :: rest =>
      match rest with
      | [] => none
      | c :: digits =>
        if isBreak c then some { text, cursor := cursor.advanceBy 2, hidesBreak := true }
        else do
          let (c, size) ← escaped? c digits
          doubleQuotedPart n (c :: text) (cursor.advanceBy (size + 1))
    | c :: _ =>
      if isBlank c || isBreak c || c == '"' then some { text, cursor }
      else doubleQuotedPart n (c :: text) cursor.advance

/-- Between single quotes a quote is written twice. -/
def singleQuotedPart : Nat → List Char → Cursor → Option QuotedPart
  | 0, _, _ => none
  | n + 1, text, cursor =>
    match cursor.rest with
    | [] => some { text, cursor }
    | '\'' :: '\'' :: _ => singleQuotedPart n ('\'' :: text) (cursor.advanceBy 2)
    | c :: _ =>
      if isBlank c || isBreak c || c == '\'' then some { text, cursor }
      else singleQuotedPart n (c :: text) cursor.advance

/-- A text up to its closing quote. No mark of a document may stand in it. -/
def quotedFrom (quote : Char) : Nat → List Char → Cursor → Option (String × Cursor)
  | 0, _, _ => none
  | n + 1, text, cursor => do
    if cursor.seesDocumentMark || cursor.rest.isEmpty then none
    let part ← if quote == '"' then doubleQuotedPart cursor.rounds text cursor
      else singleQuotedPart cursor.rounds text cursor
    if part.cursor.peek == some quote then
      return (String.ofList part.text.reverse, part.cursor.advance)
    let (gap, cursor) ← Gap.read 0 { isBroken := part.hidesBreak } part.cursor
    quotedFrom quote n (gap.folded ++ part.text) cursor

/-- The quoted scalar that starts here. -/
def quoted (quote : Char) (cursor : Cursor) : Option (String × Cursor) :=
  quotedFrom quote cursor.rounds [] cursor.advance

/-! ### Plain -/

/-- Characters that have a meaning inside brackets. -/
def isFlowMark (c : Char) : Bool := c == ',' || c == '[' || c == ']' || c == '\x7b' || c == '\x7d'

/-- Whether a plain scalar can start with a character, given the one after it. -/
def startsPlain (inFlow : Bool) (c : Char) (next : Option Char) : Bool :=
  if c == '-' then !isGap next
  else if c == '?' || c == ':' then !isGap next && !inFlow
  else
    !isGap (some c) && !isFlowMark c && !(['#', '&', '*', '!', '|', '>', '\'', '"', '%', '@', '\x60'].contains c)

/-- The characters of a plain scalar up to a gap. -/
def plainPart (inFlow : Bool) : List Char → List Char
  | [] => []
  | c :: rest =>
    if isBlank c || isBreak c then []
    else if c == ':' && isGap rest.head? then []
    else if inFlow && (isFlowMark c || c == '?') then []
    else c :: plainPart inFlow rest

/-- Go on with a plain scalar, which ends at a comment or, outside of brackets, at a line that is not indented
enough. Returns the gap after it, too. -/
def plainFrom (inFlow : Bool) (indent : Nat) :
    Nat → List Char → Gap → Cursor → Option (String × Gap × Cursor)
  | 0, _, _, _ => none
  | n + 1, text, gap, cursor =>
    if cursor.seesDocumentMark || cursor.peek == some '#' then some (String.ofList text.reverse, gap, cursor)
    else
      let part := plainPart inFlow cursor.rest
      let (text, gap) := if part.isEmpty then (text, gap) else (part.reverse ++ (gap.folded ++ text), {})
      let cursor := cursor.advanceBy part.length
      if cursor.rest.isEmpty || !isGap cursor.peek then some (String.ofList text.reverse, gap, cursor)
      else do
        let (gap, cursor) ← gap.read indent cursor
        if !inFlow && cursor.column < indent then some (String.ofList text.reverse, gap, cursor)
        else plainFrom inFlow indent n text gap cursor

/-- The plain scalar that starts here, and whether lines have ended after it. -/
def plain (inFlow : Bool) (indent : Nat) (cursor : Cursor) : Option (String × Bool × Cursor) := do
  let (text, gap, cursor) ← plainFrom inFlow indent cursor.rounds [] {} cursor
  return (text, gap.isBroken, cursor)

/-! ### Blocks -/

/-- What is done with line ends at the end of a block. -/
inductive Chomp where
  | strip | clip | keep
  deriving DecidableEq

structure BlockHeader where
  chomp : Chomp := .clip
  /-- By how much the block is indented; zero if its first line tells. -/
  indent : Nat := 0

def chompMark? (c : Char) : Option Chomp :=
  if c == '+' then some .keep else if c == '-' then some .strip else none

def digit? (c : Char) : Option Nat := if c.isDigit then some (c.toNat - 48) else none

/-- The indicators after `|` or `>`, and how many there are. -/
def blockHeader (cursor : Cursor) : Option (BlockHeader × Nat) :=
  let first := cursor.peek
  let second := cursor.peekSecond
  match first.bind chompMark?, first.bind digit? with
  | some chomp, _ =>
    match second.bind digit? with
    | some 0 => none
    | some indent => some ({ chomp, indent }, 2)
    | none => some ({ chomp }, 1)
  | none, some 0 => none
  | none, some indent =>
    match second.bind chompMark? with
    | some chomp => some ({ chomp, indent }, 2)
    | none => some ({ indent }, 1)
  | none, none => some ({}, 0)

/-- What stands between two lines of a block. -/
structure BlockGap where
  /-- The ends of the blank lines, latest first. -/
  breaks : List Char := []
  /-- The deepest indentation. -/
  deepest : Nat := 0
  cursor : Cursor

/-- Read blank lines and the indentation of the line after them. No tab may stand in it. -/
def BlockGap.read (indent : Nat) : Nat → BlockGap → Option BlockGap
  | 0, gap => some gap
  | n + 1, gap =>
    let spaces := (gap.cursor.rest.takeWhile (· == ' ')).length
    let cursor := gap.cursor.advanceBy (if indent == 0 then spaces else min spaces (indent - gap.cursor.column))
    let gap := { gap with deepest := max gap.deepest cursor.column, cursor }
    match cursor.peek with
    | none => some gap
    | some c =>
      if c == '\t' && (indent == 0 || cursor.column < indent) then none
      else if isBreak c then BlockGap.read indent n { gap with breaks := c :: gap.breaks, cursor := cursor.advance }
      else some gap

/-- The lines of a block as far as they have been read, latest character first. -/
structure BlockText where
  text : List Char := []
  /-- The end of the last line. -/
  lineEnd : Option Char := none
  /-- Whether the last line starts with a blank. -/
  startsBlank : Bool := false

/-- Add a line. In a folded block a line feed between two lines that do not start with a blank becomes a blank,
unless blank lines stand between them. -/
def BlockText.add (isFolded : Bool) (b : BlockText) (gap : BlockGap) (line : List Char) (lineEnd : Option Char) :
    BlockText :=
  let startsBlank := line.head?.any isBlank
  let joint :=
    if isFolded && !b.startsBlank && !startsBlank && b.lineEnd == some '\n' then
      if gap.breaks.isEmpty then [' '] else []
    else b.lineEnd.toList
  { text := line.reverse ++ (gap.breaks ++ (joint ++ b.text)), lineEnd, startsBlank }

/-- Read the lines that are indented by `indent`. -/
def blockLines (isFolded : Bool) (indent : Nat) : Nat → BlockText → BlockGap → Option (BlockText × BlockGap)
  | 0, _, _ => none
  | n + 1, b, gap =>
    if gap.cursor.column != indent || gap.cursor.rest.isEmpty then some (b, gap)
    else do
      let line := gap.cursor.rest.takeWhile (!isBreak ·)
      let cursor := gap.cursor.advanceBy line.length
      let b := b.add isFolded gap line cursor.peek
      blockLines isFolded indent n b (← BlockGap.read indent cursor.rounds { cursor := cursor.advance })

/-- The block that starts here with `|` or `>`, in a node whose parent is indented by `parent`. -/
def block (isFolded : Bool) (parent : Int) (cursor : Cursor) : Option (String × Cursor) := do
  let cursor := cursor.advance
  let (header, size) ← blockHeader cursor
  let cursor := (cursor.advanceBy size).skipWhile isBlank
  let cursor := if cursor.peek == some '#' then cursor.skipLine else cursor
  if !isLineEnd cursor.peek then none
  let given := if header.indent == 0 then 0 else parent.toNat + header.indent
  let gap ← BlockGap.read given cursor.rounds { cursor := cursor.advance }
  let indent := if given == 0 then max (max gap.deepest (parent + 1).toNat) 1 else given
  let (b, gap) ← blockLines isFolded indent gap.cursor.rounds {} gap
  let text := if header.chomp == .strip then b.text else b.lineEnd.toList ++ b.text
  let text := if header.chomp == .keep then gap.breaks ++ text else text
  return (String.ofList text.reverse, gap.cursor)

end ColumnFlow.Yaml
