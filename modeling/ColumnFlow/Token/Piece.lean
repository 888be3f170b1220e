import ColumnFlow.Token.Basic

/-!
# Pieces of text

Lexing first cuts the text into pieces: runs of blanks, comments and the source texts of tokens. Placed one
after the other the pieces are the text again, up to its end or the first NUL character, which ends it too.
No piece depends on what stands on another line, and the only thing a piece needs to know of its own line is
whether anything but blanks came before it: a `GO` separates batches only when it is alone on its line.
-/

namespace ColumnFlow

/-- What a piece is. -/
inductive PieceContent where
  | blank
  | lineComment
  | blockComment
  | token (kind : TokenKind) (literal : String) (quoted : Bool)
  deriving DecidableEq, Repr

structure Piece where
  raw : List Char
  content : PieceContent
  fault : Option LexFault := none
  deriving DecidableEq, Repr

namespace Piece

/-- The character that ends the text wherever it stands. -/
def nul : Char := '\x00'

def isBlank (c : Char) : Bool :=
  c == ' ' || c == '\t' || c == '\n' || c == '\r' || c == '\x0c' || c == '\x0b'

/-- ASCII letters and everything outside ASCII. -/
def isLetter (c : Char) : Bool := c.isAlpha || 0x80 ≤ c.toNat

def isWordStart (c : Char) : Bool := isLetter c || c == '_' || c == '#' || c == '$'

def isWordPart (c : Char) : Bool :=
  isLetter c || c.isDigit || c == '_' || c == '@' || c == '#' || c == '$'

def isHexDigit (c : Char) : Bool :=
  c.isDigit || ('a' ≤ c && c ≤ 'f') || ('A' ≤ c && c ≤ 'F')

def continuesLine (c : Char) : Bool := c != '\n' && c != nul

/-- Blanks that may stand around a separator on its line. -/
def isLineBlank (c : Char) : Bool := c == ' ' || c == '\t' || c == '\r'

/-- The rest of a block comment, and whether it is closed. Comments nest. -/
def takeComment : (depth : Nat) → List Char → List Char × Bool
  | _, [] => ([], false)
  | depth, c :: cs =>
    if c == nul then ([], false)
    else match c, cs with
      | '/', '*' :: rest =>
        let (raw, closed) := takeComment (depth + 1) rest
        ('/' :: '*' :: raw, closed)
      | '*', '/' :: rest =>
        if depth ≤ 1 then (['*', '/'], true)
        else
          let (raw, closed) := takeComment (depth - 1) rest
          ('*' :: '/' :: raw, closed)
      | c, cs =>
        let (raw, closed) := takeComment depth cs
        (c :: raw, closed)

/-- The inside of a delimited text up to its closing delimiter. A doubled delimiter stands for itself. -/
structure Delimited where
  literal : List Char
  raw : List Char
  closed : Bool

def takeDelimited (closing : Char) : List Char → Delimited
  | [] => ⟨[], [], false⟩
  | c :: cs =>
    if c == nul then ⟨[], [], false⟩
    else if c == closing then
      match cs with
      | d :: rest =>
        if d == closing then
          let inner := takeDelimited closing rest
          ⟨closing :: inner.literal, closing :: closing :: inner.raw, inner.closed⟩
        else ⟨[], [closing], true⟩
      | [] => ⟨[], [closing], true⟩
    else
      let inner := takeDelimited closing cs
      ⟨c :: inner.literal, c :: inner.raw, inner.closed⟩

/-- The piece made of `opening`, a delimited text and, when it is not closed, the given fault. -/
def delimited (opening : List Char) (closing : Char) (kind : TokenKind) (quoted : Bool)
    (fault : LexFault) (rest : List Char) : Piece :=
  let inner := takeDelimited closing rest
  { raw := opening ++ inner.raw
    content := .token kind (String.ofList inner.literal) quoted
    fault := if inner.closed then none else some fault }

/-- The exponent of a number: `e` or `E`, a sign, digits. A sign needs no digit after it. -/
def takeExponent : List Char → List Char
  | e :: rest =>
    if e == 'e' || e == 'E' then
      match rest with
      | c :: more =>
        if c == '+' || c == '-' then e :: c :: more.takeWhile Char.isDigit
        else if c.isDigit then e :: rest.takeWhile Char.isDigit
        else []
      | [] => []
    else []
  | [] => []

/-- A decimal number: digits, a point and digits, an exponent, each part optional. -/
def takeDecimal (cs : List Char) : List Char :=
  let whole := cs.takeWhile Char.isDigit
  let afterWhole := cs.dropWhile Char.isDigit
  match afterWhole with
  | '.' :: rest =>
    whole ++ '.' :: rest.takeWhile Char.isDigit ++ takeExponent (rest.dropWhile Char.isDigit)
  | _ => whole ++ takeExponent afterWhole

/-- The number at the head of the text, binary constants `0x...` included. -/
def takeNumber : List Char → List Char
  | '0' :: x :: rest =>
    if x == 'x' || x == 'X' then '0' :: x :: rest.takeWhile isHexDigit
    else takeDecimal ('0' :: x :: rest)
  | cs => takeDecimal cs

/-- Whether a `GO` before this text has the rest of its line to itself: blanks, a repeat count, a comment. -/
def endsLine : List Char → Bool
  | [] => true
  | c :: cs =>
    if c == '\n' then true
    else if isLineBlank c || c.isDigit then endsLine cs
    else c == '-' && cs.head? == some '-'

/-- The symbol at the head of the text and its length. -/
def symbolAt? : Char → Option Char → Option (Symbol × Nat)
  | '+', some '=' => some (.plusEq, 2)
  | '+', _ => some (.plus, 1)
  | '-', some '=' => some (.minusEq, 2)
  | '-', _ => some (.minus, 1)
  | '*', some '=' => some (.starEq, 2)
  | '*', _ => some (.star, 1)
  | '/', some '=' => some (.slashEq, 2)
  | '/', _ => some (.slash, 1)
  | '%', some '=' => some (.percentEq, 2)
  | '%', _ => some (.percent, 1)
  | '&', some '=' => some (.ampEq, 2)
  | '&', _ => some (.amp, 1)
  | '|', some '=' => some (.pipeEq, 2)
  | '|', _ => some (.pipe, 1)
  | '^', some '=' => some (.caretEq, 2)
  | '^', _ => some (.caret, 1)
  | '~', _ => some (.tilde, 1)
  | '=', _ => some (.eq, 1)
  | '<', some '=' => some (.le, 2)
  | '<', some '>' => some (.ne, 2)
  | '<', _ => some (.lt, 1)
  | '>', some '=' => some (.ge, 2)
  | '>', _ => some (.gt, 1)
  | '!', some '=' => some (.ne, 2)
  | '!', some '<' => some (.ge, 2)
  | '!', some '>' => some (.le, 2)
  | '.', _ => some (.dot, 1)
  | ',', _ => some (.comma, 1)
  | ';', _ => some (.semicolon, 1)
  | ':', _ => some (.colon, 1)
  | '(', _ => some (.lparen, 1)
  | ')', _ => some (.rparen, 1)
  | _, _ => none

/-- A token whose literal is its source text. -/
def plain (kind : TokenKind) (raw : List Char) : Piece :=
  { raw, content := .token kind (String.ofList raw) false }

/-- The word at the head of the text: a separator, a reserved word or an identifier. -/
def word (lineBlank : Bool) (cs : List Char) : Piece :=
  let spelled := cs.takeWhile isWordPart
  let rest := cs.dropWhile isWordPart
  let key := Text.lower (String.ofList spelled)
  if key == "go" && lineBlank && endsLine rest then
    { raw := spelled ++ rest.takeWhile continuesLine
      content := .token .separator (String.ofList spelled) false }
  else plain (.ofWord key) spelled

/-- `@name` or `@@name`. -/
def variableName (rest : List Char) : Piece :=
  match rest with
  | '@' :: more => plain .variableName ('@' :: '@' :: more.takeWhile isWordPart)
  | _ => plain .variableName ('@' :: rest.takeWhile isWordPart)

/-- The token at the head of the text `c :: cs`. -/
def token (lineBlank : Bool) (c : Char) (cs : List Char) : Piece :=
  if c == '\'' then
    delimited ['\''] '\'' .string false .unterminatedString cs
  else if c == '[' then
    delimited ['['] ']' .ident true .unterminatedIdent cs
  else if c == '"' then
    delimited ['"'] '"' .ident true .unterminatedIdent cs
  else if c == '@' then variableName cs
  else if (c == 'N' || c == 'n') && cs.head? == some '\'' then
    delimited [c, '\''] '\'' .string false .unterminatedString cs.tail
  else if isWordStart c then word lineBlank (c :: cs)
  else if c.isDigit || (c == '.' && cs.head?.any Char.isDigit) then
    plain .number (takeNumber (c :: cs))
  else
    match symbolAt? c cs.head? with
    | some (s, length) => plain (.symbol s) ((c :: cs).take length)
    | none => plain .illegal [c]

/-- The piece at the head of the text `c :: cs`, where `c` does not end the text. `lineBlank` says that only
blanks precede it on its line. -/
def first (lineBlank : Bool) (c : Char) (cs : List Char) : Piece :=
  if isBlank c then
    { raw := c :: cs.takeWhile isBlank, content := .blank }
  else if c == '-' && cs.head? == some '-' then
    { raw := c :: cs.takeWhile continuesLine, content := .lineComment }
  else if c == '/' && cs.head? == some '*' then
    let (raw, closed) := takeComment 1 cs.tail
    { raw := '/' :: '*' :: raw
      content := .blockComment
      fault := if closed then none else some .unterminatedComment }
  else token lineBlank c cs

/-- Whether only blanks have been read on the line after `c`. -/
def lineBlankAfter (lineBlank : Bool) (c : Char) : Bool :=
  c == '\n' || (lineBlank && isLineBlank c)

/-- Cut a text into pieces. The number counts the characters at its head that belong to a piece already cut. -/
def cut (lineBlank : Bool) : Nat → List Char → List Piece
  | _, [] => []
  | passed + 1, c :: cs => cut (lineBlankAfter lineBlank c) passed cs
  | 0, c :: cs =>
    if c == nul then []
    else
      let piece := first lineBlank c cs
      piece :: cut (lineBlankAfter lineBlank c) (piece.raw.length - 1) cs

end Piece

/-- The pieces of a text. -/
def pieces (source : List Char) : List Piece := Piece.cut true 0 source

end ColumnFlow
