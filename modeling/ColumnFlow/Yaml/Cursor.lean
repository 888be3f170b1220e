/-!
# Reading a document from left to right

A cursor holds the characters that are left and where the next one stands: indentation is measured by its
column, and a key has to stand on one line with its colon. A line ends with a line feed or with one of the two
separators that texts have for lines and paragraphs; other forms are replaced beforehand.
-/

namespace ColumnFlow.Yaml

def isBlank (c : Char) : Bool := c == ' ' || c == '\t'

/-- Whether a character ends a line. -/
def isBreak (c : Char) : Bool := c == '\n' || c == '\u2028' || c == '\u2029'

/-- Whether nothing, a blank or the end of a line stands here. -/
def isGap (c : Option Char) : Bool := c.all fun c => isBlank c || isBreak c

/-- Whether nothing or the end of a line stands here. -/
def isLineEnd (c : Option Char) : Bool := c.all isBreak

structure Cursor where
  rest : List Char
  /-- How many characters have been read. -/
  index : Nat := 0
  line : Nat := 0
  column : Nat := 0
  /-- How many lines have ended since the last character that is no blank. -/
  freshLines : Nat := 0

namespace Cursor

def peek (cursor : Cursor) : Option Char := cursor.rest.head?

def peekSecond (cursor : Cursor) : Option Char := cursor.rest[1]?

def advance (cursor : Cursor) : Cursor :=
  match cursor.rest with
  | [] => cursor
  | c :: rest =>
    if isBreak c then
      { rest, index := cursor.index + 1, line := cursor.line + 1, freshLines := cursor.freshLines + 1 }
    else
      { cursor with
        rest, index := cursor.index + 1, column := cursor.column + 1
        freshLines := if isBlank c then cursor.freshLines else 0 }

def advanceBy (cursor : Cursor) : Nat → Cursor
  | 0 => cursor
  | n + 1 => cursor.advance.advanceBy n

/-- Read on as long as the characters are of a kind. -/
def skipWhile (cursor : Cursor) (kind : Char → Bool) : Cursor :=
  cursor.advanceBy (cursor.rest.takeWhile kind).length

/-- Read on to the end of the line. -/
def skipLine (cursor : Cursor) : Cursor := cursor.skipWhile (!isBreak ·)

/-- Whether `mark` stands here at the start of a line, followed by a gap. -/
def seesMark (cursor : Cursor) (mark : List Char) : Bool :=
  cursor.column == 0 && mark.isPrefixOf cursor.rest && isGap cursor.rest[mark.length]?

/-- The mark that a document starts with. -/
def startMark : List Char := ['-', '-', '-']

/-- The mark that a document ends with. -/
def endMark : List Char := ['.', '.', '.']

/-- Whether the document ends here, or another one starts. -/
def seesDocumentMark (cursor : Cursor) : Bool := cursor.seesMark startMark || cursor.seesMark endMark

/-- How many rounds a loop can make that reads a character in each of them. -/
def rounds (cursor : Cursor) : Nat := cursor.rest.length + 1

end Cursor

end ColumnFlow.Yaml
