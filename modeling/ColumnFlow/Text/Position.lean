/-!
# Positions

A position is a line, a column and a byte offset. Columns count bytes from 1. A line feed already belongs to
the line it opens, at column 0, so a text that stops right before one ends on the next line.

A `Cursor` is the place reached after some characters have been read. Which position it stands for depends on
the character that follows it.
-/

namespace ColumnFlow.Text

structure Position where
  line : Nat := 0
  column : Nat := 0
  offset : Nat := 0
  deriving DecidableEq, Repr, Inhabited

namespace Position

/-- The position of nothing: no line has number 0. -/
def unset : Position := {}

end Position

/-- The place after a read prefix: the line it is on, the column of the next byte and the bytes read. -/
structure Cursor where
  line : Nat := 1
  column : Nat := 1
  offset : Nat := 0
  deriving DecidableEq, Repr, Inhabited

namespace Cursor

def advance (cursor : Cursor) (c : Char) : Cursor :=
  if c = '\n' then
    { line := cursor.line + 1, column := 1, offset := cursor.offset + c.utf8Size }
  else
    { cursor with column := cursor.column + c.utf8Size, offset := cursor.offset + c.utf8Size }

def advanceAll (cursor : Cursor) (cs : List Char) : Cursor := cs.foldl advance cursor

/-- The position of the cursor in front of `rest`. -/
def position (cursor : Cursor) (rest : List Char) : Position :=
  match rest with
  | '\n' :: _ => { line := cursor.line + 1, column := 0, offset := cursor.offset }
  | _ => { line := cursor.line, column := cursor.column, offset := cursor.offset }

end Cursor

/-- A range of the text; `stop` is exclusive. -/
structure Span where
  start : Position := .unset
  stop : Position := .unset
  deriving DecidableEq, Repr, Inhabited

/-- A range as a caller states it. Nothing is promised about it: a line may be 0 or less, the range may not
fit the text, and it may end before it starts. -/
structure Extent where
  startLine : Int
  startColumn : Int
  startOffset : Int
  stopLine : Int
  stopOffset : Int

namespace Extent

def isValid (x : Extent) : Bool := 0 < x.startLine && 0 < x.stopLine

def contains (x : Extent) (offset : Int) : Bool :=
  x.startOffset ≤ offset && offset < x.stopOffset

/-- The characters left after the first `n` bytes. -/
def dropBytes : Nat → List Char → List Char
  | _, [] => []
  | n, c :: cs => if n = 0 then c :: cs else dropBytes (n - c.utf8Size) cs

/-- The characters within the first `n` bytes. -/
def takeBytes : Nat → List Char → List Char
  | _, [] => []
  | n, c :: cs => if n = 0 then [] else c :: takeBytes (n - c.utf8Size) cs

def slice (src : String) (start stop : Nat) : String :=
  String.ofList (takeBytes (stop - start) (dropBytes start src.toList))

/-- The text covered by the range, empty when the range does not fit. -/
def text (x : Extent) (src : String) : String :=
  if !x.isValid || x.startOffset < 0 || (src.utf8ByteSize : Int) < x.stopOffset
      || x.stopOffset < x.startOffset then ""
  else slice src x.startOffset.toNat x.stopOffset.toNat

/-- Line and column of the start. -/
def startText (x : Extent) : String := s!"{x.startLine}:{x.startColumn}"

end Extent

namespace Span

def unset : Span := {}

def extent (s : Span) : Extent where
  startLine := s.start.line
  startColumn := s.start.column
  startOffset := s.start.offset
  stopLine := s.stop.line
  stopOffset := s.stop.offset

def text (s : Span) (src : String) : String := s.extent.text src

end Span

end ColumnFlow.Text
