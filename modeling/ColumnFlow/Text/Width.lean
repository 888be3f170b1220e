import ColumnFlow.Text.CodeRanges
import ColumnFlow.Text.WidthTable

/-!
# Display width

How many cells a character takes in a table: wide and fullwidth East Asian characters take two, combining marks
and characters that are not shown take none, and all others take one. A colour sequence, from an escape character
to the next `m`, takes none.
-/

namespace ColumnFlow.Text

def charWidth (c : Char) : Nat :=
  let n := c.toNat
  if n < 0x20 || (0x7F ≤ n && n ≤ 0x9F) || n == 0xAD then 0
  else if n < 0x300 then 1
  else if inRanges combiningRanges n || inRanges invisibleRanges n then 0
  else if inRanges wideRanges n || inRanges laterWideRanges n then 2
  else 1

/-- The character with which a colour sequence starts. -/
def escapeMark : Char := '\x1b'

/-- The width of a text, which starts inside a colour sequence if `inSequence` is set. -/
def widthFrom : Bool → List Char → Nat
  | _, [] => 0
  | inSequence, c :: rest =>
    if c == escapeMark then widthFrom true rest
    else if inSequence then widthFrom (c != 'm') rest
    else charWidth c + widthFrom false rest

def width (cs : List Char) : Nat := widthFrom false cs

/-- Cut a text at its line feeds. There is always at least one line. -/
def splitLines : List Char → List (List Char)
  | [] => [[]]
  | '\n' :: rest => [] :: splitLines rest
  | c :: rest =>
    match splitLines rest with
    | [] => [[c]]
    | line :: lines => (c :: line) :: lines

/-- The width of the widest line. A colour sequence may go on over the end of a line. -/
def widestLine (cs : List Char) : Nat :=
  go false 0 0 cs
where
  go (inSequence : Bool) (widest here : Nat) : List Char → Nat
    | [] => max widest here
    | c :: rest =>
      if c == escapeMark then go true widest here rest
      else if c == '\n' then go inSequence (max widest here) 0 rest
      else if inSequence then go (c != 'm') widest here rest
      else go false widest (here + charWidth c) rest

/-- Fill a line with blanks on the right. -/
def padRight (size : Nat) (cs : List Char) : List Char := cs ++ List.replicate (size - width cs) ' '

/-- Fill a line with blanks on the left. -/
def padLeft (size : Nat) (cs : List Char) : List Char := List.replicate (size - width cs) ' ' ++ cs

/-- A tab as four blanks. -/
def expandTabs (cs : List Char) : List Char :=
  cs.flatMap fun c => if c == '\t' then [' ', ' ', ' ', ' '] else [c]

end ColumnFlow.Text
