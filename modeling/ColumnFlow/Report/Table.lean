import ColumnFlow.Text.Case
import ColumnFlow.Text.Width

/-!
# Tables

A table of cells under headers, drawn with lines or written as Markdown. A column of numbers is aligned to
the right, every other one to the left. A drawn column is as wide as its widest line, up to its limit if it has
one; a cell with more characters than that goes on in the next line of its row. Colour sequences inside a cell
count for nothing, and are ended and taken up again where such a cell is cut.
-/

namespace ColumnFlow

inductive Cell where
  | text (value : String)
  | number (value : Nat)
  deriving DecidableEq, Repr

namespace Cell

/-- What is written in the cell. -/
def chars : Cell → List Char
  | .text value => (Text.expandTabs value.toList).filter (· != '\r')
  | .number value => (toString value).toList

def isNumber : Cell → Bool
  | .number _ => true
  | .text _ => false

end Cell

structure Table where
  headers : List String
  rows : List (List Cell)
  /-- The widest a column may be, in characters. -/
  limits : List (Option Nat) := []

namespace Table

/-- Whether each column holds numbers only. -/
def numeric (t : Table) : List Bool :=
  t.headers.zipIdx.map fun (_, i) => t.rows.all fun row => (row[i]?.map Cell.isNumber).getD true

def limit (t : Table) (column : Nat) : Option Nat := (t.limits[column]?).join

/-! ### Drawn tables -/

/-- The sequence that ends all colours. -/
def colourReset : List Char := ['\x1b', '[', '0', 'm']

/-- A cell that is cut into lines after every `size` characters. -/
structure Wrapping where
  /-- The text so far, latest character first. -/
  text : List Char := []
  /-- How many characters the current line has. -/
  used : Nat := 0
  inSequence : Bool := false
  /-- The latest colour sequence, unless it ended all colours. -/
  sequence : List Char := []

namespace Wrapping

/-- Start a new line. Colours are ended before it and taken up again after it. -/
def breakLine (w : Wrapping) : Wrapping :=
  let text := if w.sequence.isEmpty then '\n' :: w.text
    else w.sequence.reverse ++ '\n' :: colourReset.reverse ++ w.text
  { w with text, used := 0 }

/-- Add a character to the current line, or a line feed, or a new line for it if the current one is full. -/
def put (size : Nat) (w : Wrapping) (c : Char) : Wrapping :=
  let w := if c == '\n' || (w.used == size && !w.inSequence) then w.breakLine else w
  if c == '\n' then w else { w with text := c :: w.text, used := if w.inSequence then w.used else w.used + 1 }

def next (size : Nat) (w : Wrapping) (c : Char) : Wrapping :=
  let w := if c == Text.escapeMark then { w with inSequence := true, sequence := [] } else w
  let w := if w.inSequence then { w with sequence := w.sequence ++ [c] } else w
  let w := w.put size c
  { w with
    inSequence := w.inSequence && c != 'm'
    sequence := if w.sequence == colourReset then [] else w.sequence }

/-- The whole text. Colours are ended with it. -/
def result (w : Wrapping) : List Char :=
  w.text.reverse ++ if w.sequence.isEmpty then [] else colourReset

end Wrapping

/-- The lines of a cell. One with a limit is cut after that many characters of a line. -/
def cellLines (limit : Option Nat) (cs : List Char) : List (List Char) :=
  Text.splitLines <| match limit with
    | some size => (cs.foldl (Wrapping.next size) {}).result
    | none => cs

/-- The texts of headers and rows as they are drawn. -/
def drawnRows (t : Table) : List (List (List Char)) :=
  t.headers.map (fun header => (Text.upper header).toList) :: t.rows.map (·.map Cell.chars)

/-- The width of each column. -/
def widths (t : Table) : List Nat :=
  t.headers.zipIdx.map fun (_, i) =>
    let widest := t.drawnRows.foldl (fun widest row =>
      max widest (Text.widestLine (row.getD i []))) 0
    match t.limit i with
    | some limit => min widest limit
    | none => widest

/-- A line across the table. -/
def rule (left middle right : Char) (widths : List Nat) : List Char :=
  let runs := widths.map fun w => List.replicate (w + 2) '─'
  left :: [middle].intercalate runs ++ [right]

/-- A line of a cell in its column. Blanks on the side that is filled up do not count. -/
def align (isNumber : Bool) (width : Nat) (line : List Char) : List Char :=
  if isNumber then Text.padLeft width (line.dropWhile (· == ' '))
  else Text.padRight width (line.reverse.dropWhile (· == ' ')).reverse

/-- One line of a row. -/
def rowLine (numeric : List Bool) (widths : List Nat) (parts : List (List Char)) : List Char :=
  let cells := (parts.zip (widths.zip numeric)).map fun (part, w, isNumber) =>
    ' ' :: align isNumber w part ++ [' ']
  '│' :: ['│'].intercalate cells ++ ['│']

/-- The lines of a row: as many as its longest cell needs. -/
def rowLines (t : Table) (numeric : List Bool) (widths : List Nat) (row : List (List Char)) :
    List (List Char) :=
  let cells := row.zipIdx.map fun (cell, i) => cellLines (t.limit i) cell
  let height := cells.foldl (fun height lines => max height lines.length) 1
  (List.range height).map fun k => rowLine numeric widths (cells.map fun lines => lines.getD k [])

/-- The table drawn with lines. -/
def draw (t : Table) : List String :=
  let numeric := t.numeric
  let widths := t.widths
  let lines := match t.drawnRows with
    | [] => []
    | header :: rows =>
      [rule '┌' '┬' '┐' widths] ++ t.rowLines numeric widths header ++ [rule '├' '┼' '┤' widths]
        ++ rows.flatMap (t.rowLines numeric widths) ++ [rule '└' '┴' '┘' widths]
  lines.map String.ofList

/-! ### Markdown -/

/-- A cell in Markdown, where bars and line feeds have a meaning. -/
def markdownCell (cs : List Char) : String :=
  String.ofList <| cs.flatMap fun c =>
    if c == '|' then ['\\', '|'] else if c == '\n' then "<br/>".toList else [c]

def markdownRow (cells : List (List Char)) : String :=
  "|" ++ String.join (cells.map fun cell => " " ++ markdownCell cell ++ " |")

def markdown (t : Table) : List String :=
  let marks := t.numeric.map fun isNumber => if isNumber then " ---:|" else " --- |"
  markdownRow (t.headers.map String.toList) :: ("|" ++ String.join marks)
    :: t.rows.map fun row => markdownRow (row.map Cell.chars)

end Table

end ColumnFlow
