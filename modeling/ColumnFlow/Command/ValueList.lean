/-!
# Lists in one argument

Items stand between commas. An item in double quotes may hold commas and line ends, and quotes written twice.
Only the first line counts that is not empty. A carriage return before a line feed, or at the very end, belongs
to the line end.
-/

namespace ColumnFlow

/-- A place in an argument. Lines and columns are counted from one, columns in bytes. -/
structure ListPlace where
  line : Nat
  column : Nat
  deriving DecidableEq, Repr

/-- Where a list is not well formed, with the line on which its items start. -/
inductive ListFault where
  | bareQuote (firstLine : Nat) (place : ListPlace)
  | strayQuote (firstLine : Nat) (place : ListPlace)
  | noItems
  deriving DecidableEq, Repr

def ListFault.message : ListFault → String
  | .bareQuote firstLine place => located firstLine place "bare \" in non-quoted-field"
  | .strayQuote firstLine place => located firstLine place "extraneous or missing \" in quoted-field"
  | .noItems => "EOF"
where
  /-- A complaint about a place in the list. The first line is named if the place is on another one. -/
  located (firstLine : Nat) (place : ListPlace) (text : String) : String :=
    let complaint := s!"parse error on line {place.line}, column {place.column}: {text}"
    if place.line == firstLine then complaint else s!"record on line {firstLine}; {complaint}"

namespace ListPlace

/-- The place after a number of bytes on the same line. -/
def right (place : ListPlace) (bytes : Nat) : ListPlace := { place with column := place.column + bytes }

/-- The place after a line feed. At the end of the argument there is no further line. -/
def below (place : ListPlace) (atEnd : Bool) : ListPlace :=
  if atEnd then place.right 1 else { line := place.line + 1, column := 1 }

end ListPlace

namespace ValueList

def byteCount (cs : List Char) : Nat := (String.ofList cs).utf8ByteSize

/-- All line ends as line feeds. -/
def unifyLineEnds : List Char → List Char
  | [] => []
  | ['\r'] => []
  | '\r' :: '\n' :: rest => '\n' :: unifyLineEnds rest
  | c :: rest => c :: unifyLineEnds rest

/-- An item after its opening quote: its text latest character first, then what follows its closing quote, and
the place there. -/
def quotedItem (firstLine : Nat) :
    List Char → ListPlace → List Char → Except ListFault (List Char × List Char × ListPlace)
  | _, place, [] => .error (.strayQuote firstLine place)
  | item, place, '"' :: '"' :: rest => quotedItem firstLine ('"' :: item) (place.right 2) rest
  | item, place, '"' :: rest =>
    match rest with
    | [] => .ok (item, rest, place.right 1)
    | c :: _ =>
      if c == ',' || c == '\n' then .ok (item, rest, place.right 1) else .error (.strayQuote firstLine place)
  | item, place, '\n' :: rest => quotedItem firstLine ('\n' :: item) (place.below rest.isEmpty) rest
  | item, place, c :: rest => quotedItem firstLine (c :: item) (place.right c.utf8Size) rest

/-- The items of a line. -/
def items (firstLine : Nat) : Nat → ListPlace → List Char → Except ListFault (List String)
  | 0, _, _ => .error .noItems
  | n + 1, place, cs => do
    let (item, rest, place) ← match cs with
      | '"' :: body => quotedItem firstLine [] (place.right 1) body
      | cs =>
        let item := cs.takeWhile fun c => c != ',' && c != '\n'
        let beforeQuote := item.takeWhile (· != '"')
        if beforeQuote.length < item.length then
          .error (.bareQuote firstLine (place.right (byteCount beforeQuote)))
        else .ok (item.reverse, cs.drop item.length, place.right (byteCount item))
    let text := String.ofList item.reverse
    match rest with
    | ',' :: rest => return text :: (← items firstLine n (place.right 1) rest)
    | _ => return [text]

/-- The items of an argument. -/
def ofText (s : String) : Except ListFault (List String) :=
  if s == "" then .ok []
  else
    let cs := unifyLineEnds s.toList
    let blank := (cs.takeWhile (· == '\n')).length
    match cs.drop blank with
    | [] => .error .noItems
    | rest => items (blank + 1) (rest.length + 1) { line := blank + 1, column := 1 } rest

/-- A text without the carriage returns that stand before a line feed. -/
def dropReturns : List Char → List Char
  | '\r' :: '\n' :: rest => '\n' :: dropReturns rest
  | c :: rest => c :: dropReturns rest
  | [] => []

/-- The items of a list that is written as one argument and read again: a single empty item leaves nothing. -/
def readBack (items : List String) : List String :=
  if items == [""] then [] else items.map fun item => String.ofList (dropReturns item.toList)

end ValueList

end ColumnFlow
