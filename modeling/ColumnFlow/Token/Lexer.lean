import ColumnFlow.Token.Piece

/-!
# Lexing

Tokens are the pieces that are neither blanks nor comments, each with the positions of its two ends. A last
token stands for the end of the text. A piece that is not closed is a token all the same, and is reported.
-/

namespace ColumnFlow

open Text (Cursor)

namespace Lexer

/-- The text a list of pieces starts with. -/
def following : List Piece → List Char
  | [] => []
  | piece :: _ => piece.raw

def endToken (cursor : Cursor) : Token :=
  { kind := .eof, start := cursor.position [], stop := cursor.position [] }

/-- The tokens of pieces that start at the cursor. -/
def place (cursor : Cursor) : List Piece → List Token
  | [] => [endToken cursor]
  | piece :: rest =>
    let after := cursor.advanceAll piece.raw
    match piece.content with
    | .token kind literal quoted =>
      { kind, literal, quoted
        start := cursor.position piece.raw
        stop := after.position (following rest) } :: place after rest
    | _ => place after rest

/-- The faults of pieces that start at the cursor, each at the start of its piece. -/
def faults (cursor : Cursor) : List Piece → List LexError
  | [] => []
  | piece :: rest =>
    let later := faults (cursor.advanceAll piece.raw) rest
    match piece.fault with
    | some fault => { position := cursor.position piece.raw, fault } :: later
    | none => later

end Lexer

/-- The tokens of a text, the last one standing for its end. -/
def tokenize (source : String) : List Token := Lexer.place {} (pieces source.toList)

/-- What is wrong with the tokens of a text. -/
def lexErrors (source : String) : List LexError := Lexer.faults {} (pieces source.toList)

end ColumnFlow
