/-!
# Patterns for names and paths

A star stands for any run of bytes without a slash, a question mark for one character that is no slash, and
brackets for one character of a class. A backslash takes away the meaning of the character after it. A pattern
that is not well formed matches nothing.

As a star counts bytes, it may end inside a character. Each byte that is left of that character then counts as
a replacement character of its own.
-/

namespace ColumnFlow

/-- What stands for one character. -/
inductive GlobPiece where
  | char (c : Char)
  | any
  | oneOf (negated : Bool) (ranges : List (Char × Char))
  deriving DecidableEq, Repr

/-- A run of pieces, and whether a star stands before it. -/
structure GlobChunk where
  afterStar : Bool
  pieces : List GlobPiece
  deriving DecidableEq, Repr

namespace Glob

/-- One end of a range, and what follows. A class cannot end here. -/
def rangeEnd? : List Char → Option (Char × List Char)
  | [] => none
  | '\\' :: c :: rest => if rest.isEmpty then none else some (c, rest)
  | c :: rest => if c == '-' || c == ']' || c == '\\' || rest.isEmpty then none else some (c, rest)

/-- The ranges of a class up to its closing bracket, and what follows. -/
def ranges? : Nat → Bool → List Char → Option (List (Char × Char) × List Char)
  | 0, _, _ => none
  | n + 1, mayEnd, cs =>
    match mayEnd, cs with
    | true, ']' :: rest => some ([], rest)
    | _, cs => do
      let (low, rest) ← rangeEnd? cs
      let (high, rest) ← match rest with
        | '-' :: after => rangeEnd? after
        | rest => some (low, rest)
      let (others, rest) ← ranges? n true rest
      return ((low, high) :: others, rest)

/-- The chunks of a pattern. `star` says whether a star stands before what is left, and `pieces` holds those of
the current chunk, latest first. -/
def chunks? : Nat → Bool → List GlobPiece → List Char → Option (List GlobChunk)
  | 0, _, _, _ => none
  | _ + 1, star, pieces, [] =>
    if star || !pieces.isEmpty then some [{ afterStar := star, pieces := pieces.reverse }] else some []
  | n + 1, star, pieces, c :: rest =>
    match c with
    | '*' =>
      if pieces.isEmpty then chunks? n true [] rest
      else do return { afterStar := star, pieces := pieces.reverse } :: (← chunks? n true [] rest)
    | '?' => chunks? n star (.any :: pieces) rest
    | '[' =>
      let (negated, body) := match rest with
        | '^' :: body => (true, body)
        | body => (false, body)
      do
        let (ranges, after) ← ranges? (body.length + 1) false body
        chunks? n star (.oneOf negated ranges :: pieces) after
    | '\\' =>
      match rest with
      | c :: rest => chunks? n star (.char c :: pieces) rest
      | [] => none
    | c => chunks? n star (.char c :: pieces) rest

def parse? (pattern : String) : Option (List GlobChunk) :=
  chunks? (pattern.toList.length + 1) false [] pattern.toList

/-- One byte of a name: the first of a character, or a later one. -/
inductive NameByte where
  | first (c : Char)
  | later
  deriving DecidableEq, Repr

/-- The bytes of a name. -/
def bytes (name : String) : List NameByte :=
  name.toList.flatMap fun c => .first c :: List.replicate (c.utf8Size - 1) .later

def pieceMatches : GlobPiece → Char → Bool
  | .char d, c => c == d
  | .any, c => c != '/'
  | .oneOf negated ranges, c => ranges.any (fun (low, high) => low ≤ c && c ≤ high) != negated

/-- Whether a piece stands for a byte from inside a character. No written character does. -/
def pieceMatchesLater : GlobPiece → Bool
  | .char _ => false
  | piece => pieceMatches piece '\ufffd'

/-- What is left of a name after the pieces of a chunk at its start. -/
def matchPieces : List GlobPiece → List NameByte → Option (List NameByte)
  | [], bs => some bs
  | _ :: _, [] => none
  | piece :: pieces, .first c :: bs =>
    if pieceMatches piece c then matchPieces pieces (bs.drop (c.utf8Size - 1)) else none
  | piece :: pieces, .later :: bs => if pieceMatchesLater piece then matchPieces pieces bs else none

/-- The first place in a name where a chunk matches, looking no further than the next slash. The last chunk
has to take all that is left. -/
def firstMatch (pieces : List GlobPiece) (isLast : Bool) (bs : List NameByte) : Option (List NameByte) :=
  match matchPieces pieces bs with
  | some [] => some []
  | some (d :: left) => if isLast then after bs else some (d :: left)
  | none => after bs
where
  /-- The places after the first. -/
  after : List NameByte → Option (List NameByte)
    | [] => none
    | b :: rest =>
      if b == .first '/' then none
      else match matchPieces pieces rest with
        | some [] => some []
        | some (d :: left) => if isLast then after rest else some (d :: left)
        | none => after rest

/-- Match chunk after chunk. Each is taken at the first place where it matches. -/
def matchChunks : List GlobChunk → List NameByte → Bool
  | [], bs => bs.isEmpty
  | chunk :: rest, bs =>
    if chunk.afterStar then
      if chunk.pieces.isEmpty then !bs.contains (.first '/')
      else match firstMatch chunk.pieces rest.isEmpty bs with
        | some left => matchChunks rest left
        | none => false
    else match matchPieces chunk.pieces bs with
      | some left => matchChunks rest left
      | none => false

/-- Whether a name or path matches a pattern. -/
def globMatches (pattern name : String) : Bool :=
  match parse? pattern with
  | some chunks => matchChunks chunks (bytes name)
  | none => false

end Glob

end ColumnFlow
