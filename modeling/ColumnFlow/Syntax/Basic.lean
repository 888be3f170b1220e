import ColumnFlow.Text.Position
import ColumnFlow.Token.Kind

/-!
# Leaves of the syntax tree

Names, operators and the small closed vocabularies of the grammar. A name part that is not written is empty.
-/

namespace ColumnFlow

open Text (Span)

/-- A name of up to four parts: server, database, schema and object. -/
structure ObjectName where
  span : Span := .unset
  server : String := ""
  database : String := ""
  schema : String := ""
  name : String := ""
  deriving DecidableEq, Repr, Inhabited

namespace ObjectName

/-- The name as written, without delimiters. A database with no schema keeps the empty part between them. -/
def text (o : ObjectName) : String :=
  let qualified := if o.schema == "" then o.name else o.schema ++ "." ++ o.name
  let qualified :=
    if o.database == "" then qualified
    else if o.schema == "" then o.database ++ ".." ++ qualified
    else o.database ++ "." ++ qualified
  if o.server == "" then qualified else o.server ++ "." ++ qualified

/-- `#local` and `##global` temporary tables. -/
def isTemp (o : ObjectName) : Bool := o.name.toList.head? == some '#'

/-- `@table` variables. -/
def isVariable (o : ObjectName) : Bool := o.name.toList.head? == some '@'

/-- The name with these parts, assigned from the right. -/
def ofParts (parts : List String) : ObjectName :=
  let fromRight := parts.reverse
  { name := fromRight.getD 0 "", schema := fromRight.getD 1 ""
    database := fromRight.getD 2 "", server := fromRight.getD 3 "" }

end ObjectName

/-- A column as it is written, with up to three qualifiers. -/
structure ColumnRef where
  span : Span := .unset
  database : String := ""
  schema : String := ""
  table : String := ""
  column : String := ""
  deriving DecidableEq, Repr, Inhabited

/-- The reference with these parts, assigned from the right; a fifth part and more are dropped. -/
def ColumnRef.ofParts (parts : List String) : ColumnRef :=
  let fromRight := parts.reverse
  { column := fromRight.getD 0 "", table := fromRight.getD 1 ""
    schema := fromRight.getD 2 "", database := fromRight.getD 3 "" }

/-- A call whose name starts like this reads a sequence. -/
def sequenceRead : String := "NEXT VALUE FOR"

inductive LiteralKind where
  | number | string | null
  /-- `DEFAULT` where a value may stand. -/
  | default
  deriving DecidableEq, Repr, Inhabited

inductive BinaryOp where
  | or | and
  | eq | ne | lt | gt | le | ge
  | add | sub | bitAnd | bitOr | bitXor
  | mul | div | mod
  deriving DecidableEq, Repr, Inhabited

namespace BinaryOp

def text : BinaryOp → String
  | .or => "OR" | .and => "AND"
  | .eq => "=" | .ne => "<>" | .lt => "<" | .gt => ">" | .le => "<=" | .ge => ">="
  | .add => "+" | .sub => "-" | .bitAnd => "&" | .bitOr => "|" | .bitXor => "^"
  | .mul => "*" | .div => "/" | .mod => "%"

def ofToken? : TokenKind → Option BinaryOp
  | .keyword .OR => some .or
  | .keyword .AND => some .and
  | .symbol .eq => some .eq
  | .symbol .ne => some .ne
  | .symbol .lt => some .lt
  | .symbol .gt => some .gt
  | .symbol .le => some .le
  | .symbol .ge => some .ge
  | .symbol .plus => some .add
  | .symbol .minus => some .sub
  | .symbol .amp => some .bitAnd
  | .symbol .pipe => some .bitOr
  | .symbol .caret => some .bitXor
  | .symbol .star => some .mul
  | .symbol .slash => some .div
  | .symbol .percent => some .mod
  | _ => none

end BinaryOp

inductive UnaryOp where
  | not | minus | plus | complement
  deriving DecidableEq, Repr, Inhabited

def UnaryOp.text : UnaryOp → String
  | .not => "NOT"
  | .minus => "-"
  | .plus => "+"
  | .complement => "~"

inductive SetOp where
  | union | intersect | except
  deriving DecidableEq, Repr, Inhabited

namespace SetOp

def text : SetOp → String
  | .union => "UNION"
  | .intersect => "INTERSECT"
  | .except => "EXCEPT"

def ofToken? : TokenKind → Option SetOp
  | .keyword .UNION => some .union
  | .keyword .INTERSECT => some .intersect
  | .keyword .EXCEPT => some .except
  | _ => none

end SetOp

inductive JoinKind where
  | comma | inner | left | right | full | cross | crossApply | outerApply
  deriving DecidableEq, Repr, Inhabited

def JoinKind.text : JoinKind → String
  | .comma => ","
  | .inner => "INNER"
  | .left => "LEFT"
  | .right => "RIGHT"
  | .full => "FULL"
  | .cross => "CROSS"
  | .crossApply => "CROSS APPLY"
  | .outerApply => "OUTER APPLY"

end ColumnFlow
