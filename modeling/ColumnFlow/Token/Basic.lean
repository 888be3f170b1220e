import ColumnFlow.Text.Position
import ColumnFlow.Token.Kind

/-!
# Tokens
-/

namespace ColumnFlow

open Text (Position)

structure Token where
  kind : TokenKind
  literal : String := ""
  start : Position := .unset
  /-- Just after the last character. -/
  stop : Position := .unset
  /-- Set for `[bracketed]` and `"quoted"` identifiers. -/
  quoted : Bool := false
  deriving DecidableEq, Repr, Inhabited

namespace Token

/-- Whether the token is an unquoted identifier spelled `word`, in any case. -/
def isWord (t : Token) (word : String) : Bool :=
  t.kind == .ident && !t.quoted && Text.equalFold t.literal word

end Token

/-- Why a token could not be read to its end. -/
inductive LexFault where
  | unterminatedString
  | unterminatedIdent
  | unterminatedComment
  deriving DecidableEq, Repr

def LexFault.message : LexFault → String
  | .unterminatedString => "unterminated string literal"
  | .unterminatedIdent => "unterminated quoted identifier"
  | .unterminatedComment => "unterminated block comment"

structure LexError where
  position : Position
  fault : LexFault
  deriving DecidableEq, Repr

def LexError.render (e : LexError) : String :=
  s!"lexer error at line {e.position.line}, column {e.position.column}: {e.fault.message}"

end ColumnFlow
