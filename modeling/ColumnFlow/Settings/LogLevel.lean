import ColumnFlow.Text.Case
import ColumnFlow.Text.Number
import ColumnFlow.Text.Quoted

/-!
# Log levels

A level is a number: a name, and possibly an offset from it, as in `warn+2`.
-/

namespace ColumnFlow

inductive LogLevelFault where
  | unknownName
  | badOffset (text : String) (fault : Text.NumberFault)
  deriving DecidableEq, Repr

def LogLevelFault.message : LogLevelFault → String
  | .unknownName => "unknown name"
  | .badOffset text fault => s!"strconv.Atoi: parsing {Text.quoted text}: {fault.message}"

namespace LogLevel

def debug : Int := -4

def warn : Int := 4

/-- The number of a name in any case. -/
def ofName? (name : String) : Option Int :=
  match Text.upper name with
  | "DEBUG" => some debug
  | "INFO" => some 0
  | "WARN" => some warn
  | "ERROR" => some 8
  | _ => none

/-- Read a level. The offset is looked at before the name, and the sum is taken in 64 bits. -/
def ofText (s : String) : Except LogLevelFault Int := do
  let isSign (c : Char) : Bool := c == '+' || c == '-'
  let name := String.ofList (s.toList.takeWhile (!isSign ·))
  let offsetText := String.ofList (s.toList.dropWhile (!isSign ·))
  let offset ← if offsetText == "" then pure 0
    else (Text.readDecimal offsetText).mapError (.badOffset offsetText)
  match ofName? name with
  | some level => return Text.wrapSigned (level + offset)
  | none => throw .unknownName

end LogLevel

end ColumnFlow
