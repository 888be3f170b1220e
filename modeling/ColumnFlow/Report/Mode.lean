import ColumnFlow.Text.Blank
import ColumnFlow.Text.Case

/-!
# Output modes
-/

namespace ColumnFlow

inductive OutputMode where
  /-- Text on a terminal, Markdown elsewhere. -/
  | auto
  | text | markdown | json
  deriving DecidableEq, Repr, Inhabited

namespace OutputMode

def name : OutputMode → String
  | .auto => "auto"
  | .text => "text"
  | .markdown => "markdown"
  | .json => "json"

/-- Read a name, blanks around it and case ignored. Any other word means `auto`. -/
def ofText (s : String) : OutputMode :=
  match Text.lower (Text.trim s) with
  | "text" => .text
  | "markdown" | "md" => .markdown
  | "json" => .json
  | _ => .auto

/-- The mode that is used, given whether output goes to a terminal. -/
def effective (mode : OutputMode) (isTerminal : Bool) : OutputMode :=
  match mode with
  | .auto => if isTerminal then .text else .markdown
  | mode => mode

end OutputMode

end ColumnFlow
