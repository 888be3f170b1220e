import ColumnFlow.Lineage.Risk
import ColumnFlow.Lineage.Statement
import ColumnFlow.Syntax.Walk

/-!
# Dynamic code

Each statement is searched for constructs that run code which is not in the text, those inside it apart, since
they are statements of their own.
-/

namespace ColumnFlow

/-- System procedures that run a text or a prepared statement. -/
def dynamicProcedure? (name : String) : Option (FindingKind × RiskLevel) :=
  match Text.lower name with
  | "sp_executesql" => some (.spExecuteSql, .high)
  | "sp_execute" => some (.spExecute, .medium)
  | "sp_prepexec" => some (.spExecute, .medium)
  | _ => none

/-- Whether `part` occurs in a text. -/
def occursIn (part : List Char) : List Char → Bool
  | [] => part.isEmpty
  | c :: rest => part.isPrefixOf (c :: rest) || occursIn part rest

/-- Whether a variable is named like a text of code. -/
def isSuspicious (name : String) : Bool :=
  ["sql", "query", "cmd"].any fun part => occursIn part.toList (Text.lower name).toList

/-- Whether an argument is a variable that is named like a text of code. -/
def ExecParam.isSuspicious (param : ExecParam) : Bool :=
  match param.value with
  | some (.localVar _ name) => ColumnFlow.isSuspicious name
  | _ => false

/-- What a call runs that is not in the text. -/
def ExecStmt.risk? (exec : ExecStmt) : Option (FindingKind × RiskLevel) :=
  match exec.target with
  | .text _ server => if server != "" then some (.openQuery, .critical) else some (.execString, .high)
  | .localVar _ => some (.execVariable, .high)
  | .procedure name =>
    match dynamicProcedure? name.name with
    | some found => some found
    | none => if exec.params.any (·.isSuspicious) then some (.execVariable, .medium) else none

/-- Whether a call names a procedure that does not itself run a text. -/
def ExecStmt.isStatic (exec : ExecStmt) : Bool :=
  match exec.target with
  | .procedure name => (dynamicProcedure? name.name).isNone
  | _ => false

/-- What is reported of a node. -/
def Node.risk? : Node → Option (FindingKind × RiskLevel)
  | .stmt (.insert s) =>
    match s.source with
    | .exec exec => if exec.isStatic then some (.insertExec, .low) else none
    | _ => none
  | .stmt (.exec exec) => exec.risk?
  | .table (.remote ..) => some (.openQuery, .critical)
  | _ => none

/-- How many characters of a construct are shown. -/
def maxPattern : Nat := 120

/-- A text on one line, shortened. -/
def shortened (text : String) : String :=
  let line := " ".intercalate (Text.words text)
  if line.length ≤ maxPattern then line else String.ofList (line.toList.take maxPattern) ++ "..."

/-- The nodes of a statement without those of the statements inside it. -/
def Stmt.ownOutline (stmt : Stmt) : List Outline :=
  match stmt with
  | .ifElse _ cond _ _ | .loop _ cond _ => Outline.ofExpr cond
  | .block .. | .tryCatch .. | .createProc .. | .createFunction .. | .createTrigger .. => []
  | _ => Outline.ofStmt stmt

/-- The findings of the statement with the given number, in the order of a walk. -/
def Stmt.findings (source : String) (stmt : Stmt) (number : Nat) : List Finding :=
  (Outline.visitAll (fun _ => false) stmt.ownOutline).filterMap fun node =>
    node.risk?.map fun (kind, risk) =>
      { kind, risk, pattern := shortened (node.span.text source), line := node.span.start.line
        column := node.span.start.column, statement := number }

/-- Whether one finding stands no later than another. -/
def Finding.isBefore (a b : Finding) : Bool :=
  if a.line == b.line then a.column ≤ b.column else a.line < b.line

/-- All findings of a script by their places. -/
def Script.findings (script : Script) : List Finding :=
  (script.sites.zipIdx.flatMap fun (site, number) => site.stmt.findings script.source number).mergeSort
    Finding.isBefore

end ColumnFlow
