import ColumnFlow.Text.Blank
import ColumnFlow.Text.Case
import ColumnFlow.Text.Quoted

/-!
# Risk of dynamic code

A finding is a construct whose flow of data cannot be followed because the code it runs is not in the text.
-/

namespace ColumnFlow

/-- How much a construct defeats the analysis. -/
inductive RiskLevel where
  | low | medium | high | critical
  deriving DecidableEq, Repr, Inhabited

namespace RiskLevel

def all : List RiskLevel := [.low, .medium, .high, .critical]

def rank : RiskLevel → Nat
  | .low => 0
  | .medium => 1
  | .high => 2
  | .critical => 3

def text : RiskLevel → String
  | .low => "Low"
  | .medium => "Medium"
  | .high => "High"
  | .critical => "Critical"

def max (a b : RiskLevel) : RiskLevel := if a.rank < b.rank then b else a

def ofRank? (n : Int) : Option RiskLevel := all.find? fun level => (level.rank : Int) == n

/-- The name of a rank; a rank that is none is written as a number. -/
def rankText (n : Int) : String :=
  match ofRank? n with
  | some level => level.text
  | none => s!"RiskLevel({n})"

/-- Read a name, blanks around it and case ignored. -/
def ofText? (s : String) : Option RiskLevel :=
  match Text.lower (Text.trim s) with
  | "low" => some .low
  | "medium" => some .medium
  | "high" => some .high
  | "critical" => some .critical
  | _ => none

/-- Why a text is no risk level. -/
def unknownMessage (s : String) : String :=
  s!"unknown risk level {Text.quoted s} (want low, medium, high or critical)"

end RiskLevel

inductive FindingKind where
  | execString | spExecuteSql | spExecute | execVariable | openQuery | insertExec
  deriving DecidableEq, Repr, Inhabited

def FindingKind.text : FindingKind → String
  | .execString => "ExecString"
  | .spExecuteSql => "SpExecuteSql"
  | .spExecute => "SpExecute"
  | .execVariable => "ExecVariable"
  | .openQuery => "OpenQuery"
  | .insertExec => "InsertExec"

structure Finding where
  kind : FindingKind
  /-- The construct as written, on one line and shortened. -/
  pattern : String
  line : Nat
  column : Nat
  risk : RiskLevel
  statement : Nat
  deriving DecidableEq, Repr

/-- A construct that is reported, for documentation. -/
structure RiskPattern where
  kind : FindingKind
  risk : RiskLevel
  construct : String
  description : String
  sample : String
  deriving DecidableEq, Repr

/-- The constructs that are reported, highest risk first. -/
def riskPatterns : List RiskPattern :=
  [{ kind := .openQuery
     risk := .critical
     construct := "OPENQUERY / OPENROWSET / OPENDATASOURCE"
     description := "Reads from a remote source through a query string."
     sample := "SELECT a FROM OPENQUERY(LinkedSrv, 'SELECT a FROM t') q" },
   { kind := .openQuery
     risk := .critical
     construct := "EXEC (...) AT server"
     description := "Runs SQL text on a linked server."
     sample := "EXEC ('SELECT 1') AT LinkedSrv" },
   { kind := .execString
     risk := .high
     construct := "EXEC (string)"
     description := "Runs a string literal, variable or concatenation as SQL."
     sample := "EXEC ('SELECT * FROM ' + @table)" },
   { kind := .execVariable
     risk := .high
     construct := "EXEC @procedure"
     description := "Calls a procedure whose name is held in a variable."
     sample := "EXEC @proc" },
   { kind := .spExecuteSql
     risk := .high
     construct := "sp_executesql"
     description := "Runs parameterized SQL text."
     sample := "EXEC sp_executesql @sql" },
   { kind := .spExecute
     risk := .medium
     construct := "sp_execute / sp_prepexec"
     description := "Runs a prepared statement handle."
     sample := "EXEC sp_execute 1, 2" },
   { kind := .execVariable
     risk := .medium
     construct := "EXEC proc @sql"
     description := "Passes a variable named like SQL text (sql, query, cmd) to a procedure."
     sample := "EXEC dbo.run_batch @text = @myQuery" },
   { kind := .insertExec
     risk := .low
     construct := "INSERT ... EXEC"
     description := "Inserts the result set of a procedure whose columns are not visible."
     sample := "INSERT INTO #t EXEC dbo.p" }]

end ColumnFlow
