import ColumnFlow.Lineage.Record

/-!
# Reports

The results of many definitions with totals over them, and the list of their findings.
-/

namespace ColumnFlow

/-- The lineage of a definition and the file it comes from. -/
structure ReportEntry where
  path : String
  lineage : Lineage

/-- What the definition is called: its name, else its file. -/
def ReportEntry.title (e : ReportEntry) : String :=
  if e.lineage.name == "" then e.path else e.lineage.name

structure Summary where
  definitions : Nat
  failed : Nat
  edges : Nat
  findings : Nat
  gaps : Nat
  distinctSources : Nat
  /-- Absent without findings. -/
  highestRisk : Option RiskLevel

structure Report where
  entries : List ReportEntry
  summary : Summary

namespace Summary

/-- The higher of two risks, either of which may be absent. -/
def higher : Option RiskLevel → Option RiskLevel → Option RiskLevel
  | none, risk => risk
  | some a, none => some a
  | some a, some b => some (a.max b)

/-- The highest risk of one result, if it has findings. -/
def riskOf (l : Lineage) : Option RiskLevel := if l.hasDynamicCode then some l.highestRisk else none

def ofLineages (ls : List Lineage) : Summary :=
  { definitions := ls.length
    failed := (ls.filter (·.hasFailed)).length
    edges := (ls.map (·.edges.length)).foldr (· + ·) 0
    findings := (ls.map (·.findings.length)).foldr (· + ·) 0
    gaps := (ls.map (·.gaps.length)).foldr (· + ·) 0
    distinctSources := (SourceColumn.distinct (ls.flatMap (·.distinctSources))).length
    highestRisk := ls.foldl (fun risk l => higher risk (riskOf l)) none }

/-- The totals on one line. -/
def line (s : Summary) : String :=
  let columns := s!"{s.distinctSources} distinct source column(s)"
  let totals :=
    s!"{s.definitions} definition(s), {s.edges} edge(s), {columns}, {s.findings} finding(s), {s.gaps} gap(s)"
  if s.failed > 0 then totals ++ s!", {s.failed} failed to parse" else totals

end Summary

/-- Results paired with paths by position. There may be fewer paths, or more. -/
def Report.ofLineages (paths : List String) (ls : List Lineage) : Report :=
  { entries := ls.zipIdx.map fun (lineage, i) => { path := paths.getD i "", lineage }
    summary := .ofLineages ls }

/-- A finding and the definition it was made in. -/
structure RiskFinding where
  definition : String
  path : String
  finding : Finding

structure RiskReport where
  findings : List RiskFinding
  threshold : Option RiskLevel
  /-- Whether some finding is at or above the threshold. -/
  exceeded : Bool
  highestRisk : Option RiskLevel

/-- Whether a risk reaches the threshold, if there is one. -/
def RiskLevel.reaches (risk : RiskLevel) : Option RiskLevel → Bool
  | none => false
  | some threshold => threshold.rank ≤ risk.rank

def RiskReport.ofReport (report : Report) (threshold : Option RiskLevel) : RiskReport :=
  let findings := report.entries.flatMap fun e =>
    e.lineage.findings.map fun finding => { definition := e.lineage.name, path := e.path, finding }
  { findings, threshold, exceeded := findings.any fun f => f.finding.risk.reaches threshold
    highestRisk := report.summary.highestRisk }

namespace RiskReport

/-- The outcome on one line. -/
def verdict (r : RiskReport) : String :=
  let count := s!"{r.findings.length} finding(s)"
  let highest := match r.highestRisk with
    | some risk => ", highest risk " ++ risk.text
    | none => ""
  let gate := match r.threshold with
    | some threshold =>
      (if r.exceeded then ", at or above threshold " else ", below threshold ") ++ threshold.text
    | none => ""
  count ++ highest ++ gate

end RiskReport

/-! ### What is said of an edge -/

/-- The marks of an edge that a reader is told about. An empty action or operator is no mark. -/
structure EdgeMarks where
  wildcard : Option String := none
  isLiteral : Bool := false
  isDynamic : Bool := false
  isRemoval : Bool := false
  action : String := ""
  condition : String := ""
  operator : String := ""

/-- The marks in words. -/
def EdgeMarks.notes (m : EdgeMarks) : String :=
  let wildcard := m.wildcard.toList.map fun qualifier =>
    if qualifier == "" then "wildcard" else "wildcard " ++ qualifier ++ ".*"
  let flags := [(m.isLiteral, "literal"), (m.isDynamic, "dynamic"), (m.isRemoval, "delete")].filterMap
    fun (isSet, word) => if isSet then some word else none
  let merge := if m.action == "" then [] else [s!"{m.action} ({m.condition})"]
  let operator := if m.operator == "" || m.operator == "=" then [] else ["op " ++ m.operator]
  "; ".intercalate (wildcard ++ flags ++ merge ++ operator)

/-- The sources of an edge in words; those that are ambiguous get a question mark. -/
def SourceColumn.listText (cs : List SourceColumn) : String :=
  if cs.isEmpty then "-"
  else ", ".intercalate (cs.map fun c => if c.ambiguous then c.qualifiedName ++ "?" else c.qualifiedName)

def Edge.marks (e : Edge) : EdgeMarks :=
  { wildcard := if e.isWildcard then some e.wildcardQualifier else none
    isLiteral := e.isLiteral
    isDynamic := e.isDynamic
    isRemoval := e.isRemoval
    action := (e.merge.map (·.1.text)).getD ""
    condition := (e.merge.map (·.2.text)).getD ""
    operator := (e.operator.map Symbol.text).getD "" }

def Edge.notes (e : Edge) : String := e.marks.notes

end ColumnFlow
