import ColumnFlow.Report.Basic
import ColumnFlow.Report.Mode
import ColumnFlow.Report.Table
import ColumnFlow.Text.Terminal

/-!
# Rendering reports

A report is a list of lines in text and Markdown, and a document in JSON.
-/

namespace ColumnFlow

open JsonValue (ofNat textField)

/-- A line that is set off from the others. Tabs become blanks, and when it holds several lines the shorter
ones are filled up to the widest. -/
def styled (text : String) : String :=
  let rec joinBreaks : List Char → List Char
    | '\r' :: '\n' :: rest => '\n' :: joinBreaks rest
    | c :: rest => c :: joinBreaks rest
    | [] => []
  match Text.splitLines (joinBreaks (Text.expandTabs text.toList)) with
  | [line] => String.ofList line
  | lines =>
    let widest := lines.foldl (fun widest line => max widest (Text.shownWidth line)) 0
    let fill (line : List Char) : List Char := line ++ List.replicate (widest - Text.shownWidth line) ' '
    String.ofList (['\n'].intercalate (lines.map fill))

/-- A text of lines, each ended by a line feed. -/
def joinLines (lines : List String) : String := String.join (lines.map (· ++ "\n"))

namespace Markdown

def header (level : Nat) (text : String) : String :=
  String.ofList (List.replicate level '#') ++ " " ++ text

def keyValue (key value : String) : String := s!"**{key}:** {value}"

end Markdown

/-! ### Tables -/

def edgeTable (edges : List Edge) : Table where
  headers := ["#", "Kind", "Target", "Sources", "Transformation", "Notes", "Line"]
  rows := edges.map fun e =>
    [.number e.statement, .text e.kind.text, .text e.targetName, .text (SourceColumn.listText e.sources),
      .text e.transform.text, .text e.notes, .number e.line]
  limits := [none, none, none, some 60, some 40]

def Finding.positionText (f : Finding) : String := s!"{f.line}:{f.column}"

def findingTable (findings : List Finding) : Table where
  headers := ["Risk", "Kind", "Position", "Pattern"]
  rows := findings.map fun f =>
    [.text f.risk.text, .text f.kind.text, .text f.positionText, .text f.pattern]

def riskTable (findings : List RiskFinding) : Table where
  headers := ["Definition", "Risk", "Kind", "Position", "Pattern"]
  rows := findings.map fun f =>
    [.text f.definition, .text f.finding.risk.text, .text f.finding.kind.text,
      .text f.finding.positionText, .text f.finding.pattern]

def gapTable (gaps : List Gap) : Table where
  headers := ["#", "Line", "Reason", "Detail"]
  rows := gaps.map fun g =>
    [.number g.statement, .number g.line, .text g.cause.reason, .text g.cause.detail]

/-! ### JSON -/

/-- The field of a risk that may be absent. -/
def riskField (name : String) (risk : Option RiskLevel) : List (String × JsonValue) :=
  risk.toList.map fun level => (name, .text level.text)

def Summary.json (s : Summary) : JsonValue :=
  .record <| [("definitions", ofNat s.definitions), ("failed", ofNat s.failed), ("edges", ofNat s.edges),
    ("findings", ofNat s.findings), ("gaps", ofNat s.gaps),
    ("distinct_sources", ofNat s.distinctSources)] ++ riskField "highest_risk" s.highestRisk

def Report.json (r : Report) : JsonValue :=
  .record [
    ("definitions", .list (r.entries.map fun e => .record (textField "path" e.path ++ e.lineage.fields))),
    ("summary", r.summary.json)]

def RiskReport.json (r : RiskReport) : JsonValue :=
  .record <|
    [("findings", .list (r.findings.map fun f =>
      .record (("definition", .text f.definition) :: textField "path" f.path ++ f.finding.fields)))]
    ++ riskField "threshold" r.threshold ++ [("exceeded", .bool r.exceeded)]
    ++ riskField "highest_risk" r.highestRisk

/-! ### Lineage -/

namespace ReportEntry

/-- The path of an entry that is not called by it. -/
def shownPath (e : ReportEntry) : Option String :=
  if e.path != "" && e.path != e.title then some e.path else none

def textLines (e : ReportEntry) : List String :=
  let l := e.lineage
  [styled e.title] ++ e.shownPath.toList.map styled
    ++ l.parseErrors.map (fun error => styled ("✗ " ++ error.render))
    ++ (if !l.edges.isEmpty then (edgeTable l.edges).draw
        else if l.hasFailed then [] else [styled "no column lineage"])
    ++ (if l.findings.isEmpty then [] else (findingTable l.findings).draw)
    ++ (if l.gaps.isEmpty then [] else (gapTable l.gaps).draw)
    ++ [""]

/-- A part of a Markdown report under its own header. -/
def markdownPart (title : String) (lines : List String) : List String :=
  if lines.isEmpty then [] else [Markdown.header 3 title, ""] ++ lines ++ [""]

def markdownLines (e : ReportEntry) : List String :=
  let l := e.lineage
  [Markdown.header 2 e.title, ""]
    ++ e.shownPath.toList.flatMap (fun path => [Markdown.keyValue "File" path, ""])
    ++ markdownPart "Parse errors" (l.parseErrors.map fun error => "- " ++ error.render)
    ++ (if l.edges.isEmpty then [] else (edgeTable l.edges).markdown ++ [""])
    ++ markdownPart "Dynamic SQL" (if l.findings.isEmpty then [] else (findingTable l.findings).markdown)
    ++ markdownPart "Coverage gaps" (if l.gaps.isEmpty then [] else (gapTable l.gaps).markdown)

end ReportEntry

namespace Report

def textLines (r : Report) : List String :=
  r.entries.flatMap (·.textLines) ++ [styled r.summary.line]

def markdownLines (r : Report) : List String :=
  [Markdown.header 1 "Column Lineage", ""] ++ r.entries.flatMap (·.markdownLines)
    ++ [Markdown.keyValue "Summary" r.summary.line]

/-- The report in a mode that is not `auto`. -/
def render (r : Report) (mode : OutputMode) : String :=
  match mode with
  | .json => r.json.render
  | .markdown => joinLines r.markdownLines
  | _ => joinLines r.textLines

end Report

/-! ### Risks -/

namespace RiskReport

def textLines (r : RiskReport) : List String :=
  if r.findings.isEmpty then [styled "Dynamic SQL", styled "✓ No dynamic SQL found"]
  else [styled "Dynamic SQL"] ++ (riskTable r.findings).draw ++ [styled r.verdict]

def markdownLines (r : RiskReport) : List String :=
  [Markdown.header 1 "Dynamic SQL", ""]
    ++ if r.findings.isEmpty then ["No dynamic SQL found."]
      else (riskTable r.findings).markdown ++ ["", r.verdict]

/-- The report in a mode that is not `auto`. -/
def render (r : RiskReport) (mode : OutputMode) : String :=
  match mode with
  | .json => r.json.render
  | .markdown => joinLines r.markdownLines
  | _ => joinLines r.textLines

end RiskReport

end ColumnFlow
