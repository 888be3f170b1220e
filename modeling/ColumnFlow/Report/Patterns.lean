import ColumnFlow.Lineage.Record
import ColumnFlow.Report.Render

/-!
# The list of reported constructs
-/

namespace ColumnFlow

structure PatternList where
  patterns : List RiskPattern
  /-- Show descriptions and samples. -/
  detailed : Bool

namespace PatternList

/-- The patterns of a kind, in any case, at or above a risk. An empty kind stands for all. -/
def select (kind : String) (least : RiskLevel) : List RiskPattern :=
  riskPatterns.filter fun p =>
    (kind == "" || Text.equalFold p.kind.text kind) && least.rank ≤ p.risk.rank

/-- The lines of patterns, with a heading before each new risk. -/
def grouped (heading : RiskLevel → List String) (lines : RiskPattern → List String) :
    Option RiskLevel → List RiskPattern → List String
  | _, [] => []
  | current, p :: rest =>
    (if current == some p.risk then [] else heading p.risk) ++ lines p ++ grouped heading lines (some p.risk) rest

def textLines (l : PatternList) : List String :=
  let lines (p : RiskPattern) : List String :=
    let kind := String.ofList (Text.padRight 13 p.kind.text.toList)
    [s!"    {styled kind}  {p.construct}"]
      ++ if l.detailed then [styled ("        " ++ p.description), styled ("        e.g. " ++ p.sample), ""] else []
  ["", styled s!"Dynamic SQL Patterns ({l.patterns.length})", ""]
    ++ grouped (fun risk => [styled ("  " ++ risk.text)]) lines none l.patterns
    ++ ["", styled "Findings at or above fail_on_risk make 'sqllineage risk' exit non-zero", ""]

def markdownLines (l : PatternList) : List String :=
  let lines (p : RiskPattern) : List String :=
    [s!"- **{p.kind.text}** - {p.construct}"]
      ++ if l.detailed then ["  " ++ p.description, "", "  ```sql", "  " ++ p.sample, "  ```"] else []
  [Markdown.header 1 "Dynamic SQL Patterns", ""]
    ++ grouped (fun risk => [Markdown.header 2 risk.text, ""]) lines none l.patterns ++ [""]

/-- The list in a mode that is not `auto`. -/
def render (l : PatternList) (mode : OutputMode) : String :=
  match mode with
  | .json => (JsonValue.list (l.patterns.map (·.json))).render
  | .markdown => joinLines l.markdownLines
  | _ => joinLines l.textLines

end PatternList

end ColumnFlow
