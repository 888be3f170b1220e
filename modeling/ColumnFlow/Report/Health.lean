import ColumnFlow.Graph.Build
import ColumnFlow.Graph.Reach
import ColumnFlow.Number.Double
import ColumnFlow.Report.Render

/-!
# Health of a project

How complete the lineage of a project is: checks with their issues, a score from 0 to 100, and what can be
done about the issues.
-/

namespace ColumnFlow

inductive CheckStatus where
  | pass | warn | error
  deriving DecidableEq, Repr, Inhabited

def CheckStatus.text : CheckStatus → String
  | .pass => "pass"
  | .warn => "warn"
  | .error => "error"

/-- The outcome of a check, as far as score and advice depend on it. -/
structure CheckOutcome where
  rule : String
  status : CheckStatus
  issues : Int

/-- What an issue costs. The more definitions there are, the less a single one weighs. -/
def issuePenalty (definitions : Int) : Int :=
  if definitions > 100 then 1 else if definitions > 50 then 2 else if definitions > 10 then 3 else 5

/-- The score after a check. Errors cost twice as much as warnings. -/
def CheckOutcome.lower (penalty score : Double) (c : CheckOutcome) : Double :=
  let cost := (Double.ofInt c.issues).mul penalty
  match c.status with
  | .pass => score
  | .warn => score.sub cost
  | .error => score.sub (cost.mul (.ofInt 2))

/-- From 100, less the penalties; never below 0. It is kept in double precision while it is worked out. -/
def healthScore (checks : List CheckOutcome) (definitions : Int) : Int :=
  let score := checks.foldl (CheckOutcome.lower (.ofInt (issuePenalty definitions))) (.ofInt 100)
  if score.isBelowZero then 0 else score.whole

/-- What to do about the issues of a rule. -/
def advice? : String → Option String
  | "LN01" => some "Fix the syntax errors so the definitions can be analyzed"
  | "LN02" => some "List target columns explicitly in INSERT statements"
  | "LN03" => some "Qualify columns with a table alias when joining several tables"
  | "LN04" | "CF02" => some "Add a schema_file so SELECT * can be expanded into columns"
  | "LN05" => some "Check the procedures that write a column back into its own sources"
  | "DS01" => some "Replace dynamic SQL with static statements or document its data flow"
  | "DS02" => some "Review low risk dynamic SQL for hidden data flow"
  | "CF01" => some "Run from a directory with sqllineage.yaml or pass --config"
  | _ => none

/-- Advice for the checks that have issues, each once, at most five. -/
def healthAdvice (checks : List CheckOutcome) : List String :=
  (distinctBy id ((checks.filter (·.issues != 0)).filterMap fun c => advice? c.rule)).take 5

structure HealthCheck where
  rule : String
  name : String
  group : String
  status : CheckStatus
  details : List String

namespace HealthCheck

/-- A check that fails with the given status if there are issues. -/
def ofDetails (rule name group : String) (failing : CheckStatus) (details : List String) : HealthCheck :=
  { rule, name, group, status := if details.isEmpty then .pass else failing, details }

def outcome (c : HealthCheck) : CheckOutcome :=
  { rule := c.rule, status := c.status, issues := c.details.length }

/-- The group as a title. -/
def title (c : HealthCheck) : String :=
  match c.group with
  | "parsing" => "Parsing"
  | "coverage" => "Coverage"
  | "dynamic sql" => "Dynamic Sql"
  | "setup" => "Setup"
  | group => group

def issueText (c : HealthCheck) : String :=
  if c.details.isEmpty then "" else s!" ({c.details.length} issues)"

end HealthCheck

/-- What a health report is made under. -/
structure HealthSetup where
  configFile : String
  schemaFile : String
  threshold : Option RiskLevel

structure HealthReport where
  summary : Summary
  checks : List HealthCheck

namespace HealthReport

/-- Details of one kind over all entries, each told what the entry is called. -/
def details (report : Report) (f : String → Lineage → List String) : List String :=
  report.entries.flatMap fun e => f e.title e.lineage

def unexpandedWildcards (report : Report) : List String :=
  details report fun name l =>
    (l.edges.filter fun e => e.isWildcard && e.column == wildcardColumn).map fun e =>
      s!"{name}:{e.line}: {e.targetName}"

/-- Findings for which `keep` holds. -/
def findingDetails (report : Report) (keep : Finding → Bool) : List String :=
  details report fun name l =>
    (l.findings.filter keep).map fun f => s!"{name}:{f.line}: {f.kind.text} ({f.risk.text})"

/-- The checks by the names of their groups. -/
def checksOf (report : Report) (setup : HealthSetup) : List HealthCheck :=
  let parse := details report fun name l => l.parseErrors.map fun e => s!"{name}: {e.render}"
  let gaps := details report fun name l => l.gaps.map fun g => s!"{name}:{g.line}: {g.cause.reason}"
  let ambiguous := details report fun name l =>
    l.edges.flatMap fun e =>
      (e.sources.filter (·.ambiguous)).map fun c => s!"{name}:{e.line}: {c.column}"
  let wildcards := unexpandedWildcards report
  let graph := ColumnGraph.ofLineages (report.entries.map (·.lineage))
  let cycles := graph.cycle?.toList.map fun path => " -> ".intercalate path
  let gated := findingDetails report fun f => f.risk.reaches setup.threshold
  let ungated := findingDetails report fun f => !f.risk.reaches setup.threshold
  let config := if setup.configFile == "" then ["no sqllineage.yaml found, using defaults"] else []
  let schema := if setup.schemaFile == "" && !wildcards.isEmpty then
      ["no schema_file set, SELECT * cannot be expanded"]
    else []
  [.ofDetails "LN02" "No coverage gaps" "coverage" .warn gaps,
   .ofDetails "LN03" "Column references resolve" "coverage" .warn ambiguous,
   .ofDetails "LN04" "Wildcards expanded" "coverage" .warn wildcards,
   .ofDetails "LN05" "No circular column lineage" "coverage" .warn cycles,
   .ofDetails "DS01" "No dynamic SQL at or above threshold" "dynamic sql" .error gated,
   .ofDetails "DS02" "No dynamic SQL below threshold" "dynamic sql" .warn ungated,
   .ofDetails "LN01" "Definitions parse" "parsing" .error parse,
   .ofDetails "CF01" "Configuration file" "setup" .warn config,
   .ofDetails "CF02" "Schema file" "setup" .warn schema]

def ofReport (report : Report) (setup : HealthSetup) : HealthReport :=
  { summary := report.summary, checks := checksOf report setup }

def outcomes (h : HealthReport) : List CheckOutcome := h.checks.map (·.outcome)

def score (h : HealthReport) : Int := healthScore h.outcomes h.summary.definitions

def advice (h : HealthReport) : List String := healthAdvice h.outcomes

def issueCount (h : HealthReport) : Nat := (h.checks.map (·.details.length)).foldr (· + ·) 0

/-! ### Rendering -/

def checkJson (c : HealthCheck) : JsonValue :=
  .record <| [("rule_id", .text c.rule), ("name", .text c.name), ("group", .text c.group),
    ("status", .text c.status.text), ("issue_count", .ofNat c.details.length)]
    ++ JsonValue.listField "details" (c.details.map .text)

def json (h : HealthReport) : JsonValue :=
  .record [
    ("summary", h.summary.json),
    ("health_checks", .list (h.checks.map checkJson)),
    ("score", .int h.score),
    ("recommendations", if h.advice.isEmpty then .null else .texts h.advice),
    ("issue_count", .ofNat h.issueCount)]

/-- The lines of checks, with a heading before each new group. -/
def checkLines (heading : HealthCheck → List String) (lines : HealthCheck → List String) :
    String → List HealthCheck → List String
  | _, [] => []
  | group, c :: rest =>
    (if c.group == group then [] else heading c) ++ lines c ++ checkLines heading lines c.group rest

def numbered (lead : String) (items : List String) : List String :=
  items.zipIdx.map fun (item, i) => s!"{lead}{i + 1}. {item}"

def bar (c : Char) (size : Nat) : String := String.ofList (List.replicate size c)

/-- A check with its first three issues. -/
def checkText (c : HealthCheck) : List String :=
  let icon := match c.status with
    | .pass => "✓"
    | .warn => "!"
    | .error => "✗"
  let shown := (c.details.take 3).map fun detail => styled ("       - " ++ detail)
  let more := if c.details.length > 3 then [s!"       ... and {c.details.length - 3} more"] else []
  [s!"   {icon} {c.rule}: {c.name}{c.issueText}"] ++ shown ++ more

def textLines (h : HealthReport) : List String :=
  let s := h.summary
  ["", "Lineage Health Report", bar '=' 55, "", "Project Summary",
    s!"   Definitions: {s.definitions} | Failed: {s.failed} | Edges: {s.edges}",
    s!"   Source columns: {s.distinctSources} | Findings: {s.findings} | Gaps: {s.gaps}",
    "", "Health Checks", ""]
    ++ checkLines (fun c => ["   " ++ c.title, "   " ++ bar '-' 40]) checkText "" h.checks
    ++ ["", bar '=' 55, s!"   Health Score: {h.score}/100", ""]
    ++ if h.advice.isEmpty then [] else ["Recommendations"] ++ numbered "   " h.advice ++ [""]

def checkMarkdown (c : HealthCheck) : List String :=
  let status := Text.upper c.status.text
  s!"- **[{status}]** {c.rule}: {c.name}{c.issueText}" :: c.details.map ("  - " ++ ·)

def markdownLines (h : HealthReport) : List String :=
  let s := h.summary
  ["# Lineage Health Report", "", "## Project Summary", "",
    s!"- **Definitions**: {s.definitions}",
    s!"- **Failed to parse**: {s.failed}",
    s!"- **Edges**: {s.edges}",
    s!"- **Distinct source columns**: {s.distinctSources}",
    s!"- **Findings**: {s.findings}",
    s!"- **Coverage gaps**: {s.gaps}",
    "", "## Health Checks", ""]
    ++ checkLines (fun c => ["### " ++ c.title, ""]) checkMarkdown "" h.checks
    ++ ["", s!"**Health Score**: {h.score}/100", ""]
    ++ if h.advice.isEmpty then [] else ["## Recommendations", ""] ++ numbered "" h.advice ++ [""]

def render (h : HealthReport) (mode : OutputMode) : String :=
  match mode with
  | .json => h.json.render
  | .markdown => joinLines h.markdownLines
  | _ => joinLines h.textLines

end HealthReport

end ColumnFlow
