import ColumnFlow.Lineage.Extract
import ColumnFlow.Proofs.Constructs
import Mathlib.Data.List.Perm.Basic

/-!
# Which dynamic constructs are found

The walk of a statement leaves out three places where an expression may stand: the count of a `TOP` in a
statement that writes, the default of a parameter and the definition of a computed column. Remote sources in
these places, `Script.unseen`, are the only constructs of a script without a finding.
-/

namespace ColumnFlow

open Text (Span)

/-! ### What the walk leaves out -/

/-- The remote sources in the fields of a statement that the walk does not enter. -/
def Stmt.unseen : Stmt → List Span
  | .insert s => Remotes.ofTop? s.top
  | .update s => Remotes.ofTop? s.top
  | .delete s => Remotes.ofTop? s.top
  | .createProc _ _ _ params _ => Remotes.ofParams params
  | .createFunction _ header _ => Remotes.ofParams header.params ++ Remotes.ofColumnDefs header.tableColumns
  | .createTable _ _ columns => Remotes.ofColumnDefs columns
  | .declare _ vars => vars.flatMap fun decl => Remotes.ofColumnDefs decl.tableColumns
  | _ => []

def Script.unseen (script : Script) : List Span := script.sites.flatMap (·.stmt.unseen)

/-- The constructs of a statement without those of the statements inside it. -/
def Stmt.ownConstructs (stmt : Stmt) : List Construct :=
  Outline.constructs stmt.ownOutline ++ Construct.remotes stmt.unseen

namespace Construct

open Outline

attribute [local simp] ofStmt Site.ofStmt Stmt.ownConstructs Stmt.ownOutline Stmt.unseen

mutual

theorem ofStmt_eq_sites (owner : Option Owner) (stmt : Stmt) :
    ofStmt stmt = (Site.ofStmt owner stmt).flatMap (·.stmt.ownConstructs) := by
  match stmt with
  | .missing => rfl
  | .truncate .. | .drop .. | .transaction .. | .setOption .. | .cursor .. | .control .. | .use .. | .other .. | .select _
  | .createView .. | .declareCursor .. | .insert _ | .update _ | .delete _ | .merge _ | .exec _ | .createTable ..
  | .declare .. | .print .. | .raise .. | .setVariable .. =>
    simp [Outline.ofStmt, leaf]
  | .return _ value query =>
    cases query <;> simp [Outline.ofStmt]
  | .block _ body => simp [ofStmts_eq_sites owner body]
  | .ifElse _ cond yes no => simp [ofStmt_eq_sites owner yes, ofStmt?_eq_sites owner no]
  | .loop _ cond body => simp [ofStmt_eq_sites owner body]
  | .tryCatch _ attempt handler => simp [ofStmts_eq_sites owner attempt, ofStmts_eq_sites owner handler]
  | .createProc _ _ name _ body => simp [ofStmts_eq_sites (some { name }) body]
  | .createFunction _ header body => simp [ofStmts_eq_sites (some { name := header.name }) body]
  | .createTrigger _ _ name table _ body => simp [ofStmts_eq_sites (some { name, trigger := table }) body]

theorem ofStmt?_eq_sites (owner : Option Owner) (stmt : Option Stmt) :
    ofStmt? stmt = (Site.ofStmt? owner stmt).flatMap (·.stmt.ownConstructs) := by
  match stmt with
  | none => rfl
  | some stmt => exact ofStmt_eq_sites owner stmt

theorem ofStmts_eq_sites (owner : Option Owner) (stmts : List Stmt) :
    ofStmts stmts = (Site.ofStmts owner stmts).flatMap (·.stmt.ownConstructs) := by
  match stmts with
  | [] => rfl
  | stmt :: rest => simp [ofStmts, Site.ofStmts, ofStmt_eq_sites owner stmt, ofStmts_eq_sites owner rest]

end

end Construct

theorem Script.constructs_eq_sites (script : Script) :
    script.constructs = script.sites.flatMap (·.stmt.ownConstructs) := by
  simp only [Script.constructs, Script.sites, Batch.sites, List.flatMap_assoc,
    Construct.ofStmts_eq_sites none]

/-! ### Findings -/

namespace Construct

def span : Construct → Span
  | .remote span => span
  | .call exec => exec.span

/-- The kind of finding that a construct calls for. A call of a procedure that neither runs a text itself nor is
given one calls for none. -/
def kind? : Construct → Option FindingKind
  | .remote _ => some .openQuery
  | .call exec =>
    match exec.target with
    | .text _ server => if server = "" then some .execString else some .openQuery
    | .localVar _ => some .execVariable
    | .procedure name =>
      if Text.lower name.name = "sp_executesql" then some .spExecuteSql
      else if Text.lower name.name = "sp_execute" ∨ Text.lower name.name = "sp_prepexec" then some .spExecute
      else if exec.params.any (·.isSuspicious) then some .execVariable
      else none

/-- The kind and the place of the finding that a construct calls for. -/
def report? (c : Construct) : Option (FindingKind × Nat × Nat) :=
  c.kind?.map fun kind => (kind, c.span.start.line, c.span.start.column)

end Construct

/-- The kind and the place of a finding. -/
def Finding.report (f : Finding) : FindingKind × Nat × Nat := (f.kind, f.line, f.column)

/-- The reports of findings about constructs. A finding of kind `insertExec` is about the statement around a
call. -/
def dynamicReports (findings : List Finding) : List (FindingKind × Nat × Nat) :=
  (findings.filter (·.kind != .insertExec)).map Finding.report

theorem dynamicProcedure?_kind (name : String) :
    (dynamicProcedure? name).map (·.1) =
      if Text.lower name = "sp_executesql" then some .spExecuteSql
      else if Text.lower name = "sp_execute" ∨ Text.lower name = "sp_prepexec" then some .spExecute
      else none := by
  unfold dynamicProcedure?
  split <;> simp_all

theorem ExecStmt.risk?_kind (exec : ExecStmt) : exec.risk?.map (·.1) = (Construct.call exec).kind? := by
  unfold ExecStmt.risk? Construct.kind?
  cases target : exec.target with
  | text sql server => by_cases empty : server = "" <;> simp [target, empty]
  | localVar name => simp [target]
  | procedure name =>
    have kind := dynamicProcedure?_kind name.name
    cases found : dynamicProcedure? name.name
    all_goals
      rw [found] at kind
      simp only [target, found]
      grind

theorem Construct.kind?_ne_insertExec (c : Construct) : c.kind? ≠ some .insertExec := by
  unfold Construct.kind?
  grind

/-- What is reported of a node is what the construct that it is calls for. -/
theorem Node.report_eq (node : Node) (found : FindingKind × RiskLevel → Finding)
    (placed : ∀ pair, (found pair).report = (pair.1, node.span.start.line, node.span.start.column)) :
    ((node.risk?.map found).filter (·.kind != .insertExec)).map Finding.report =
      node.construct?.bind Construct.report? := by
  have kind (pair : FindingKind × RiskLevel) : (found pair).kind = pair.1 := congrArg Prod.fst (placed pair)
  have reported (pair : FindingKind × RiskLevel) (shown : pair.1 ≠ .insertExec) :
      (((some pair).map found).filter (·.kind != .insertExec)).map Finding.report =
        some (pair.1, node.span.start.line, node.span.start.column) := by
    rw [Option.map_some, Option.filter_some, if_pos (by simpa [kind] using shown), Option.map_some, placed]
  cases node with
  | stmt stmt =>
    cases stmt with
    | insert s =>
      simp only [Node.risk?, Node.construct?]
      split
      · split <;> simp [kind]
      · rfl
    | exec exec =>
      have agrees := exec.risk?_kind
      have other := (Construct.call exec).kind?_ne_insertExec
      simp only [Node.risk?, Node.construct?, Option.bind_some, Construct.report?, ← agrees] at other ⊢
      cases risk : exec.risk? with
      | none => rfl
      | some pair => exact reported pair (by simpa [risk] using other)
    | _ => rfl
  | table table =>
    cases table with
    | remote => exact reported (.openQuery, .critical) (by decide)
    | _ => rfl
  | _ => rfl

theorem Stmt.findings_reports (stmt : Stmt) (source : String) (number : Nat) :
    dynamicReports (stmt.findings source number) =
      (Outline.constructs stmt.ownOutline).filterMap Construct.report? := by
  simp only [dynamicReports, Stmt.findings, Outline.constructs, Outline.nodes, List.filter_filterMap,
    List.map_filterMap, List.filterMap_filterMap]
  exact List.filterMap_congr fun node _ => node.report_eq _ fun _ => rfl

theorem Script.findings_reports (script : Script) :
    (dynamicReports script.findings).Perm
      (script.sites.flatMap fun site => (Outline.constructs site.stmt.ownOutline).filterMap Construct.report?) := by
  have sorted := List.mergeSort_perm
    (script.sites.zipIdx.flatMap fun pair => pair.1.stmt.findings script.source pair.2) Finding.isBefore
  have reports := (sorted.filter (·.kind != .insertExec)).map Finding.report
  refine reports.trans (List.Perm.of_eq ?_)
  rw [List.filter_flatMap, List.map_flatMap]
  -- The number of a statement only goes into a field that no report shows.
  calc _ = script.sites.zipIdx.flatMap fun pair =>
            (Outline.constructs pair.1.stmt.ownOutline).filterMap Construct.report? :=
        List.flatMap_congr fun pair _ => pair.1.stmt.findings_reports script.source pair.2
    _ = (script.sites.zipIdx.map Prod.fst).flatMap fun site =>
            (Outline.constructs site.stmt.ownOutline).filterMap Construct.report? := by
        rw [List.flatMap_map]
    _ = _ := by rw [List.zipIdx_map_fst]

/-- The finding that a remote source calls for. -/
def remoteReport (span : Span) : FindingKind × Nat × Nat := (.openQuery, span.start.line, span.start.column)

/-- Every construct is accounted for: it has its finding, or it is a remote source that the walk does not see. -/
theorem Script.findings_account (script : Script) :
    (dynamicReports script.findings ++ script.unseen.map remoteReport).Perm
      (script.constructs.filterMap Construct.report?) := by
  have own (stmt : Stmt) : stmt.ownConstructs.filterMap Construct.report? =
      (Outline.constructs stmt.ownOutline).filterMap Construct.report? ++ stmt.unseen.map remoteReport := by
    rw [Stmt.ownConstructs, List.filterMap_append, Construct.remotes, List.filterMap_map,
      ← List.filterMap_eq_map]
    rfl
  rw [script.constructs_eq_sites, List.filterMap_flatMap, Script.unseen, List.map_flatMap]
  simp only [own]
  exact (script.findings_reports.append_right _).trans (List.flatMap_append_perm _ _ _)

/-- Every construct of a text has exactly one finding, of its kind and at its place, if and only if no remote
source stands in the count of a `TOP` of a statement that writes, in the default of a parameter or in a
computed column. In any case those are the only ones without one. -/
theorem extractText_findings_cover_iff (source : String) (options : ExtractOptions) (script : Script)
    (parsed : (parse source).1 = some script) :
    (dynamicReports (extractText source options).findings ++ script.unseen.map remoteReport).Perm
        (script.constructs.filterMap Construct.report?) ∧
      ((dynamicReports (extractText source options).findings).Perm
        (script.constructs.filterMap Construct.report?) ↔ script.unseen = []) := by
  have found : (extractText source options).findings = script.findings := by
    simp [extractText, extract, parsed]
  rw [found]
  have account := script.findings_account
  refine ⟨account, fun covered => ?_, fun none => ?_⟩
  · have length := (account.trans covered.symm).length_eq
    rw [List.length_append, List.length_map] at length
    exact List.eq_nil_of_length_eq_zero (by omega)
  · simpa [none] using account

/-- The count of the `TOP` of a `DELETE` may read a remote source, which is not reported. -/
theorem extractText_findings_cover_top :
    let source := "DELETE TOP ((SELECT a FROM OPENQUERY(s, 'x') q)) FROM t"
    ∃ script, (parse source).1 = some script ∧ script.unseen ≠ [] ∧
      ¬(dynamicReports (extractText source {}).findings).Perm
        (script.constructs.filterMap Construct.report?) := by
  intro source
  have hidden : (parse source).1.map (·.unseen.isEmpty) = some false := by decide +kernel
  obtain ⟨script, parsed, left⟩ := Option.map_eq_some_iff.1 hidden
  have unseen : script.unseen ≠ [] := List.isEmpty_eq_false_iff.1 left
  exact ⟨script, parsed, unseen, fun covered =>
    unseen ((extractText_findings_cover_iff source {} script parsed).2.1 covered)⟩

end ColumnFlow
