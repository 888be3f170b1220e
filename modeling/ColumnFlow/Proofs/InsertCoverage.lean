import ColumnFlow.Proofs.InsertPairing
import ColumnFlow.Proofs.WriteSources

/-!
# Insertions in the result

An insertion shows in the result by an edge into its target, or by a gap where the columns of the target are neither
listed nor known. Each kind of source has its own branch for that case, and one of them, the insertion of default
values, has nothing to pair the columns with and records nothing. Main statement: it is the only one, in `INSERT` and
in the clauses of `MERGE`.
-/

namespace ColumnFlow

/-- The listed columns, else the known columns of the target. -/
def targetColumns (env : Env) (target : Target) (columns : List ColumnRef) : List String :=
  if columns.isEmpty then (env.columns target).getD [] else columns.map (·.column)

/-- An `INSERT` of default values into a table whose columns are neither listed nor known. -/
def InsertStmt.Silent (env : Env) (stmt : InsertStmt) : Prop :=
  stmt.source = .defaults ∧ targetColumns env (env.target stmt.target) stmt.columns = []

namespace MergeWhen

/-- The columns that an inserting clause lists. -/
def listed? (w : MergeWhen) : Option (List ColumnRef) :=
  match w.action with
  | .insert columns _ | .insertDefaults columns => some columns
  | .update _ | .delete => none

/-- A clause that inserts default values into a table whose columns are neither listed nor known. -/
def Silent (env : Env) (target : Target) (w : MergeWhen) : Prop :=
  ∃ columns, w.action = .insertDefaults columns ∧ targetColumns env target columns = []

/-- The edge is one of an inserting clause. -/
def Inserts (target : Target) (w : MergeWhen) (e : Edge) : Prop :=
  e.kind = .merge ∧ e.target = target ∧ e.merge = some (.insert, w.appliesWhen)

end MergeWhen

/-- An edge with the property is recorded, or a gap. -/
def Traced.Accounts {α : Type} (x : Traced α) (P : Edge → Prop) : Prop := (∃ e ∈ x.edges, P e) ∨ x.gaps ≠ []

namespace Traced.Accounts

variable {α β : Type} {x : Traced α} {P : Edge → Prop}

theorem bind_left (accounts : x.Accounts P) (f : α → Traced β) : (x >>= f).Accounts P := by
  rw [Accounts, edges_bind, gaps_bind]
  obtain ⟨e, member, holds⟩ | recorded := accounts
  · exact .inl ⟨e, List.mem_append_left _ member, holds⟩
  · exact .inr (List.append_ne_nil_of_left_ne_nil recorded _)

theorem bind_right {f : α → Traced β} (accounts : (f x.value).Accounts P) : (x >>= f).Accounts P := by
  rw [Accounts, edges_bind, gaps_bind]
  obtain ⟨e, member, holds⟩ | recorded := accounts
  · exact .inl ⟨e, List.mem_append_right _ member, holds⟩
  · exact .inr (List.append_ne_nil_of_right_ne_nil _ recorded)

end Traced.Accounts

section

variable (env : Env) {P : Edge → Prop}

theorem Env.gap_accounts (line : Nat) (cause : GapCause) : (env.gap line cause).Accounts P := .inr nofun

theorem Env.emitAll_accounts {edges : List Edge} (any : edges ≠ [])
    (each : ∀ e ∈ edges, P { e with statement := env.statement }) : (env.emitAll edges).Accounts P := by
  obtain ⟨e, member⟩ := List.exists_mem_of_ne_nil edges any
  exact .inl ⟨_, Traced.mem_edges.2 (env.mem_emitAll member), each e member⟩

/-- The first column is written, or there is no value for it, which leaves a gap. -/
theorem pairColumns_accounts {targets : List String} (named : targets ≠ []) (columns : List Column) (line : Nat)
    {edge : String → Column → Edge} (each : ∀ name c, P { edge name c with statement := env.statement }) :
    (pairColumns env targets columns line edge).Accounts P := by
  rw [Traced.Accounts, pairColumns_edges, pairColumns_gaps]
  cases targets with
  | nil => exact absurd rfl named
  | cons name names =>
    cases columns with
    | nil => exact .inr nofun
    | cons c rest => exact .inl ⟨_, List.mem_cons_self, each name c⟩

/-- Every way through leaves an edge or a gap. -/
theorem insertQuery_accounts (target : Target) (targets : List String) (columns : List Column) (line : Nat) :
    (insertQuery env target targets columns line).Accounts fun e => e.kind = .insert ∧ e.target = target := by
  unfold insertQuery
  split
  · exact .bind_right (env.gap_accounts line _)
  · dsimp only
    generalize (if targets.isEmpty then columns.map (·.name) else targets) = paired
    split
    · exact env.gap_accounts line _
    · rename_i named
      refine pairColumns_accounts env (by simpa using named) columns line fun name c => ?_
      exact ⟨c.edge_kind .insert target name, c.edge_target .insert target name⟩

/-- Columns that are written one by one with the same kind of value. -/
theorem emitColumns_accounts {columns : List String} (named : columns ≠ []) {edge : String → Edge}
    (each : ∀ name, P { edge name with statement := env.statement }) : (env.emitAll (columns.map edge)).Accounts P := by
  refine env.emitAll_accounts (by simpa using named) fun e member => ?_
  obtain ⟨name, -, rfl⟩ := List.mem_map.1 member
  exact each name

/-- Every `INSERT` that has a source and is not silent. -/
theorem insertStmt_accounts {stmt : InsertStmt} (written : stmt.source ≠ .missing) (loud : ¬stmt.Silent env) :
    (insertStmt env stmt).Accounts fun e => e.kind = .insert ∧ e.target = env.target stmt.target := by
  unfold insertStmt
  refine .bind_right ?_
  cases source : stmt.source with
  | missing => exact absurd source written
  | query query => exact .bind_right (.bind_left (insertQuery_accounts env _ _ _ _) _)
  | values rows =>
    dsimp only
    split
    · exact .bind_left (env.gap_accounts _ _) _
    · rename_i named
      exact .bind_right (.bind_left (emitColumns_accounts env (by simpa using named) fun _ => ⟨rfl, rfl⟩) _)
  | exec exec =>
    dsimp only
    split
    · exact .bind_left (env.gap_accounts _ _) _
    · rename_i named
      exact .bind_left (emitColumns_accounts env (by simpa using named) fun _ => ⟨rfl, rfl⟩) _
  | defaults =>
    have named : insertTargets env stmt.target stmt.columns ≠ [] := fun unknown => loud ⟨source, unknown⟩
    exact .bind_left (emitColumns_accounts env named fun _ => ⟨rfl, rfl⟩) _

/-- A silent `INSERT` is no more than its common tables and its `OUTPUT` clause. -/
theorem insertStmt_silent {stmt : InsertStmt} (silent : stmt.Silent env) :
    insertStmt env stmt = (do
      let s ← defineCommon? env stmt.ctes env.commons
      outputColumns? env stmt.output (env.plainBinding stmt.target "") s) := by
  obtain ⟨source, unknown⟩ := silent
  have targets : insertTargets env stmt.target stmt.columns = [] := unknown
  unfold insertStmt
  rw [source, targets]
  rfl

/-! ### Clauses of MERGE -/

/-- Every way through leaves an edge or a gap. -/
theorem mergeInsert_accounts (target : Target) (columns : List ColumnRef) (values : List Expr) (line : Nat) (s : Scope)
    {finish : Edge → Edge}
    (each : ∀ name (c : Column), P { finish (c.edge .merge target name).asLiteral with statement := env.statement }) :
    (mergeInsert env target columns values line s finish).Accounts P := by
  unfold mergeInsert
  dsimp only
  generalize (if columns.isEmpty then (env.columns target).getD [] else columns.map (·.column)) = targets
  split
  · exact env.gap_accounts _ _
  · rename_i named
    refine .bind_right ?_
    split
    · exact env.gap_accounts _ _
    · exact pairColumns_accounts env (by simpa using named) _ _ each

/-- An inserting clause is accounted for unless it is silent. -/
theorem mergeClause_accounts_iff (target : Binding) (s outer : Scope) {w : MergeWhen} (inserts : w.listed?.isSome) :
    (mergeClause env target s outer w).Accounts (w.Inserts target.target) ↔ ¬w.Silent env target.target := by
  unfold mergeClause
  cases action : w.action with
  | update sets | delete => simp [MergeWhen.listed?, action] at inserts
  | insert columns values =>
    have loud : ¬w.Silent env target.target := by
      rintro ⟨_, defaults, -⟩
      cases action.symm.trans defaults
    refine iff_of_true (mergeInsert_accounts env _ _ _ _ _ fun name c => ?_) loud
    have edge := And.intro (c.edge_kind .merge target.target name) (c.edge_target .merge target.target name)
    obtain same | ⟨transform, literal⟩ := (c.edge .merge target.target name).asLiteral_eq
    · rw [same]
      exact ⟨edge.1, edge.2, rfl⟩
    · rw [literal]
      exact ⟨edge.1, edge.2, rfl⟩
  | insertDefaults columns =>
    dsimp only [literalEdges]
    rw [List.map_map]
    change (env.emitAll ((targetColumns env target.target columns).map _)).Accounts _ ↔ _
    by_cases unknown : targetColumns env target.target columns = []
    · rw [unknown]
      refine iff_of_false ?_ (not_not_intro ⟨columns, action, unknown⟩)
      rintro (⟨e, member, -⟩ | recorded)
      · cases member
      · exact recorded rfl
    · refine iff_of_true (emitColumns_accounts env unknown fun _ => ⟨rfl, rfl, rfl⟩) ?_
      rintro ⟨_, defaults, none⟩
      cases action.symm.trans defaults
      exact unknown none

theorem mergeClauses_edges (target : Binding) (s outer : Scope) (whens : List MergeWhen) :
    (mergeClauses env target s outer whens).edges = whens.flatMap fun w => (mergeClause env target s outer w).edges := by
  induction whens with
  | nil => rfl
  | cons w rest ih => rw [mergeClauses, Traced.edges_bind, ih, List.flatMap_cons]

theorem mergeClauses_gaps (target : Binding) (s outer : Scope) (whens : List MergeWhen) :
    (mergeClauses env target s outer whens).gaps = whens.flatMap fun w => (mergeClause env target s outer w).gaps := by
  induction whens with
  | nil => rfl
  | cons w rest ih => rw [mergeClauses, Traced.gaps_bind, ih, List.flatMap_cons]

/-- What a `MERGE` records is what its clauses and its `OUTPUT` clause record. -/
theorem mergeStmt_results (stmt : MergeStmt) :
    let outer := (defineCommon? env stmt.ctes env.commons).value
    let target := env.tableBinding stmt.target stmt.targetAlias outer
    let s := (bindTable env stmt.source (outer.child.bind target)).value
    let output := outputColumns? env stmt.output target s
    (mergeStmt env stmt).edges.filter (·.kind == .merge) =
        (stmt.whens.flatMap fun w => (mergeClause env target s outer w).edges).filter (·.kind == .merge) ++
          output.edges.filter (·.kind == .merge) ∧
      (mergeStmt env stmt).gaps = (stmt.whens.flatMap fun w => (mergeClause env target s outer w).gaps) ++ output.gaps := by
  intro outer target s output
  have common := defineCommon?_emits env.admits_ofQuery stmt.ctes env.commons
  have bound := bindTable_emits env.admits_ofQuery stmt.source (outer.child.bind target)
  have writes : StatementKind.merge ≠ .select := nofun
  unfold mergeStmt
  simp only [Traced.edges_bind, Traced.gaps_bind, List.filter_append, mergeClauses_edges, mergeClauses_gaps]
  rw [common.filter_edges writes, common.gaps_nil]
  exact ⟨congrArg (· ++ _) (bound.filter_edges writes), congrArg (· ++ _) bound.gaps_nil⟩

end

/-- What insertions leave in the result of a script. Every statement has its place and number. An `INSERT` with a source
has left an edge into its target or a gap there, unless it is silent: then nothing is there but what its `OUTPUT` clause
has left. The edges and gaps of a `MERGE` are those of its clauses in order and of its `OUTPUT` clause, and those of
each inserting clause hold an edge into the target or a gap exactly if the clause is not silent. -/
theorem insertion_recorded_iff (script : Script) (options : ExtractOptions) (errors : List ParseError) :
    let l := extract (some script) errors options
    let edges (env : Env) (kind : StatementKind) :=
      (l.edges.filter (·.statement == env.statement)).filter (·.kind == kind)
    let gaps (env : Env) := l.gaps.filter (·.statement == env.statement)
    (∀ k site, script.sites[k]? = some site → ∃ env, script.Runs options site.stmt env ∧ env.statement = k) ∧
      (∀ stmt env, script.Runs options (.insert stmt) env → stmt.source ≠ .missing →
        let s := (defineCommon? env stmt.ctes env.commons).value
        let output := outputColumns? env stmt.output (env.plainBinding stmt.target "") s
        (¬stmt.Silent env → (∃ e ∈ edges env .insert, e.target = env.target stmt.target) ∨ gaps env ≠ []) ∧
          (stmt.Silent env → edges env .insert = output.edges.filter (·.kind == .insert) ∧ gaps env = output.gaps)) ∧
      ∀ stmt env, script.Runs options (.merge stmt) env →
        let outer := (defineCommon? env stmt.ctes env.commons).value
        let target := env.tableBinding stmt.target stmt.targetAlias outer
        let s := (bindTable env stmt.source (outer.child.bind target)).value
        let clause (w : MergeWhen) := mergeClause env target s outer w
        let output := outputColumns? env stmt.output target s
        edges env .merge = (stmt.whens.flatMap fun w => (clause w).edges).filter (·.kind == .merge) ++
            output.edges.filter (·.kind == .merge) ∧
          gaps env = (stmt.whens.flatMap fun w => (clause w).gaps) ++ output.gaps ∧
          ∀ w ∈ stmt.whens, w.listed?.isSome →
            ((clause w).Accounts (w.Inserts target.target) ↔ ¬w.Silent env target.target) := by
  intro l edges gaps
  refine ⟨fun k site found => Script.exists_runs options found, ?_, ?_⟩
  · intro stmt env runs written s output
    have ownEdges : edges env .insert = (insertStmt env stmt).edges.filter (·.kind == .insert) :=
      congrArg (List.filter (·.kind == .insert)) (runs.edges_eq errors)
    have ownGaps : gaps env = (insertStmt env stmt).gaps := runs.gaps_eq errors
    rw [ownEdges, ownGaps]
    refine ⟨fun loud => ?_, fun silent => ?_⟩
    · refine (insertStmt_accounts env written loud).imp_left ?_
      rintro ⟨e, member, kind, target⟩
      exact ⟨e, List.mem_filter.2 ⟨member, by simp [kind]⟩, target⟩
    · have common := defineCommon?_emits env.admits_ofQuery stmt.ctes env.commons
      rw [insertStmt_silent env silent, Traced.edges_bind, Traced.gaps_bind, List.filter_append, common.gaps_nil,
        common.filter_edges (by decide)]
      exact ⟨rfl, rfl⟩
  · intro stmt env runs outer target s clause output
    obtain ⟨fromEdges, fromGaps⟩ := mergeStmt_results env stmt
    have ownEdges : edges env .merge = (mergeStmt env stmt).edges.filter (·.kind == .merge) :=
      congrArg (List.filter (·.kind == .merge)) (runs.edges_eq errors)
    exact ⟨ownEdges.trans fromEdges, (runs.gaps_eq errors).trans fromGaps,
      fun w _ inserts => mergeClause_accounts_iff env target s outer inserts⟩

/-- Into a table whose columns are not known a row of values leaves a gap. Default values leave nothing, nor does a
`MERGE` that inserts them. -/
theorem insertion_recorded_iff_defaults :
    let insert (source : InsertSource) : InsertStmt := ⟨.unset, none, none, { name := "t" }, [], none, source⟩
    let values := insert (.values [[.literal .unset .number "1"]])
    let defaults := insert .defaults
    let merge : MergeStmt :=
      ⟨.unset, none, { name := "t" }, "", .named .unset { name := "u" } "" [], .missing,
        [⟨.unset, .notMatchedByTarget, none, .insertDefaults []⟩], none⟩
    let script : Script := ⟨.unset, "", [⟨.unset, [.insert values, .insert defaults, .merge merge]⟩]⟩
    let l := extract (some script) [] {}
    ((∃ e ∈ l.edges.filter (·.statement == 0), e.target = ⟨"dbo", "t"⟩) ∨ l.gaps.filter (·.statement == 0) ≠ []) ∧
      (l.edges.filter (·.statement == 1)).filter (·.kind == .insert) = [] ∧ l.gaps.filter (·.statement == 1) = [] ∧
      l.gaps.filter (·.statement == 2) = [] := by
  intro insert values defaults merge script l
  have runs (first rest : List Site) (stmt : Stmt) (split : script.sites = first ++ ⟨stmt, none⟩ :: rest) :
      script.Runs {} stmt { ({} : ExtractOptions).env.reached [] first with owner := none } :=
    ⟨[], _, [], first, rest, none, rfl, (List.append_nil _).symm.trans split, rfl⟩
  obtain ⟨-, inserts, merges⟩ := insertion_recorded_iff script {} []
  have loud := (inserts values _ (runs [] _ _ rfl) nofun).1 fun silent => nomatch silent.1
  obtain ⟨noEdge, noGap⟩ := (inserts defaults _ (runs [⟨.insert values, none⟩] _ _ rfl) nofun).2 ⟨rfl, by decide +kernel⟩
  obtain ⟨-, gaps, each⟩ := merges merge _ (runs [⟨.insert values, none⟩, ⟨.insert defaults, none⟩] _ _ rfl)
  have quiet := (not_congr (each _ List.mem_cons_self rfl)).2 (not_not_intro ⟨[], rfl, by decide +kernel⟩)
  refine ⟨loud.imp_left ?_, noEdge, noGap, ?_⟩
  · rintro ⟨e, member, target⟩
    exact ⟨e, (List.mem_filter.1 member).1, target.trans (by decide +kernel)⟩
  · refine gaps.trans ?_
    rw [List.flatMap_singleton, Decidable.not_not.1 fun some => quiet (.inr some)]
    rfl

end ColumnFlow
