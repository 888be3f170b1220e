import ColumnFlow.Proofs.ListProgress
import ColumnFlow.Proofs.StatementResults

/-!
# Scripts without holes

Holes are left where a fault was reported, and a statement with a fault is dropped by its list, so that none is left in
a script that was read. Extraction then meets none either, in whatever statement.
-/

namespace ColumnFlow

theorem parseAll_complete (source : String) : (parseAll source).1.Complete := by
  have run := Parse.batches_run (.ofDepth _) (ParseState.ended_ofText source) (Nat.lt_succ_self _)
  have found : (Parse.script .full source (.ofText source)).1.Complete := run.complete
  rwa [← Parse.script_ofDepth (Nat.le_add_right _ 2)] at found

theorem parse_eq_some {source : String} {script : Script} (parsed : (parse source).1 = some script) :
    (parseAll source).1 = script := by
  by_cases empty : (!(parseAll source).2.isEmpty && (parseAll source).1.stmtCount == 0) = true
  · simp [parse, empty] at parsed
  · simpa [parse, empty] using parsed

/-! ### What extraction sees -/

namespace Site

variable {site : Site} {owner : Option Owner}

theorem mem_ofStmts {stmts : List Stmt} : site ∈ ofStmts owner stmts ↔ ∃ stmt ∈ stmts, site ∈ ofStmt owner stmt := by
  induction stmts with
  | nil => simp [ofStmts]
  | cons stmt rest ih => simp [ofStmts, ih]

theorem mem_ofStmt? {stmt : Option Stmt} : site ∈ ofStmt? owner stmt ↔ ∃ s ∈ stmt, site ∈ ofStmt owner s := by
  cases stmt with
  | none | some stmt => simp [ofStmt?]

end Site

/-- The statements inside a complete one are complete. -/
theorem Stmt.Complete.sites {stmt : Stmt} (h : stmt.Complete) :
    ∀ owner, ∀ site ∈ Site.ofStmt owner stmt, site.stmt.Complete := by
  have inside : ∀ {owner stmts}, (∀ s ∈ stmts, ∀ owner, ∀ site ∈ Site.ofStmt owner s, site.stmt.Complete) →
      ∀ site ∈ Site.ofStmts owner stmts, site.stmt.Complete := by
    intro owner stmts each site mem
    obtain ⟨s, found, mem⟩ := Site.mem_ofStmts.mp mem
    exact each s found owner site mem
  have alone : ∀ {owner stmt}, Stmt.Complete stmt → Site.ofStmt owner stmt = [⟨stmt, owner⟩] →
      ∀ site ∈ Site.ofStmt owner stmt, site.stmt.Complete := by
    intro owner stmt complete single
    rw [single]
    exact List.forall_mem_singleton.mpr complete
  induction h with
  | block body ih =>
    intro owner
    rw [Site.ofStmt]
    exact List.forall_mem_cons.mpr ⟨.block body, inside ih⟩
  | ifElse cond yes no ihYes ihNo =>
    intro owner
    rw [Site.ofStmt]
    refine List.forall_mem_cons.mpr ⟨.ifElse cond yes no, fun site mem => ?_⟩
    rcases List.mem_append.mp mem with mem | mem
    · exact ihYes owner site mem
    · obtain ⟨s, found, mem⟩ := Site.mem_ofStmt?.mp mem
      exact ihNo s found owner site mem
  | loop cond body ih =>
    intro owner
    rw [Site.ofStmt]
    exact List.forall_mem_cons.mpr ⟨.loop cond body, ih owner⟩
  | tryCatch attempt handler ihAttempt ihHandler =>
    intro owner
    rw [Site.ofStmt]
    refine List.forall_mem_cons.mpr ⟨.tryCatch attempt handler, List.forall_mem_append.mpr ?_⟩
    exact ⟨inside ihAttempt, inside ihHandler⟩
  | createProc params body ih =>
    intro owner
    rw [Site.ofStmt]
    exact List.forall_mem_cons.mpr ⟨.createProc params body, inside ih⟩
  | createFunction header body ih =>
    intro owner
    rw [Site.ofStmt]
    exact List.forall_mem_cons.mpr ⟨.createFunction header body, inside ih⟩
  | createTrigger body ih =>
    intro owner
    rw [Site.ofStmt]
    exact List.forall_mem_cons.mpr ⟨.createTrigger body, inside ih⟩
  -- No other statement holds statements.
  | _ => exact fun owner => alone (by constructor <;> assumption) (by simp [Site.ofStmt])

theorem Script.Complete.sites {script : Script} (h : script.Complete) : ∀ site ∈ script.sites, site.stmt.Complete := by
  intro site mem
  obtain ⟨batch, inScript, mem⟩ := List.mem_flatMap.mp mem
  obtain ⟨stmt, inBatch, mem⟩ := Site.mem_ofStmts.mp mem
  exact (h batch inScript stmt inBatch).sites none site mem

/-! ### What extraction records -/

theorem GapCause.reason_eq_internal_error {cause : GapCause} : cause.reason = "internal_error" ↔ cause = .missingValue := by
  cases cause <;> simp [reason]

/-- The event is no gap that a hole has left. -/
def Event.Sound : Event → Prop
  | .gap g => g.cause ≠ .missingValue
  | _ => True

theorem Env.admits_sound (env : Env) :
    env.AdmitsStatements env.statement (fun _ => True) fun event _ => event.Sound where
  edge _ _ _ := trivial
  common _ := trivial
  gap _ _ other := other
  table _ _ := trivial
  object _ := trivial

theorem Stmt.Complete.gaps_sound {stmt : Stmt} (complete : stmt.Complete) (env : Env) :
    ∀ gap ∈ (stmtEvents env stmt).gaps, gap.cause ≠ .missingValue := by
  intro gap member
  obtain ⟨event, recorded, made⟩ := List.mem_filterMap.mp member
  have run := (env.supplies_all _).stmtEvents env.admits_sound env.commons.proper_all stmt (List.Subset.refl _)
    (absurd complete)
  have sound := run.ensures.events event recorded
  cases event <;> cases made
  exact sound

-- A hole among the values of a `MERGE` does leave one.
example : (mergeInsert ({} : ExtractOptions).env { table := "t" } [{ column := "a" }] [.missing] 1 {} id).gaps =
    [{ statement := 0, line := 1, cause := .missingValue }] := rfl

/-- Every gap of a script is recorded by one of its statements. -/
theorem Script.exists_site_of_gap {script : Script} {errors : List ParseError} {options : ExtractOptions} {gap : Gap}
    (member : gap ∈ (extract (some script) errors options).gaps) :
    ∃ site ∈ script.sites, ∃ env, gap ∈ (stmtEvents env site.stmt).gaps := by
  obtain ⟨event, recorded, made⟩ := List.mem_filterMap.mp member
  have number : event.number? = some gap.statement := by
    cases event <;> cases made
    rfl
  obtain ⟨tables, commons, final⟩ := options.env.foldl_pass_final script.batches
  obtain ⟨-, below⟩ := (options.env.extractBatches_within script.batches).2 event recorded _ number
  rw [final, show options.env.statement = 0 from rfl, Nat.zero_add] at below
  have found := List.getElem?_eq_getElem below
  obtain ⟨env, runs, same⟩ := Script.exists_runs options found
  refine ⟨_, List.getElem_mem below, env, ?_⟩
  rw [← runs.gaps_eq errors]
  exact List.mem_filter.mpr ⟨member, by simp [same]⟩

/-- In a script that was read nothing is missing, in no statement at any depth; nothing that extraction looks at has
a hole, and no gap is due to one. -/
theorem parse_complete {source : String} {script : Script} (parsed : (parse source).1 = some script) :
    script.Complete ∧ (∀ site ∈ script.sites, site.stmt.Complete) ∧
      ∀ options : ExtractOptions, ∀ gap ∈ (extractText source options).gaps, gap.cause.reason ≠ "internal_error" := by
  obtain rfl : (parseAll source).1 = script := parse_eq_some parsed
  have complete := parseAll_complete source
  refine ⟨complete, complete.sites, fun options gap member => ?_⟩
  simp only [extractText, parsed] at member
  obtain ⟨site, found, env, recorded⟩ := Script.exists_site_of_gap member
  exact mt GapCause.reason_eq_internal_error.mp ((complete.sites site found).gaps_sound env gap recorded)

/-- The statement with a fault inside the block is dropped, the others are complete. -/
theorem parse_complete_block :
    let source := "IF a = 1 BEGIN SELECT CASE END; INSERT t VALUES (1) END ELSE SELECT CASE WHEN 1 = 1 THEN b END FROM t"
    (parse source).2.length = 1 ∧ ∃ script, (parse source).1 = some script ∧ script.sites.length = 4 ∧
      script.Complete ∧ (∀ site ∈ script.sites, site.stmt.Complete) ∧
      ∀ options : ExtractOptions, ∀ gap ∈ (extractText source options).gaps, gap.cause.reason ≠ "internal_error" := by
  intro source
  have sites : (parse source).1.map (·.sites.length) = some 4 := by decide +kernel
  obtain ⟨script, parsed, four⟩ := Option.map_eq_some_iff.mp sites
  exact ⟨by decide +kernel, script, parsed, four, parse_complete parsed⟩

end ColumnFlow
