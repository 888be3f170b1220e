import ColumnFlow.Lineage.Statement
import ColumnFlow.Proofs.Complete
import ColumnFlow.Proofs.QuerySources

/-!
# Where the columns of a statement come from

What `QuerySources` shows of queries holds of every statement: its edges are well formed, carry its number and
read only columns of tables that the statement names, of the table of the enclosing trigger, or of tables that
are not plain ones. The statements that write add three kinds of edges of their own: assignments, removals and
constants, and they leave gaps (`Env.AdmitsWrites`), one of which only a hole in the statement leaves
(`Env.AdmitsHoles`). Other statements make objects and tables known (`Env.AdmitsStatements`).
-/

namespace ColumnFlow

open Outline

variable {env : Env} {n : Nat} {names : List ObjectName} {C : SourceColumn → Prop} {R : Event → Event → Prop}

/-- What statements that write record under two numbers is related. -/
structure Env.AdmitsWrites (env : Env) (n : Nat) (C : SourceColumn → Prop) (R : Event → Event → Prop) : Prop where
  edge : ∀ e : Edge, e.WellFormed → (∀ c ∈ e.sources, C c) →
    R (.edge { e with statement := env.statement }) (.edge { e with statement := n })
  common : ∀ table, R (.common table) (.common table)
  gap : ∀ line cause, cause ≠ .missingValue →
    R (.gap { statement := env.statement, line, cause }) (.gap { statement := n, line, cause })

/-- What a missing value leaves under two numbers is related. -/
def Env.AdmitsHoles (env : Env) (n : Nat) (R : Event → Event → Prop) : Prop :=
  ∀ line, R (.gap { statement := env.statement, line, cause := .missingValue })
    (.gap { statement := n, line, cause := .missingValue })

/-- What statements record under two numbers is related. -/
structure Env.AdmitsStatements (env : Env) (n : Nat) (C : SourceColumn → Prop) (R : Event → Event → Prop) : Prop
    extends env.AdmitsWrites n C R where
  table : ∀ key columns, R (.table key columns) (.table key columns)
  object : ∀ name, R (.object name) (.object name)

namespace Env.AdmitsWrites

variable (admits : env.AdmitsWrites n C R)

include admits

theorem queries : env.Admits n C R := ⟨fun e _ => admits.edge e, admits.common⟩

theorem emitAll {edges : List Edge} (proper : ∀ e ∈ edges, e.WellFormed ∧ ∀ c ∈ e.sources, C c) :
    env.Emits n R (·.emitAll edges) := .recordMap fun e member => admits.edge e (proper e member).1 (proper e member).2

theorem emit {e : Edge} (formed : e.WellFormed) (reads : ∀ c ∈ e.sources, C c) : env.Emits n R (·.emit e) :=
  .record (admits.edge e formed reads)

theorem recordGap (line : Nat) {cause : GapCause} (other : cause ≠ .missingValue) : env.Emits n R (·.gap line cause) :=
  .record (admits.gap line cause other)

end Env.AdmitsWrites

namespace Env.AdmitsStatements

variable (admits : env.AdmitsStatements n C R)

include admits

theorem remember (name : ObjectName) (columns : List String) : env.Emits n R (·.remember name columns) := by
  dsimp only [Env.Runs, Env.remember]
  split
  · exact .pure trivial
  · exact .record (admits.table _ _)

theorem declareTables (vars : List VarDecl) : env.Emits n R (declareTables · vars) := by
  induction vars with
  | nil => exact .pure trivial
  | cons decl rest ih => exact (admits.remember _ _).bind fun _ _ => ih

end Env.AdmitsStatements

/-! ### Edges of statements that write -/

/-- What holds of the edge of an assignment before it is marked with the clause it stands in. -/
structure Edge.Assigns (C : SourceColumn → Prop) (kind : StatementKind) (e : Edge) : Prop where
  value : e.value.Proper e.column
  kept : e.isRemoval = false
  kind : e.kind = kind
  merge : e.merge = none
  operator : e.operator.isSome = true
  compound : ∀ op, e.operator = some op → op.isCompoundAssign = true →
    ∃ first rest, e.sources = first :: rest ∧ first.column = e.column
  reads : ∀ c ∈ e.sources, C c

theorem Edge.Assigns.update_wellFormed {e : Edge} (assigns : e.Assigns C .update) : e.WellFormed := by
  refine Edge.wellFormed_of_proper assigns.value ?_ ?_ assigns.compound
  · simp [assigns.kind, assigns.kept]
  · simp [assigns.kind, assigns.operator]

/-- An assignment stays well formed when it is marked as that of a `MERGE`. -/
theorem Edge.Assigns.merge_wellFormed {e : Edge} (assigns : e.Assigns C .merge) (condition : MergeCondition) :
    { e with merge := some (.update, condition) }.WellFormed := by
  refine Edge.wellFormed_of_proper assigns.value ?_ ?_ assigns.compound
  · have kept := assigns.kept
    simp only [Edge.isRemoval] at kept ⊢
    simp [assigns.kind, kept]
  · simp [assigns.operator]

theorem removalEdge_wellFormed (target : Target) (line : Nat) : (removalEdge target line).WellFormed :=
  Edge.wellFormed_of_proper rfl ⟨fun _ => rfl, fun _ => rfl⟩ (by simp [removalEdge]) nofun

theorem Edge.asLiteral_eq (e : Edge) :
    e.asLiteral = e ∨ ∃ transform, e.asLiteral = { e with value := .literal transform } := by
  unfold Edge.asLiteral
  split
  · exact .inr ⟨_, rfl⟩
  · exact .inr ⟨_, rfl⟩
  · exact .inl rfl

theorem literalEdges_proper {kind : StatementKind} (writes : kind ≠ .delete ∧ kind ≠ .update)
    (target : Target) (columns : List String) (tag : String) (line : Nat) :
    ∀ e ∈ literalEdges kind target columns tag line, e.WellFormed ∧ ∀ c ∈ e.sources, C c := by
  intro e member
  obtain ⟨column, -, rfl⟩ := List.mem_map.1 member
  exact ⟨Edge.wellFormed_of_write trivial rfl writes nofun rfl, nofun⟩

/-- The edge of an inserting clause. -/
theorem Column.mergeEdge_proper {c : Column} (proper : c.Proper C) (target : Target) (name : String)
    (condition : MergeCondition) :
    let e : Edge := { (c.edge .merge target name).asLiteral with merge := some (.insert, condition) }
    e.WellFormed ∧ ∀ x ∈ e.sources, C x := by
  have kind : (c.edge .merge target name).kind ≠ .delete ∧ (c.edge .merge target name).kind ≠ .update := by
    rw [c.edge_kind .merge target name]
    decide
  have operator := c.edge_operator .merge target name
  rcases (c.edge .merge target name).asLiteral_eq with same | ⟨transform, constant⟩
  · rw [same]
    exact ⟨Edge.wellFormed_of_write (c.edge_value_proper proper .merge target name)
      (c.edge_isRemoval .merge target name) kind nofun operator, c.edge_sources proper .merge target name⟩
  · rw [constant]
    exact ⟨Edge.wellFormed_of_write trivial rfl kind nofun operator, nofun⟩

theorem pseudoTable_proper {b : Binding} (requalified : ∀ c : SourceColumn, C c → ∀ qualifier, C { c with qualifier })
    (proper : b.Proper C) (name : String) : (pseudoTable b name).Proper C :=
  fun column => requalified _ (proper column) name

/-- A clause sees nothing beyond the target and what the statement or its surroundings see. -/
theorem MergeWhen.scope_proper (w : MergeWhen) {s outer : Scope} {target : Binding} (hs : s.Proper C)
    (ho : outer.Proper C) (ofTarget : target.Proper C) : (w.scope s outer target).Proper C := by
  unfold MergeWhen.scope
  split
  · exact hs
  · exact ho.child.bind ofTarget
  · exact hs.bind fun column => ofTarget column

/-! ### Pairing -/

namespace Env.AdmitsWrites

variable (admits : env.AdmitsWrites n C R)

include admits

/-- Columns are paired with targets position by position, and a gap tells of those that are left over. -/
theorem pairColumns (targets : List String) {columns : List Column} (line : Nat) {edge : String → Column → Edge}
    (proper : ∀ name, ∀ c ∈ columns, (edge name c).WellFormed ∧ ∀ x ∈ (edge name c).sources, C x) :
    env.Emits n R (pairColumns · targets columns line edge) := by
  have paired : env.Emits n R (·.emitAll (List.zipWith edge targets columns)) := by
    refine admits.emitAll fun e member => ?_
    rw [← List.map_uncurry_zip_eq_zipWith] at member
    obtain ⟨⟨name, c⟩, found, rfl⟩ := List.mem_map.1 member
    exact proper name c (List.of_mem_zip found).2
  dsimp only [Env.Runs, ColumnFlow.pairColumns]
  split
  · exact (admits.recordGap line (by simp)).bind fun _ _ => paired
  · exact paired

theorem rowGaps (targets line : Nat) (rows : List (List Expr)) : env.Emits n R (rowGaps · targets line rows) := by
  refine ⟨List.rel_filterMap ?_ (List.forall₂_eq_eq_eq ▸ rfl), rfl, trivial⟩
  rintro ⟨row, i⟩ _ rfl
  dsimp only
  split
  · exact .none
  · exact .some (admits.gap _ _ nofun)

/-- The rows of a query are written as stars, with a gap, by the names of its columns, or to the targets that are
listed. -/
theorem insertQuery (target : Target) (targets : List String) {columns : List Column}
    (proper : ∀ c ∈ columns, c.Proper C) (line : Nat) : env.Emits n R (insertQuery · target targets columns line) := by
  have written (name : String) (c : Column) (member : c ∈ columns) :=
    @Column.edge_proper C c (proper c member) .insert (by decide) target name
  dsimp only [Env.Runs, ColumnFlow.insertQuery]
  split
  · refine (admits.emitAll fun e member => ?_).bind fun _ _ => admits.recordGap line nofun
    obtain ⟨c, found, rfl⟩ := List.mem_map.1 member
    exact written wildcardColumn c (List.mem_filter.1 found).1
  · generalize (if targets.isEmpty then columns.map (·.name) else targets) = paired
    split
    · exact admits.recordGap line nofun
    · exact admits.pairColumns paired line written

theorem truncateStmt (line : Nat) (table : ObjectName) : env.Emits n R (truncateStmt · line table) :=
  admits.emit (Edge.wellFormed_of_proper rfl ⟨fun _ => rfl, fun _ => rfl⟩ (by simp [removalEdge]) nofun) nofun

end Env.AdmitsWrites

namespace Env.Supplies

variable (supplies : env.Supplies names C) (admits : env.AdmitsWrites n C R)

include supplies admits

/-! ### Parts of statements -/

/-- An `OUTPUT` clause sees the rows as they were and as they are, both under the columns of the target. -/
theorem outputColumns? (clause : Option OutputClause)
    {target : Binding} (ofTarget : target.Proper C) {outer : Scope} (inScope : outer.Proper C)
    (known : Known names (ofOutput? clause)) : env.Emits n R (outputColumns? · clause target outer) := by
  cases clause with
  | none => exact .pure trivial
  | some clause =>
    have pseudo (name : String) := pseudoTable_proper supplies.requalified ofTarget name
    have inner := (inScope.child.bind (pseudo "inserted")).bind (pseudo "deleted")
    refine ((supplies.walk admits.queries).itemColumns clause.columns 1 ⟨rfl, inner⟩
      (fun _ _ => ⟨rfl, inner⟩) known.below.left).bind fun items proper => ?_
    have columns := Column.uniqueNames_proper proper
    dsimp only
    split
    · exact admits.queries.emitColumns columns _
    · exact admits.pairColumns _ _ fun name c member => Column.edge_proper (columns c member) (by decide) _ name

/-- The target of an `UPDATE` or `DELETE` is a table of its `FROM` clause or the table it names. -/
theorem bindTarget (name : ObjectName) (clause : Option FromClause) (outer : Scope)
    (outerProper : outer.Proper C) (named : name ∈ names) (known : Known names (ofSource? clause)) :
    env.Runs n R (fun r => r.1.Proper C ∧ r.2.Proper C) (bindTarget · name clause outer) := by
  refine ((supplies.walk admits.queries).bindSource? clause ⟨rfl, outerProper.child⟩ known).bind fun s hs => ?_
  have other : Binding.Proper C { env.tableBinding name "" s with hidden := clause.isSome } :=
    fun column => supplies.tableBinding named "" s column
  dsimp only
  split
  · rename_i b found
    split
    · exact .pure ⟨hs, hs.lookup found⟩
    · exact .pure ⟨hs.bind other, other⟩
  · exact .pure ⟨hs.bind other, other⟩

/-- The edge of an assignment; the sources of a compound one begin with the column that is assigned. -/
theorem assignEdge (kind : StatementKind) (target : Target) {b : Binding} (ofTarget : b.Proper C)
    (set : SetClause) {s : Scope} (hs : s.Proper C) (known : Known names (ofSet set)) :
    env.Runs n R (fun edge => ∀ e, edge = some e → e.Assigns C kind) (assignEdge · kind target b set s) := by
  unfold ColumnFlow.assignEdge
  split
  · exact .pure fun e made => nomatch made
  · rename_i ref _
    refine ((supplies.walk admits.queries).exprSources set.value ⟨rfl, hs⟩ known.below).bind fun read proper => ?_
    by_cases compound : set.op.isCompoundAssign = true
    · simp only [compound, if_true]
      refine .pure fun e made => ?_
      cases made
      obtain ⟨rest, front⟩ := SourceColumn.distinct_cons (b.read ref.column) read.columns
      have tagged : set.op.text ++ " " ++ read.transform.inner.text ≠ "" := by
        intro empty
        have := congrArg String.length empty
        simp at this
      refine ⟨⟨SourceColumn.distinct_keys_nodup _, fun empty => absurd empty tagged⟩, rfl, rfl, rfl, rfl,
        fun _ _ _ => ⟨_, rest, front, rfl⟩, fun c member => ?_⟩
      rcases List.mem_cons.1 (SourceColumn.mem_of_mem_distinct member) with rfl | found
      · exact ofTarget ref.column
      · exact proper.reads c found
    · simp only [compound, Bool.false_eq_true, if_false]
      refine .pure fun e made => ?_
      cases made
      refine ⟨⟨SourceColumn.distinct_keys_nodup _, fun empty => ?_⟩, rfl, rfl, rfl, rfl, ?_, fun c member => ?_⟩
      · obtain ⟨x, only⟩ := List.length_eq_one_iff.1 (proper.single (proper.tagged empty))
        rw [only, SourceColumn.distinct_singleton]
        rfl
      · rintro _ ⟨⟩ compoundEq
        cases compoundEq
      · exact proper.reads c (SourceColumn.mem_of_mem_distinct member)

/-- Each assignment records its edge once it has been finished, so what holds of one holds of all of them. -/
theorem assignAll (kind : StatementKind) (target : Target) {b : Binding} (ofTarget : b.Proper C)
    {s : Scope} (hs : s.Proper C) {finish : Edge → Edge}
    (finished : ∀ e, e.Assigns C kind → (finish e).WellFormed ∧ ∀ c ∈ (finish e).sources, C c)
    (sets : List SetClause) (known : Known names (sets.flatMap ofSet)) :
    env.Emits n R (assignAll · kind target b s finish sets) := by
  induction sets with
  | nil => exact .pure trivial
  | cons set rest ih =>
    refine (supplies.assignEdge admits kind target ofTarget set hs known.left).bind fun edge assigns =>
      (admits.emitAll fun e member => ?_).bind fun _ _ => ih known.right
    obtain ⟨plain, found, rfl⟩ := List.mem_map.1 member
    exact finished plain (assigns plain (Option.mem_toList.1 found))

/-- The columns of values are proper. There are none only if a value is missing. -/
theorem valueColumns {s : Scope} (hs : s.Proper C) (values : List Expr) (known : Known names (ofExprs values)) :
    env.Runs n R (fun r => (r = none → ∃ value ∈ values, value.isMissing = true) ∧ ∀ cs, r = some cs → ∀ c ∈ cs, c.Proper C)
      (valueColumns · s values) := by
  induction values with
  | nil =>
    refine .pure ⟨nofun, ?_⟩
    rintro _ ⟨⟩
    exact List.forall_mem_nil _
  | cons value rest ih =>
    refine ((supplies.walk admits.queries).exprSources value ⟨rfl, hs⟩ known.left).bind fun read proper => ?_
    split
    · rename_i missing
      exact .pure ⟨fun _ => ⟨value, List.mem_cons_self, missing⟩, nofun⟩
    · refine (ih known.right).bind fun later found => .pure ⟨fun none => ?_, fun cs made => ?_⟩
      · obtain ⟨hole, member, missing⟩ := found.1 (Option.map_eq_none_iff.1 none)
        exact ⟨hole, List.mem_cons_of_mem value member, missing⟩
      · obtain ⟨rest, some, rfl⟩ := Option.map_eq_some_iff.1 made
        refine List.forall_mem_cons.2 ⟨?_, found.2 rest some⟩
        rintro _ ⟨⟩
        exact proper

/-- The values of a `MERGE` clause are read one by one. Only a missing one leaves the gap that holes leave. -/
theorem mergeInsert (target : Target) (columns : List ColumnRef) (values : List Expr) (line : Nat)
    (condition : MergeCondition) {s : Scope} (hs : s.Proper C) (known : Known names (ofExprs values))
    (holes : (∃ value ∈ values, value.isMissing = true) → env.AdmitsHoles n R) : env.Emits n R
      (mergeInsert · target columns values line s fun e => { e with merge := some (.insert, condition) }) := by
  have same : (env.renumber n).columns target = env.columns target := rfl
  dsimp only [Env.Emits, Env.Runs, ColumnFlow.mergeInsert]
  rw [same]
  generalize (if columns.isEmpty then (env.columns target).getD [] else columns.map (·.column)) = targets
  split
  · exact admits.recordGap line nofun
  · refine (supplies.valueColumns admits hs values known).bind fun r found => ?_
    cases r with
    | none => exact .record (holes (found.1 rfl) line)
    | some cs =>
      exact admits.pairColumns targets line fun name c member => c.mergeEdge_proper (found.2 cs rfl c member) _ name _

/-- What a clause of a `MERGE` does depends on whether the row was found on the other side, and so does the scope it
sees. -/
theorem mergeClause {s outer : Scope} {target : Binding} (hs : s.Proper C) (ho : outer.Proper C)
    (ofTarget : target.Proper C) (w : MergeWhen) (known : Known names (ofMergeWhen w))
    (holes : ¬w.Complete → env.AdmitsHoles n R) : env.Emits n R (mergeClause · target s outer w) := by
  have action := known.below.right
  have inside := w.scope_proper hs ho ofTarget
  unfold ColumnFlow.mergeClause
  dsimp only
  split <;> rename_i isAction <;> rw [isAction] at action
  · exact supplies.assignAll admits .merge _ ofTarget inside
      (fun _ assigns => ⟨assigns.merge_wellFormed _, assigns.reads⟩) _ action
  · exact admits.emit (Edge.wellFormed_of_proper rfl ⟨fun _ => rfl, fun _ => rfl⟩ (by simp [removalEdge])
      (by simp [removalEdge])) (List.forall_mem_nil _)
  · refine supplies.mergeInsert admits _ _ _ _ _ inside action ?_
    rintro ⟨value, member, missing⟩
    refine holes ?_
    rintro ⟨-, complete⟩
    rw [isAction] at complete
    cases complete with
    | insert each => exact Bool.false_ne_true ((each value member).isMissing.symm.trans missing)
  · refine admits.emitAll fun e member => ?_
    obtain ⟨plain, found, rfl⟩ := List.mem_map.1 member
    obtain ⟨column, -, rfl⟩ := List.mem_map.1 found
    exact ⟨Edge.wellFormed_of_write trivial rfl (by simp) (by simp) rfl, List.forall_mem_nil _⟩

theorem mergeClauses {s outer : Scope} {target : Binding} (hs : s.Proper C) (ho : outer.Proper C)
    (ofTarget : target.Proper C) (whens : List MergeWhen) (known : Known names (whens.flatMap ofMergeWhen))
    (holes : ¬(∀ w ∈ whens, w.Complete) → env.AdmitsHoles n R) :
    env.Emits n R (mergeClauses · target s outer whens) := by
  induction whens with
  | nil => exact .pure trivial
  | cons w rest ih =>
    rw [List.forall_mem_cons, not_and_or] at holes
    exact (supplies.mergeClause admits hs ho ofTarget w known.left (holes ∘ .inl)).bind fun _ _ =>
      ih known.right (holes ∘ .inr)

/-! ### INSERT, UPDATE, DELETE and MERGE -/

variable (inScope : env.commons.Proper C)

include inScope

/-- The four sources of an `INSERT` differ in what they record; the target, its columns and the output are the same for
all. -/
theorem insertStmt (s : InsertStmt) (known : Known names (ofStmt (.insert s))) : env.Emits n R (insertStmt · s) := by
  have ofTarget := supplies.named s.target (known.mem rfl) ""
  simp only [ofStmt, known_node, known_append] at known
  obtain ⟨-, ⟨⟨ctes, -⟩, output⟩, source⟩ := known
  refine ((supplies.walk admits.queries).defineCommon? s.ctes ⟨rfl, inScope⟩ ctes).bind fun scope hs => ?_
  have result := supplies.outputColumns? admits s.output ofTarget hs output
  -- Both runs look up the same target columns.
  have targets : insertTargets (env.renumber n) s.target s.columns = insertTargets env s.target s.columns := rfl
  rw [targets]
  dsimp only
  generalize insertTargets env s.target s.columns = targets
  split
  · exact result
  · rename_i query isQuery
    rw [isQuery] at source
    exact ((supplies.walk admits.queries).queryColumns query ⟨rfl, hs⟩ source).bind fun columns proper =>
      (admits.insertQuery _ _ proper _).bind fun _ _ => result
  · rename_i rows _
    split
    · exact (admits.recordGap _ (by simp)).bind fun _ _ => result
    · exact (admits.rowGaps _ _ rows).bind fun _ _ =>
        (admits.emitAll (literalEdges_proper (by decide) _ _ _ _)).bind fun _ _ => result
  · split
    · exact (admits.recordGap _ (by simp)).bind fun _ _ => result
    · refine (admits.emitAll fun e member => ?_).bind fun _ _ => result
      obtain ⟨column, -, rfl⟩ := List.mem_map.1 member
      exact ⟨Edge.wellFormed_of_write trivial rfl (by simp) (by simp) rfl, List.forall_mem_nil _⟩
  · exact (admits.emitAll (literalEdges_proper (by decide) _ _ _ _)).bind fun _ _ => result

/-- The target is bound by the `FROM` clause or by itself, and every assignment is read in that scope. -/
theorem updateStmt (s : UpdateStmt) (known : Known names (ofStmt (.update s))) : env.Emits n R (updateStmt · s) := by
  have named : s.target ∈ names := known.mem rfl
  simp only [ofStmt, known_node, known_append] at known
  obtain ⟨-, ⟨⟨⟨⟨ctes, -⟩, sets⟩, output⟩, source⟩, -⟩ := known
  exact ((supplies.walk admits.queries).defineCommon? s.ctes ⟨rfl, inScope⟩ ctes).bind fun outer ho =>
    (supplies.bindTarget admits s.target s.source outer ho named source).bind fun r bound =>
    (supplies.assignAll admits .update _ bound.2 bound.1
      (fun _ assigns => ⟨assigns.update_wellFormed, assigns.reads⟩) s.sets sets).bind fun _ _ =>
    supplies.outputColumns? admits s.output bound.2 bound.1 output

theorem deleteStmt (s : DeleteStmt) (known : Known names (ofStmt (.delete s))) : env.Emits n R (deleteStmt · s) := by
  have named : s.target ∈ names := known.mem rfl
  simp only [ofStmt, known_node, known_append] at known
  obtain ⟨-, ⟨⟨⟨ctes, -⟩, output⟩, source⟩, -⟩ := known
  exact ((supplies.walk admits.queries).defineCommon? s.ctes ⟨rfl, inScope⟩ ctes).bind fun outer ho =>
    (supplies.bindTarget admits s.target s.source outer ho named source).bind fun r bound =>
    (admits.emit (removalEdge_wellFormed _ _) (List.forall_mem_nil _)).bind fun _ _ =>
    supplies.outputColumns? admits s.output bound.2 bound.1 output

/-- The clauses of a `MERGE` see the target and the source, which is bound after it. -/
theorem mergeStmt (s : MergeStmt) (known : Known names (ofStmt (.merge s)))
    (holes : ¬s.Complete → env.AdmitsHoles n R) : env.Emits n R (mergeStmt · s) := by
  have named : s.target ∈ names := known.mem rfl
  simp only [ofStmt, known_node, known_append] at known
  obtain ⟨-, ⟨⟨⟨⟨⟨ctes, -⟩, source⟩, -⟩, whens⟩, output⟩⟩ := known
  have whole : ¬(∀ w ∈ s.whens, w.Complete) → env.AdmitsHoles n R := by
    intro hole
    refine holes ?_
    rintro ⟨-, -, -, -, complete, -⟩
    exact hole complete
  refine ((supplies.walk admits.queries).defineCommon? s.ctes ⟨rfl, inScope⟩ ctes).bind fun outer ho => ?_
  have ofTarget := supplies.tableBinding named s.targetAlias outer
  exact ((supplies.walk admits.queries).bindTable s.source ⟨rfl, ho.child.bind ofTarget⟩ source).bind fun scope hs =>
    (supplies.mergeClauses admits hs ho ofTarget s.whens whens whole).bind fun _ _ =>
    supplies.outputColumns? admits s.output ofTarget hs output

end Env.Supplies

/-! ### All statements -/

namespace Env.Supplies

variable (supplies : env.Supplies names C) (admits : env.AdmitsStatements n C R) (inScope : env.commons.Proper C)

include supplies admits inScope

theorem selectStmt (query : Query) (known : Known names (ofQuery query)) : env.Emits n R (selectStmt · query) := by
  refine ((supplies.walk admits.queries).queryColumns query ⟨rfl, inScope⟩ known).bind fun columns proper => ?_
  have edges := admits.queries.emitColumns proper
  split
  · exact edges _
  · dsimp only
    split
    · exact (admits.remember _ _).bind fun _ _ => edges _
    · exact edges _

theorem queryInto (target : Target) (query : Query) (columns : List String)
    (known : Known names (ofQuery query)) : env.Emits n R (queryInto · target query columns) :=
  ((supplies.walk admits.queries).queryColumns query ⟨rfl, inScope⟩ known).bind fun _ proper =>
    admits.queries.emitColumns (Column.rename_proper proper columns) target

/-- What one statement emits. -/
theorem stmtEvents (stmt : Stmt) (known : Known names (ofStmt stmt)) (holes : ¬stmt.Complete → env.AdmitsHoles n R) :
    env.Emits n R (stmtEvents · stmt) := by
  unfold ColumnFlow.stmtEvents
  split
  · exact supplies.selectStmt admits inScope _ known
  · exact supplies.insertStmt admits.toAdmitsWrites inScope _ known
  · exact supplies.updateStmt admits.toAdmitsWrites inScope _ known
  · refine supplies.mergeStmt admits.toAdmitsWrites inScope _ known fun hole => holes fun complete => hole ?_
    cases complete
    assumption
  · exact supplies.deleteStmt admits.toAdmitsWrites inScope _ known
  · exact admits.toAdmitsWrites.truncateStmt _ _
  · exact (Traced.Alongside.record (admits.object _)).bind fun _ _ =>
      supplies.queryInto admits inScope _ _ _ known.below
  · exact .record (admits.object _)
  · exact .record (admits.object _)
  · refine (Traced.Alongside.record (admits.object _)).bind fun _ _ => ?_
    split
    · exact admits.remember _ _
    · exact .pure trivial
  · simp only [ofStmt, known_node, known_append, Option.toList_some, List.flatMap_singleton] at known
    exact supplies.queryInto admits inScope _ _ _ known.2.2
  · exact supplies.queryInto admits inScope _ _ _ known.below
  · exact admits.declareTables _
  · exact admits.remember _ _
  · exact .pure trivial

end Env.Supplies

/-- What holds of the events of a statement: its edges are well formed, carry its number and read columns with
the property. -/
def Event.Proper (statement : Nat) (C : SourceColumn → Prop) : Event → Prop
  | .edge e => e.WellFormed ∧ e.statement = statement ∧ ∀ c ∈ e.sources, C c
  | _ => True

theorem Edge.WellFormed.withStatement {e : Edge} (formed : e.WellFormed) (statement : Nat) :
    { e with statement }.WellFormed :=
  ⟨formed.oneMarking, formed.markedEmpty, formed.bareSingle, formed.keysDistinct, formed.wholeTable,
    formed.removal, formed.merge, formed.operator, formed.compound⟩

theorem Env.admits_proper (env : Env) (C : SourceColumn → Prop) :
    env.AdmitsStatements env.statement C fun event _ => event.Proper env.statement C where
  edge _ formed reads := ⟨formed.withStatement env.statement, rfl, reads⟩
  common _ := trivial
  gap _ _ _ := trivial
  table _ _ := trivial
  object _ := trivial

end ColumnFlow
