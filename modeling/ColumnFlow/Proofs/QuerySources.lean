import ColumnFlow.Proofs.ScopeSources
import ColumnFlow.Proofs.TableNames
import ColumnFlow.Proofs.Traced

/-!
# Where the columns of a query come from

One induction over expressions, queries and table sources shows all there is to know of their runs: every column they
yield has its tag and its sources in order, every source has a property `C` that the caller chooses, and so has every
source of the edges they record, which are well formed. The caller only has to know `C` for columns that are not read
from a plain table, and for columns read from a table that the syntax names or that the enclosing trigger belongs to
(`Env.Supplies`). Scopes hand bindings inward and never outward, which is why the names of a subtree are enough.

The number of the statement goes into its edges and is looked at nowhere else, and a scope only matters for what names
stand for in it. So the induction is about two runs, under two numbers and in two scopes (`Env.Walk`), whose events are
related as the caller chooses (`Env.Admits`). What holds of a single run, and that a run under another number does the
same, are special cases.
-/

namespace ColumnFlow

open Traced (One Each)
open List (forall_mem_append)
open Sources (proper_of_tag)

/-- Columns read from the named tables, from the table of the trigger, and from anything that is not a plain
table have the property, under whatever alias. -/
structure Env.Supplies (env : Env) (names : List ObjectName) (C : SourceColumn → Prop) : Prop where
  unbound : ∀ c : SourceColumn, c.kind ≠ some .plain → C c
  named : ∀ o ∈ names, ∀ aliasName, (env.plainBinding o aliasName).Proper C
  trigger : ∀ o, env.owner.bind (·.trigger) = some o → ∀ aliasName, (env.plainBinding o aliasName).Proper C
  requalified : ∀ c : SourceColumn, C c → ∀ qualifier, C { c with qualifier }

/-- Where nothing is asked of columns. -/
theorem Env.supplies_all (env : Env) (names : List ObjectName) : env.Supplies names fun _ => True :=
  ⟨fun _ _ => trivial, fun _ _ _ _ => trivial, fun _ _ _ _ => trivial, fun _ _ _ => trivial⟩

theorem Scope.proper_all (s : Scope) : s.Proper fun _ => True := fun _ _ _ _ _ => trivial

/-- The same statement under another number. -/
def Env.renumber (env : Env) (n : Nat) : Env := { env with statement := n }

/-- What queries record under two numbers is related: edges of result sets that are well formed and read columns with the
property, and common tables. -/
structure Env.Admits (env : Env) (n : Nat) (C : SourceColumn → Prop) (R : Event → Event → Prop) : Prop where
  edge : ∀ e : Edge, e.kind = .select → e.WellFormed → (∀ c ∈ e.sources, C c) →
    R (.edge { e with statement := env.statement }) (.edge { e with statement := n })
  common : ∀ table, R (.common table) (.common table)

/-- Runs under two numbers have one value, which satisfies `q`, and related events. -/
abbrev Env.Runs {α : Type} (env : Env) (n : Nat) (R : Event → Event → Prop) (q : α → Prop) (run : Env → Traced α) : Prop :=
  Traced.Alongside R (One q) (run env) (run (env.renumber n))

/-- Runs of which only the events matter. -/
abbrev Env.Emits (env : Env) (n : Nat) (R : Event → Event → Prop) (run : Env → Traced Unit) : Prop :=
  env.Runs n R (fun _ => True) run

/-- The same in two scopes, with values that are related by `Q`. -/
abbrev Env.RunsIn {α : Type} (env : Env) (n : Nat) (R : Event → Event → Prop) (Q : α → α → Prop) (s s' : Scope)
    (run : Env → Scope → Traced α) : Prop := Traced.Alongside R Q (run env s) (run (env.renumber n) s')

/-- What two runs need to go together. Names stand for the same in scopes that are related by `S`; where they are
related by `I`, so do stars. -/
structure Env.Walk (env : Env) (n : Nat) (names : List ObjectName) (C : SourceColumn → Prop) (R : Event → Event → Prop)
    (S I : Scope → Scope → Prop) : Prop extends env.Supplies names C, env.Admits n C R where
  whole : ∀ {s s'}, I s s' → S s s'
  column : ∀ {s s'}, S s s' → ∀ ref, One C (resolveColumn ref s) (resolveColumn ref s')
  table : ∀ {s s'}, S s s' → ∀ name aliasName, env.tableBinding name aliasName s' = env.tableBinding name aliasName s
  tableStar : ∀ {s s'}, S s s' → ∀ qualifier line, One (fun cs => ∀ c ∈ cs, c.Proper C)
    (Column.ofTableStar s qualifier line) (Column.ofTableStar s' qualifier line)
  star : ∀ {s s'}, I s s' → ∀ line,
    One (fun cs => ∀ c ∈ cs, c.Proper C) (Column.ofStar s line) (Column.ofStar s' line)
  define : ∀ {s s'}, S s s' → ∀ d, S (s.define d) (s'.define d)
  child : ∀ {s s'}, S s s' → I s.child s'.child
  bind : ∀ {s s'}, I s s' → ∀ {b}, b.Proper C → I (s.bind b) (s'.bind b)

section

variable {C : SourceColumn → Prop}

theorem Binding.proper_of_kind {b : Binding} (unbound : ∀ c : SourceColumn, c.kind ≠ some .plain → C c)
    (kind : b.source.kind ≠ .plain) : b.Proper C :=
  fun _ => unbound _ fun plain => kind (Option.some.inj plain)

theorem Column.edge_sources {c : Column} (proper : c.Proper C) (kind : StatementKind) (target : Target)
    (name : String) : ∀ x ∈ (c.edge kind target name).sources, C x := by
  intro x member
  unfold Column.edge at member
  split at member
  · cases member
  · rename_i sources reads
    exact (proper sources reads).reads x (SourceColumn.mem_of_mem_distinct member)

/-- The value of an edge from a proper column is proper. -/
theorem Column.edge_value_proper {c : Column} (proper : c.Proper C) (kind : StatementKind) (target : Target)
    (name : String) : (c.edge kind target name).value.Proper (c.edge kind target name).column := by
  unfold Column.edge
  split
  · rfl
  · rename_i sources reads
    refine ⟨SourceColumn.distinct_keys_nodup _, fun empty => ?_⟩
    have bare := (proper sources reads).tagged empty
    obtain ⟨x, only⟩ := List.length_eq_one_iff.1 ((proper sources reads).single bare)
    rw [only, SourceColumn.distinct_singleton]
    rfl

section

variable (c : Column) (kind : StatementKind) (target : Target) (name : String)

theorem Column.edge_isRemoval : (c.edge kind target name).isRemoval = false := by
  unfold Column.edge
  split <;> rfl

theorem Column.edge_merge : (c.edge kind target name).merge = none := by
  unfold Column.edge
  split <;> rfl

theorem Column.edge_operator : (c.edge kind target name).operator = none := by
  unfold Column.edge
  split <;> rfl

end

theorem Column.edge_proper {c : Column} (proper : c.Proper C) {kind : StatementKind}
    (writes : kind ≠ .delete ∧ kind ≠ .update) (target : Target) (name : String) :
    (c.edge kind target name).WellFormed ∧ ∀ x ∈ (c.edge kind target name).sources, C x := by
  refine ⟨Edge.wellFormed_of_write (c.edge_value_proper proper kind target name)
    (c.edge_isRemoval kind target name) ?_ ?_ (c.edge_operator kind target name), c.edge_sources proper kind target name⟩
  · rwa [c.edge_kind kind target name]
  · simp [c.edge_merge kind target name]

theorem Column.edges_proper {cs : List Column} (proper : ∀ c ∈ cs, c.Proper C) {kind : StatementKind}
    (writes : kind ≠ .delete ∧ kind ≠ .update) (target : Target) :
    ∀ e ∈ Column.edges kind target cs, e.WellFormed ∧ ∀ x ∈ e.sources, C x := by
  intro e member
  obtain ⟨c, found, rfl⟩ := List.mem_map.1 member
  exact Column.edge_proper (proper c found) writes target c.name

/-- The columns of a result set. -/
theorem Env.Admits.emitColumns {env : Env} {n : Nat} {R : Event → Event → Prop} (admits : env.Admits n C R)
    {cs : List Column} (proper : ∀ c ∈ cs, c.Proper C) (target : Target) :
    env.Emits n R (·.emitAll (Column.edges .select target cs)) := by
  refine .recordMap fun e member => ?_
  obtain ⟨formed, reads⟩ := Column.edges_proper proper (by decide) target e member
  obtain ⟨c, -, rfl⟩ := List.mem_map.1 member
  exact admits.edge _ (c.edge_kind .select target c.name) formed reads

/-- A name in table position is bound to a common table, to the table of the trigger or to the table it
names. -/
theorem Env.Supplies.tableBinding {env : Env} {names : List ObjectName} (supplies : env.Supplies names C)
    {name : ObjectName} (known : name ∈ names) (aliasName : String) (s : Scope) :
    (env.tableBinding name aliasName s).Proper C := by
  unfold Env.tableBinding
  split
  · split
    · exact Binding.proper_of_kind supplies.unbound nofun
    · split
      · rename_i table found
        refine supplies.trigger table ?_ _
        unfold Env.triggerTable? at found
        simp only at found
        split at found
        · exact found
        · cases found
      · exact supplies.named name known aliasName
  · exact supplies.named name known aliasName

/-- One scope that is proper. -/
theorem Env.Supplies.walk {env : Env} {n : Nat} {names : List ObjectName} {R : Event → Event → Prop}
    (supplies : env.Supplies names C) (admits : env.Admits n C R) :
    env.Walk n names C R (One (Scope.Proper C)) (One (Scope.Proper C)) where
  toSupplies := supplies
  toAdmits := admits
  whole one := one
  column one ref := ⟨by rw [one.1], resolveColumn_proper supplies.unbound one.2 ref⟩
  table one _ _ := by rw [one.1]
  tableStar one _ _ := ⟨by rw [one.1], Column.ofTableStar_proper one.2 _ _⟩
  star one _ := ⟨by rw [one.1], Column.ofStar_proper one.2 _⟩
  define one d := ⟨by rw [one.1], one.2.define d⟩
  child one := ⟨by rw [one.1], one.2.child⟩
  bind one _ added := ⟨by rw [one.1], one.2.bind added⟩

end

namespace Env.Walk

open Outline

variable {env : Env} {n : Nat} {names : List ObjectName} {C : SourceColumn → Prop} {R : Event → Event → Prop}
  {S I : Scope → Scope → Prop}

-- One theorem per function of the extraction and one case per constructor: the induction is the recursion itself.
mutual

/-- By the kind of expression: a reference is resolved in the scope, and a query inside is walked in a scope of its own.
-/
theorem exprSources (w : env.Walk n names C R S I) (e : Expr) {s s' : Scope} (together : S s s')
    (known : Known names (ofExpr e)) : env.RunsIn n R (One (Sources.Proper C)) s s' (exprSources · e) := by
  match e with
  | .missing | .star .. | .literal .. | .localVar .. => exact .pure (proper_of_tag nofun (by decide))
  | .column ref =>
    obtain ⟨same, holds⟩ := w.column together ref
    refine .both ⟨?_, List.forall_mem_singleton.2 holds, fun _ => rfl, fun _ => rfl⟩
    exact congrArg (fun c => { columns := [c], transform := .bare : Sources }) same
  | .call fn =>
    exact (w.callColumns fn together known).bind fun columns reads =>
      .pure (proper_of_tag reads fn.tag_text_ne_empty)
  | .case _ operand whens otherwise =>
    refine (w.exprColumns? operand together known.below.left.left).bind fun a ha =>
      (w.whenColumns whens together known.below.left.right).bind fun b hb =>
      (w.exprColumns? otherwise together known.below.right).bind fun c hc =>
      .pure (proper_of_tag ?_ (by decide))
    exact forall_mem_append.2 ⟨forall_mem_append.2 ⟨ha, hb⟩, hc⟩
  | .cast _ operand _ _ | .collate _ operand _ | .isNull _ operand _ =>
    exact (w.exprSources operand together known.below).bind fun inner proper =>
      .pure (proper_of_tag proper.reads (by decide))
  | .convert _ _ operand _ _ =>
    exact (w.exprSources operand together known.below.left).bind fun inner proper =>
      .pure (proper_of_tag proper.reads (by decide))
  | .coalesce _ args =>
    exact (w.exprColumns args together known.below).bind fun columns reads =>
      .pure (proper_of_tag reads (by decide))
  | .nullIf _ left right =>
    exact (w.exprSources left together known.below.left).bind fun l hl =>
      (w.exprSources right together known.below.right).bind fun r hr =>
      .pure (proper_of_tag (forall_mem_append.2 ⟨hl.reads, hr.reads⟩) (by decide))
  | .iif _ a b c | .between _ a _ b c =>
    refine (w.exprSources a together known.below.left.left).bind fun _ ha =>
      (w.exprSources b together known.below.left.right).bind fun _ hb =>
      (w.exprSources c together known.below.right).bind fun _ hc =>
      .pure (proper_of_tag ?_ (by decide))
    exact forall_mem_append.2 ⟨forall_mem_append.2 ⟨ha.reads, hb.reads⟩, hc.reads⟩
  | .binary _ left op right =>
    exact (w.exprSources left together known.below.left).bind fun l hl =>
      (w.exprSources right together known.below.right).bind fun r hr =>
      .pure (proper_of_tag (forall_mem_append.2 ⟨hl.reads, hr.reads⟩)
        (Transform.compose_text_ne_empty op.text hl.tagged hr.tagged))
  | .unary _ _ operand =>
    exact (w.exprSources operand together known.below).bind fun inner proper =>
      .pure (proper_of_tag proper.reads (Transform.inner_text_ne_empty proper.tagged))
  | .paren _ inner => exact w.exprSources inner together known.below
  | .subquery _ query | .exists _ query =>
    exact (w.queryColumns query together known.below).bind fun columns proper =>
      .pure (proper_of_tag (projectedSources_proper proper) (by decide))
  | .inList _ operand _ values =>
    exact (w.exprSources operand together known.below.left).bind fun inner hi =>
      (w.exprColumns values together known.below.right).bind fun others ho =>
      .pure (proper_of_tag (forall_mem_append.2 ⟨hi.reads, ho⟩) (by decide))
  | .inQuery _ operand _ query =>
    refine (w.exprSources operand together known.below.left).bind fun inner hi =>
      (w.queryColumns query together known.below.right).bind fun columns hc =>
      .pure (proper_of_tag ?_ (by decide))
    exact forall_mem_append.2 ⟨hi.reads, projectedSources_proper hc⟩
  | .like _ operand _ pattern escape =>
    refine (w.exprSources operand together known.below.left.left).bind fun inner hi =>
      (w.exprSources pattern together known.below.left.right).bind fun p hp =>
      (w.exprColumns? escape together known.below.right).bind fun last hl =>
      .pure (proper_of_tag ?_ (by decide))
    exact forall_mem_append.2 ⟨forall_mem_append.2 ⟨hi.reads, hp.reads⟩, hl⟩

theorem exprColumns? (w : env.Walk n names C R S I) (e : Option Expr) {s s' : Scope} (together : S s s')
    (known : Known names (ofExpr? e)) : env.RunsIn n R (Each C) s s' (exprColumns? · e) := by
  match e with
  | none => exact .pure nofun
  | some e => exact (w.exprSources e together known).bind fun sources proper => .pure proper.reads

theorem exprColumns (w : env.Walk n names C R S I) (es : List Expr) {s s' : Scope} (together : S s s')
    (known : Known names (ofExprs es)) : env.RunsIn n R (Each C) s s' (exprColumns · es) := by
  match es with
  | [] => exact .pure nofun
  | e :: rest =>
    exact (w.exprSources e together known.left).bind fun first hf =>
      (w.exprColumns rest together known.right).bind fun later hl =>
      .pure (forall_mem_append.2 ⟨hf.reads, hl⟩)

theorem callColumns (w : env.Walk n names C R S I) (fn : FuncCall) {s s' : Scope} (together : S s s')
    (known : Known names (ofCall fn)) : env.RunsIn n R (Each C) s s' (callColumns · fn) := by
  match fn with
  | ⟨_, _, _, _, args, _, withinGroup, window⟩ =>
    exact (w.exprColumns args together known.below.left.left).bind fun a ha =>
      (w.orderColumns withinGroup together known.below.left.right).bind fun o ho =>
      (w.windowColumns window together known.below.right).bind fun w hw =>
      .pure (forall_mem_append.2 ⟨forall_mem_append.2 ⟨ha, ho⟩, hw⟩)

theorem windowColumns (w : env.Walk n names C R S I) (window : Option WindowSpec) {s s' : Scope} (together : S s s')
    (known : Known names (ofWindow? window)) : env.RunsIn n R (Each C) s s' (windowColumns · window) := by
  match window with
  | none => exact .pure nofun
  | some ⟨partitionBy, orderBy⟩ =>
    exact (w.exprColumns partitionBy together known.left).bind fun p hp =>
      (w.orderColumns orderBy together known.right).bind fun o ho =>
      .pure (forall_mem_append.2 ⟨hp, ho⟩)

theorem orderColumns (w : env.Walk n names C R S I) (items : List OrderItem) {s s' : Scope} (together : S s s')
    (known : Known names (ofOrder items)) : env.RunsIn n R (Each C) s s' (orderColumns · items) := by
  match items with
  | [] => exact .pure nofun
  | ⟨e, _⟩ :: rest =>
    exact (w.exprSources e together known.left).bind fun first hf =>
      (w.orderColumns rest together known.right).bind fun later hl =>
      .pure (forall_mem_append.2 ⟨hf.reads, hl⟩)

theorem whenColumns (w : env.Walk n names C R S I) (whens : List WhenClause) {s s' : Scope} (together : S s s')
    (known : Known names (ofWhens whens)) : env.RunsIn n R (Each C) s s' (whenColumns · whens) := by
  match whens with
  | [] => exact .pure nofun
  | ⟨condition, result⟩ :: rest =>
    exact (w.exprSources condition together known.left.left).bind fun c hc =>
      (w.exprSources result together known.left.right).bind fun r hr =>
      (w.whenColumns rest together known.right).bind fun later hl =>
      .pure (forall_mem_append.2 ⟨forall_mem_append.2 ⟨hc.reads, hr.reads⟩, hl⟩)

theorem queryColumns (w : env.Walk n names C R S I) (q : Query) {s s' : Scope} (together : S s s')
    (known : Known names (ofQuery q)) : env.RunsIn n R (Each (Column.Proper C)) s s' (queryColumns · q) := by
  match q with
  | ⟨_, ctes, body, _, _, _, _⟩ =>
    simp only [ofQuery, known_node, known_append] at known
    obtain ⟨-, ⟨⟨⟨first, second⟩, -⟩, -⟩, -⟩ := known
    exact (w.defineCommon? ctes together first).bindBoth fun _ _ defined => w.bodyColumns body defined second

theorem defineCommon? (w : env.Walk n names C R S I) (clause : Option WithClause) {s s' : Scope} (together : S s s')
    (known : Known names (ofWith? clause)) : env.RunsIn n R S s s' (defineCommon? · clause) := by
  match clause with
  | none => exact .both together
  | some clause => exact w.defineCommon clause together known

theorem defineCommon (w : env.Walk n names C R S I) (clause : WithClause) {s s' : Scope} (together : S s s')
    (known : Known names (ofWith clause)) : env.RunsIn n R S s s' (defineCommon · clause) := by
  match clause with
  | ⟨_, tables⟩ => exact w.defineTables tables together known.below

theorem defineTables (w : env.Walk n names C R S I) (tables : List CommonTable) {s s' : Scope} (together : S s s')
    (known : Known names (ofCommonTables tables)) : env.RunsIn n R S s s' (defineTables · tables) := by
  match tables with
  | [] => exact .both together
  | table :: rest =>
    exact (w.defineTable table together known.left).bindBoth fun _ _ defined => w.defineTables rest defined known.right

theorem defineTable (w : env.Walk n names C R S I) (table : CommonTable) {s s' : Scope} (together : S s s')
    (known : Known names (ofCommonTable table)) : env.RunsIn n R S s s' (defineTable · table) := by
  match table with
  | ⟨_, name, columns, query⟩ =>
    refine (w.queryColumns query (w.define together _) known.below).bind fun projected proper => ?_
    exact (Traced.Alongside.record (w.common _)).bind fun _ _ =>
      (w.emitColumns (Column.rename_proper proper columns) _).bind fun _ _ => .both (w.define together _)

/-- The operands of a set operation are merged column by column. -/
theorem bodyColumns (w : env.Walk n names C R S I) (body : SelectBody) {s s' : Scope} (together : S s s')
    (known : Known names (ofBody body)) : env.RunsIn n R (Each (Column.Proper C)) s s' (bodyColumns · body) := by
  match body with
  | .single _ core => exact w.coreColumns core together known.below
  | .chain _ core op all rest =>
    refine (w.coreColumns core together known.below.left).bind fun left hl =>
      (w.bodyColumns rest together known.below.right).bind fun right hr => .pure ?_
    split
    · exact hl
    · exact Column.mergeAll_proper (SetOp.tag_ne_empty op all) hl hr

/-- The tables are bound first, and the items are read in the scope that this gives. -/
theorem coreColumns (w : env.Walk n names C R S I) (core : SelectCore) {s s' : Scope} (together : S s s')
    (known : Known names (ofCore core)) : env.RunsIn n R (Each (Column.Proper C)) s s' (coreColumns · core) := by
  match core with
  | ⟨_, _, _, columns, _, source, _, _, _⟩ =>
    simp only [ofCore, known_node, known_append] at known
    obtain ⟨-, ⟨⟨⟨⟨⟨-, items⟩, -⟩, from'⟩, -⟩, -⟩, -⟩ := known
    exact (w.bindSource? source (w.child together) from').bindBoth fun _ _ bound =>
      (w.itemColumns columns 1 (w.whole bound) (fun _ _ => bound) items).bind fun projected proper =>
      .pure (Column.uniqueNames_proper proper)

/-- Only a star has to see the same tables of its level. -/
theorem itemColumns (w : env.Walk n names C R S I) (items : List SelectItem) (position : Nat) {s s' : Scope}
    (together : S s s') (stars : ∀ span, .star span ∈ items → I s s') (known : Known names (ofItems items)) :
    env.RunsIn n R (Each (Column.Proper C)) s s' (itemColumns · items position) := by
  match items with
  | [] => exact .pure nofun
  | item :: rest =>
    have first := w.itemColumn item position together (fun span here => stars span (here ▸ List.mem_cons_self)) known.left
    exact first.bind fun first hf =>
      (w.itemColumns rest (position + 1) together
        (fun span member => stars span (List.mem_cons_of_mem item member)) known.right).bind fun later hl =>
      .pure (forall_mem_append.2 ⟨hf, hl⟩)

/-- Only a star looks at the tables of the scope in their order, so only a star asks for `I`. -/
theorem itemColumn (w : env.Walk n names C R S I) (item : SelectItem) (position : Nat) {s s' : Scope} (together : S s s')
    (star : ∀ span, item = .star span → I s s') (known : Known names (ofItem item)) :
    env.RunsIn n R (Each (Column.Proper C)) s s' (itemColumn · item position) := by
  match item with
  | .assign .. => exact .pure nofun
  | .star span => exact .both (w.star (star span rfl) _)
  | .tableStar span qualifier => exact .both (w.tableStar together qualifier _)
  | .value span value aliasName =>
    refine (w.exprSources value together known.below).bind fun sources proper => .pure ?_
    refine List.forall_mem_singleton.2 ?_
    rintro _ ⟨⟩
    exact proper

theorem bindSource? (w : env.Walk n names C R S I) (clause : Option FromClause) {s s' : Scope} (together : I s s')
    (known : Known names (ofSource? clause)) : env.RunsIn n R I s s' (bindSource? · clause) := by
  match clause with
  | none => exact .both together
  | some clause => exact w.bindSource clause together known

theorem bindSource (w : env.Walk n names C R S I) (clause : FromClause) {s s' : Scope} (together : I s s')
    (known : Known names (ofSource clause)) : env.RunsIn n R I s s' (bindSource · clause) := by
  match clause with
  | ⟨_, source, joins⟩ =>
    exact (w.bindTable source together known.below.left).bindBoth fun _ _ bound => w.bindJoins joins bound known.below.right

theorem bindJoins (w : env.Walk n names C R S I) (joins : List Join) {s s' : Scope} (together : I s s')
    (known : Known names (ofJoins joins)) : env.RunsIn n R I s s' (bindJoins · joins) := by
  match joins with
  | [] => exact .both together
  | ⟨_, _, right, _⟩ :: rest =>
    exact (w.bindTable right together known.left.below.left).bindBoth fun _ _ bound => w.bindJoins rest bound known.right

/-- A table is bound behind those bound before it; a join binds its left side first. -/
theorem bindTable (w : env.Walk n names C R S I) (table : TableRef) {s s' : Scope} (together : I s s')
    (known : Known names (ofTable table)) : env.RunsIn n R I s s' (bindTable · table) := by
  match table with
  | .missing => exact .both together
  | .named _ name aliasName _ =>
    have bound := w.bind together (w.toSupplies.tableBinding (known.mem rfl) aliasName s)
    refine .both ?_
    show I _ (s'.bind (env.tableBinding name aliasName s'))
    rwa [w.table (w.whole together)]
  | .derived _ query aliasName columns =>
    refine (w.queryColumns query (w.whole together) known.below).bind fun projected proper => ?_
    exact (w.emitColumns (Column.rename_proper proper columns) _).bind fun _ _ =>
      .both (w.bind together (Binding.proper_of_kind w.unbound nofun))
  | .values .. | .function .. => exact .both (w.bind together (Binding.proper_of_kind w.unbound nofun))
  | .pivot _ _ source _ _ =>
    have inside := w.bindTable source (w.child (w.whole together)) known.below.left
    exact inside.discard.bind fun _ _ => .both (w.bind together (Binding.proper_of_kind w.unbound nofun))
  | .remote _ kind _ object aliasName =>
    refine .both (w.bind together (Binding.proper_of_kind w.unbound ?_))
    cases object <;> exact nofun
  | .joined _ source => exact w.bindSource source together known.below

end

end Env.Walk

end ColumnFlow
