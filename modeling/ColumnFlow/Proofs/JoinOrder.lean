import ColumnFlow.Proofs.QuerySources
import ColumnFlow.Proofs.SchemaQualifiers
import Mathlib.Data.List.Forall2

/-!
# The order of joined tables

Names are resolved level by level: a qualifier by the key of a table, a bare column by all tables of a level that may own
it. Neither looks at the order of the tables of a level if their keys differ, so levels that hold the same tables in
another order are as good as equal (`Level.Reordered`), also for all queries inside. Only a star lists the tables of its own
level in order. A query inside has a level of its own, which is the same in both scopes (`Scope.Inner`).
-/

namespace ColumnFlow

/-! ### Scopes that resolve alike -/

/-- The levels find the same tables and have the same owners of every column, in whatever order. -/
structure Level.Reordered (l l' : Level) : Prop where
  commons : l'.commons = l.commons
  found : ∀ key, l'.tables.find? (·.key == key) = l.tables.find? (·.key == key)
  owners : ∀ column, (l'.owners column).Perm (l.owners column)

theorem Level.Reordered.refl (l : Level) : l.Reordered l := ⟨rfl, fun _ => rfl, fun _ => .refl _⟩

theorem Level.Reordered.of_perm {l l' : Level} (commons : l'.commons = l.commons) (permuted : l'.tables.Perm l.tables)
    (distinct : (l.tables.map (·.key)).Nodup) : l.Reordered l' := by
  have distinct' : (l'.tables.map (·.key)).Nodup := (permuted.map _).nodup_iff.2 distinct
  refine ⟨commons, fun key => Option.ext fun b => ?_, fun _ => permuted.filter _⟩
  rw [find?_key_iff distinct', find?_key_iff distinct, permuted.mem_iff]

namespace Scope

/-- Scopes whose levels are alike one by one. -/
structure Reordered (s s' : Scope) : Prop where
  level : s.level.Reordered s'.level
  outer : List.Forall₂ Level.Reordered s.outer s'.outer

/-- Scopes that differ at most outside their innermost level. -/
structure Inner (s s' : Scope) : Prop where
  level : s'.level = s.level
  outer : List.Forall₂ Level.Reordered s.outer s'.outer

variable {s s' : Scope}

theorem Inner.reordered (h : Inner s s') : Reordered s s' := ⟨h.level ▸ .refl _, h.outer⟩

theorem Inner.bind (h : Inner s s') (b : Binding) : Inner (s.bind b) (s'.bind b) := by
  refine ⟨?_, h.outer⟩
  rw [Scope.bind, Scope.bind, h.level]

namespace Reordered

variable (h : Reordered s s')

include h

theorem levels : List.Forall₂ Level.Reordered s.levels s'.levels := .cons h.level h.outer

theorem child : Inner s.child s'.child := ⟨rfl, h.levels⟩

theorem define (d : CommonDef) : Reordered (s.define d) (s'.define d) := by
  refine ⟨⟨?_, h.level.found, h.level.owners⟩, h.outer⟩
  rw [Scope.define, Scope.define, h.level.commons]

/-- What is looked for level by level. -/
theorem findSome? {α : Type} {f : Level → Option α} (same : ∀ {l l' : Level}, l.Reordered l' → f l' = f l) :
    s'.levels.findSome? f = s.levels.findSome? f := by
  have levels := h.levels
  generalize s.levels = ls, s'.levels = ls' at levels ⊢
  induction levels with
  | nil => rfl
  | cons level _ ih => rw [List.findSome?_cons, List.findSome?_cons, same level, ih]

theorem common (key : String) : s'.common key = s.common key := h.findSome? fun level => by rw [level.commons]

theorem lookup (key : String) : s'.lookup key = s.lookup key := h.findSome? fun level => level.found key

theorem candidates (column : String) : (s'.candidates column).Perm (s.candidates column) := by
  unfold Scope.candidates
  have levels := h.levels
  generalize s.levels = ls, s'.levels = ls' at levels ⊢
  induction levels with
  | nil => rfl
  | @cons l l' _ _ level _ ih =>
    have owners := level.owners column
    rw [List.map_cons, List.map_cons, List.find?_cons, List.find?_cons, owners.isEmpty_eq]
    split
    · exact owners
    · exact ih

/-- References are resolved alike, ambiguous ones included. -/
theorem resolveColumn (ref : ColumnRef) : resolveColumn ref s' = resolveColumn ref s := by
  have owners := h.candidates ref.column
  unfold ColumnFlow.resolveColumn
  rw [h.lookup]
  split
  · rfl
  · match found : s.candidates ref.column with
    | [] => rw [found, List.perm_nil] at owners; rw [owners]
    | [b] => rw [found, List.perm_singleton] at owners; rw [owners]
    | b :: c :: more =>
      rw [found] at owners
      have length := owners.length_eq
      match found' : s'.candidates ref.column with
      | [] | [_] => rw [found'] at length; cases length
      | _ :: _ :: _ => rfl

theorem ofTableStar (qualifier : String) (line : Nat) :
    Column.ofTableStar s' qualifier line = Column.ofTableStar s qualifier line := by
  rw [Column.ofTableStar, Column.ofTableStar, h.lookup]

theorem tableBinding (env : Env) (name : ObjectName) (aliasName : String) :
    env.tableBinding name aliasName s' = env.tableBinding name aliasName s :=
  env.tableBinding_congr name aliasName h.common

end Reordered

end Scope

/-- Runs may stand in scopes that resolve alike. -/
theorem Env.walk_reordered (env : Env) (names : List ObjectName) :
    env.Walk env.statement names (fun _ => True) Eq Scope.Reordered Scope.Inner where
  toSupplies := env.supplies_all names
  edge _ _ _ _ := rfl
  common _ := rfl
  whole h := h.reordered
  column h ref := ⟨h.resolveColumn ref, trivial⟩
  table h := h.tableBinding env
  tableStar h qualifier line :=
    ⟨h.ofTableStar qualifier line, Column.ofTableStar_proper (Scope.proper_all _) qualifier line⟩
  star h line := ⟨by rw [Column.ofStar, Column.ofStar, h.level], Column.ofStar_proper (Scope.proper_all _) line⟩
  define h := h.define
  child h := h.child
  bind h b _ := h.bind b

/-- A select list without a bare star gives the same in scopes that resolve alike. -/
theorem itemColumns_reordered (env : Env) {items : List SelectItem} (position : Nat) {s s' : Scope} (h : s.Reordered s')
    (unstarred : ∀ span, .star span ∉ items) : itemColumns env items position s' = itemColumns env items position s := by
  have run := (env.walk_reordered _).itemColumns items position h
    (fun span member => absurd member (unstarred span)) (List.Subset.refl _)
  have events := run.events
  rw [List.forall₂_eq_eq_eq] at events
  exact congrArg₂ Traced.mk run.value.1 events.symm

/-! ### Clauses of named tables -/

mutual

/-- The tables of a clause from left to right, those of joins in parentheses included. -/
def FromClause.leaves : FromClause → List TableRef
  | ⟨_, source, joins⟩ => source.leaves ++ Join.leaves joins

def Join.leaves : List Join → List TableRef
  | [] => []
  | ⟨_, _, right, _⟩ :: rest => right.leaves ++ Join.leaves rest

def TableRef.leaves : TableRef → List TableRef
  | .joined _ source => source.leaves
  | table => [table]

end

/-- A table by its name, with its alias. -/
def TableRef.named? : TableRef → Option (ObjectName × String)
  | .named _ name aliasName _ => some (name, aliasName)
  | _ => none

/-- The tables of a clause that are named. -/
def FromClause.named (clause : FromClause) : List (ObjectName × String) := clause.leaves.filterMap (·.named?)

def FromClause.onlyNamed (clause : FromClause) : Bool := clause.leaves.all (·.named?.isSome)

section

variable (env : Env) (s : Scope)

/-- Bind named tables one by one. -/
def Scope.bindNamed (tables : List (ObjectName × String)) : Scope :=
  tables.foldl (fun s table => s.bind (env.tableBinding table.1 table.2 s)) s

theorem Scope.bindNamed_append (front back : List (ObjectName × String)) :
    s.bindNamed env (front ++ back) = (s.bindNamed env front).bindNamed env back := List.foldl_append

/-- What a name stands for does not depend on the tables bound before, and tables with other keys stay. -/
theorem Scope.bindNamed_eq (tables : List (ObjectName × String))
    (distinct : ((s.level.tables ++ tables.map fun t => env.tableBinding t.1 t.2 s).map (·.key)).Nodup) :
    s.bindNamed env tables =
      { s with level :=
        { s.level with tables := s.level.tables ++ tables.map fun t => env.tableBinding t.1 t.2 s } } := by
  induction tables generalizing s with
  | nil => rw [List.map_nil, List.append_nil]; rfl
  | cons t rest ih =>
    let b := env.tableBinding t.1 t.2 s
    have same (t : ObjectName × String) : env.tableBinding t.1 t.2 (s.bind b) = env.tableBinding t.1 t.2 s :=
      env.tableBinding_congr t.1 t.2 fun _ => rfl
    have kept : s.level.tables.filter (·.key != b.key) = s.level.tables := by
      rw [List.map_append, List.nodup_append'] at distinct
      refine List.filter_eq_self.2 fun c member => bne_iff_ne.2 fun equal => ?_
      exact distinct.2.2 (List.mem_map_of_mem member) (equal ▸ List.mem_map_of_mem List.mem_cons_self)
    have bound : (s.bind b).level.tables = s.level.tables ++ [b] := congrArg (· ++ [b]) kept
    have next := ih (s.bind b)
    simp only [bound, same, List.append_assoc, List.singleton_append] at next
    exact next distinct

mutual

theorem bindSource_named (clause : FromClause) (s : Scope) (named : clause.leaves.all (·.named?.isSome)) :
    bindSource env clause s = pure (s.bindNamed env (clause.leaves.filterMap (·.named?))) := by
  match clause with
  | ⟨_, source, joins⟩ =>
    rw [FromClause.leaves, List.all_append, Bool.and_eq_true] at named
    rw [bindSource, FromClause.leaves, bindTable_named source s named.1, List.filterMap_append, Scope.bindNamed_append]
    exact bindJoins_named joins _ named.2

theorem bindJoins_named (joins : List Join) (s : Scope) (named : (Join.leaves joins).all (·.named?.isSome)) :
    bindJoins env joins s = pure (s.bindNamed env ((Join.leaves joins).filterMap (·.named?))) := by
  match joins with
  | [] => rfl
  | ⟨_, _, right, _⟩ :: rest =>
    rw [Join.leaves, List.all_append, Bool.and_eq_true] at named
    rw [bindJoins, Join.leaves, bindTable_named right s named.1, List.filterMap_append, Scope.bindNamed_append]
    exact bindJoins_named rest _ named.2

theorem bindTable_named (table : TableRef) (s : Scope) (named : table.leaves.all (·.named?.isSome)) :
    bindTable env table s = pure (s.bindNamed env (table.leaves.filterMap (·.named?))) := by
  match table with
  | .named .. => rfl
  | .joined _ source =>
    rw [TableRef.leaves] at named ⊢
    exact bindSource_named source s named
  | .missing | .derived .. | .values .. | .function .. | .pivot .. | .remote .. => cases named

end

/-- The tables that the names of a clause stand for. -/
def FromClause.bindings (clause : FromClause) : List Binding :=
  clause.named.map fun table => env.tableBinding table.1 table.2 s

/-- A clause of named tables with different keys opens a level of these tables. -/
theorem bindSource?_named {clause : FromClause} (named : clause.onlyNamed)
    (distinct : ((clause.bindings env s).map (·.key)).Nodup) :
    bindSource? env (some clause) s.child = pure { level := { tables := clause.bindings env s }, outer := s.levels } := by
  have same : (clause.named.map fun t => env.tableBinding t.1 t.2 s.child) = clause.bindings env s :=
    List.map_congr_left fun t _ => env.tableBinding_congr t.1 t.2 fun _ => rfl
  rw [← same] at distinct ⊢
  exact (bindSource_named env clause s.child named).trans (congrArg pure (s.child.bindNamed_eq env clause.named distinct))

end

/-- A query that reads only named tables, with different keys, and has no bare star projects the same columns in
whatever order and by whatever joins it reads them. -/
theorem join_order_irrelevant (env : Env) (core : SelectCore) (outer : Scope) {clause clause' : FromClause}
    (named : clause.onlyNamed) (named' : clause'.onlyNamed) (permuted : clause'.named.Perm clause.named)
    (distinct : ((clause.bindings env outer).map (·.key)).Nodup) (unstarred : ∀ span, .star span ∉ core.columns) :
    coreColumns env { core with source := some clause' } outer =
      coreColumns env { core with source := some clause } outer := by
  have permuted : (clause'.bindings env outer).Perm (clause.bindings env outer) := permuted.map _
  have distinct' : ((clause'.bindings env outer).map (·.key)).Nodup := (permuted.map _).nodup_iff.2 distinct
  have reordered : Scope.Reordered ⟨{ tables := clause.bindings env outer }, outer.levels⟩
      ⟨{ tables := clause'.bindings env outer }, outer.levels⟩ :=
    ⟨.of_perm rfl permuted distinct, List.forall₂_same.2 fun level _ => .refl level⟩
  rw [coreColumns, coreColumns, bindSource?_named env outer named distinct, bindSource?_named env outer named' distinct',
    pure_bind, pure_bind, itemColumns_reordered env 1 reordered unstarred]

/-- `SELECT x, (SELECT y FROM c)` reads `x` from `a`, and `y` from `a` or `b`, as well if it joins `b` with `a`. -/
theorem join_order_irrelevant_swapped :
    let columns (_ table : String) := [("a", ["x", "y"]), ("b", ["y", "z"]), ("c", ["w"])].lookup table
    let env : Env := { defaultSchema := "dbo", resolve := columns }
    let table (name : String) : TableRef := .named .unset { name } "" []
    let column (column : String) : SelectItem := .value .unset (.column { column }) ""
    let core (items : List SelectItem) (clause : FromClause) : SelectCore :=
      ⟨.unset, false, none, items, none, some clause, none, [], none⟩
    let inner : Query := ⟨.unset, none, .single .unset (core [column "y"] ⟨.unset, table "c", []⟩), [], none, none, ""⟩
    let joined (left right : String) : SelectCore :=
      core [column "x", .value .unset (.subquery .unset inner) ""]
        ⟨.unset, table left, [⟨.unset, .inner, table right, none⟩]⟩
    coreColumns env (joined "b" "a") {} = coreColumns env (joined "a" "b") {} ∧
      (coreColumns env (joined "a" "b") {}).value.map (·.sources.map fun c => (c.table, c.ambiguous)) =
        [[("a", false)], [("", true)]] := by
  intro columns env table column core inner joined
  have unstarred (span : Text.Span) : .star span ∉ (joined "a" "b").columns :=
    List.not_mem_cons_of_ne_of_not_mem SelectItem.noConfusion
      (List.not_mem_cons_of_ne_of_not_mem SelectItem.noConfusion List.not_mem_nil)
  exact ⟨join_order_irrelevant env (joined "a" "b") {} rfl rfl (.swap _ _ _) (by decide +kernel) unstarred,
    by decide +kernel⟩

end ColumnFlow
