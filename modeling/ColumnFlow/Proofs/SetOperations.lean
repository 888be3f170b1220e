import ColumnFlow.Lineage.Query

/-!
# Where the columns of set operations come from

A query is a first block and later ones, each behind the operation in front of it. When all blocks project the
same number of columns and every star is expanded, the names of the result are those of the first block, and a
column reads what the columns at its position read in the first block and in the later ones up to the first
`EXCEPT`, in the order of the blocks.

The operations are nested to the right, so a block that stands behind an `EXCEPT` is lost with it, also where it
is added by a `UNION` of its own. Without such a block nothing that contributes is lost.
-/

namespace ColumnFlow

namespace SelectBody

/-- The blocks behind the first one, each with the operation in front of it. -/
def later : SelectBody → List (SetOp × SelectCore)
  | .single .. => []
  | .chain _ _ op _ rest => (op, rest.head) :: rest.later

/-- All query blocks in the order they are written. -/
def blocks (body : SelectBody) : List SelectCore := body.head :: body.later.map (·.2)

/-- The later blocks in front of the first `EXCEPT`. -/
def beforeExcept (body : SelectBody) : List (SetOp × SelectCore) := body.later.takeWhile (·.1 != .except)

/-- The later blocks from the first `EXCEPT` on. -/
def fromExcept (body : SelectBody) : List (SetOp × SelectCore) := body.later.dropWhile (·.1 != .except)

theorem beforeExcept_except (span : Text.Span) (core : SelectCore) (all : Bool) (rest : SelectBody) :
    (chain span core .except all rest).beforeExcept = [] := rfl

theorem beforeExcept_chain (span : Text.Span) (core : SelectCore) {op : SetOp} (all : Bool) (rest : SelectBody)
    (contributes : op ≠ .except) :
    (chain span core op all rest).beforeExcept = (op, rest.head) :: rest.beforeExcept := by
  simp [beforeExcept, later, contributes]

end SelectBody

namespace Column

/-- What the column at a position reads, nothing if there is none. -/
def sourcesAt (cs : List Column) (i : Nat) : List SourceColumn := (cs[i]?.map (·.sources)).getD []

/-- Every star is expanded. -/
def Expanded (cs : List Column) : Prop := ∀ c ∈ cs, c.isWildcard = false

instance (cs : List Column) : Decidable (Expanded cs) := inferInstanceAs (Decidable (∀ c ∈ cs, _))

theorem reads_of_expanded {c : Column} (expanded : c.isWildcard = false) : ∃ sources, c.value = .reads sources := by
  unfold isWildcard at expanded
  cases value : c.value with
  | reads sources => exact ⟨sources, rfl⟩
  | wildcard qualifier => simp [value] at expanded

@[simp] theorem merge_name (tag : String) (c d : Column) : (merge tag c d).name = c.name := by
  unfold merge
  split <;> rfl

theorem merge_sources {tag : String} {c d : Column} (left : c.isWildcard = false) (right : d.isWildcard = false) :
    (merge tag c d).sources = c.sources ++ d.sources := by
  obtain ⟨l, readsLeft⟩ := reads_of_expanded left
  obtain ⟨r, readsRight⟩ := reads_of_expanded right
  simp [merge, sources, readsLeft, readsRight]

theorem merge_isWildcard {tag : String} {c d : Column} (left : c.isWildcard = false) :
    (merge tag c d).isWildcard = false := by
  unfold merge
  split
  · rfl
  · exact left

/-- Merging two branches keeps the names of the left one. -/
theorem mergeAll_names (tag : String) (cs ds : List Column) : (mergeAll tag cs ds).map (·.name) = cs.map (·.name) := by
  induction cs, ds using mergeAll.induct with
  | case1 => rfl
  | case2 => simp [mergeAll]
  | case3 c cs d ds ih => simp [mergeAll, ih]

theorem Expanded.mergeAll {tag : String} {cs : List Column} (left : Expanded cs) (ds : List Column) :
    Expanded (mergeAll tag cs ds) := by
  induction cs, ds using mergeAll.induct with
  | case1 => exact left
  | case2 => simpa [Column.mergeAll] using left
  | case3 c cs d ds ih =>
    simp only [Expanded, Column.mergeAll, List.forall_mem_cons] at left ih ⊢
    exact ⟨merge_isWildcard left.1, ih left.2⟩

/-- Merging two branches of the same width joins what they read at each position. -/
theorem mergeAll_sourcesAt {tag : String} {cs ds : List Column} (left : Expanded cs) (right : Expanded ds)
    (even : ds.length = cs.length) (i : Nat) :
    sourcesAt (mergeAll tag cs ds) i = sourcesAt cs i ++ sourcesAt ds i := by
  induction cs, ds using mergeAll.induct generalizing i with
  | case1 ds =>
    cases List.eq_nil_of_length_eq_zero even
    rfl
  | case2 cs nonempty => exact absurd (List.eq_nil_of_length_eq_zero even.symm) nonempty
  | case3 c cs d ds ih =>
    simp only [Expanded, List.forall_mem_cons] at left right
    cases i with
    | zero => simp [sourcesAt, Column.mergeAll, merge_sources left.1 right.1]
    | succ i =>
      have later := ih left.2 right.2 (Nat.succ.inj even) i
      simpa [sourcesAt, Column.mergeAll] using later

end Column

open Column (sourcesAt Expanded)

section

variable (env : Env) (s : Scope)

/-- The columns of one query block. -/
def blockColumns (core : SelectCore) : List Column := (coreColumns env core s).value

theorem bodyColumns_single (span : Text.Span) (core : SelectCore) :
    (bodyColumns env (.single span core) s).value = blockColumns env s core := by
  rw [bodyColumns]
  rfl

theorem bodyColumns_chain (span : Text.Span) (core : SelectCore) (op : SetOp) (all : Bool) (rest : SelectBody) :
    (bodyColumns env (.chain span core op all rest) s).value =
      if op == .except then blockColumns env s core
      else Column.mergeAll (op.tag all) (blockColumns env s core) (bodyColumns env rest s).value := by
  rw [bodyColumns]
  rfl

theorem queryColumns_value (q : Query) :
    (queryColumns env q s).value = (bodyColumns env q.body (defineCommon? env q.ctes s).value).value := by
  obtain ⟨span, ctes, body, orderBy, offset, fetch, forMode⟩ := q
  rw [queryColumns]
  rfl

/-- All blocks of a body project as many columns as the first one, and none leaves a star. -/
structure SelectBody.Even (body : SelectBody) : Prop where
  width : ∀ core ∈ body.blocks, (blockColumns env s core).length = (blockColumns env s body.head).length
  expanded : ∀ core ∈ body.blocks, Expanded (blockColumns env s core)

variable {env s}

theorem SelectBody.Even.rest {span : Text.Span} {core : SelectCore} {op : SetOp} {all : Bool} {rest : SelectBody}
    (even : (chain span core op all rest).Even env s) : rest.Even env s where
  width := by
    intro other member
    have first := even.width rest.head (.tail _ List.mem_cons_self)
    exact (even.width other (.tail _ member)).trans first.symm
  expanded other member := even.expanded other (.tail _ member)

variable (env s) in
/-- The result of a body has the names of its first block. -/
theorem bodyColumns_names (body : SelectBody) :
    (bodyColumns env body s).value.map (·.name) = (blockColumns env s body.head).map (·.name) := by
  cases body with
  | single span core => rw [bodyColumns_single, SelectBody.head]
  | chain span core op all rest =>
    rw [bodyColumns_chain, SelectBody.head]
    split
    · rfl
    · exact Column.mergeAll_names _ _ _

theorem bodyColumns_expanded {body : SelectBody} (even : body.Even env s) :
    Expanded (bodyColumns env body s).value := by
  have first := even.expanded body.head List.mem_cons_self
  cases body with
  | single span core => rwa [bodyColumns_single]
  | chain span core op all rest =>
    rw [bodyColumns_chain]
    split
    · exact first
    · exact first.mergeAll _

/-- The result of a body reads what its first block reads, and what the later blocks up to the first `EXCEPT`
do. -/
theorem bodyColumns_sourcesAt {body : SelectBody} (even : body.Even env s) (i : Nat) :
    sourcesAt (bodyColumns env body s).value i =
      sourcesAt (blockColumns env s body.head) i ++
        body.beforeExcept.flatMap fun block => sourcesAt (blockColumns env s block.2) i := by
  -- The recursion is that of the nesting: what stands behind an operation is a body of its own.
  induction body using SelectBody.later.induct with
  | case1 span core =>
    rw [bodyColumns_single]
    simp [SelectBody.head, SelectBody.beforeExcept, SelectBody.later]
  | case2 span core op all rest ih =>
    rw [bodyColumns_chain, SelectBody.head]
    split
    · rename_i isExcept
      rw [eq_of_beq isExcept, SelectBody.beforeExcept_except, List.flatMap_nil, List.append_nil]
    · rename_i contributes
      have width : (bodyColumns env rest s).value.length = (blockColumns env s core).length := by
        have names := congrArg List.length (bodyColumns_names env s rest)
        rw [List.length_map, List.length_map] at names
        exact names.trans (even.width rest.head (.tail _ List.mem_cons_self))
      rw [Column.mergeAll_sourcesAt (even.expanded core List.mem_cons_self) (bodyColumns_expanded even.rest) width,
        ih even.rest, SelectBody.beforeExcept_chain _ _ _ _ (by simpa using contributes), List.flatMap_cons]

end

/-- When all blocks of a query project the same number of columns and leave no star, the result has the names of
the first block, and every column reads exactly what the columns at its position read in the first block and in
the later ones up to the first `EXCEPT`. So if only `EXCEPT` stands behind an `EXCEPT`, no block that contributes
is lost. -/
theorem queryColumns_setOperations (env : Env) (q : Query) (outer : Scope)
    (even : q.body.Even env (defineCommon? env q.ctes outer).value) :
    let columns := blockColumns env (defineCommon? env q.ctes outer).value
    let result := (queryColumns env q outer).value
    result.map (·.name) = (columns q.body.head).map (·.name) ∧
      (∀ i, sourcesAt result i =
        sourcesAt (columns q.body.head) i ++
          q.body.beforeExcept.flatMap fun block => sourcesAt (columns block.2) i) ∧
      ((∀ block ∈ q.body.fromExcept, block.1 = .except) → ∀ i,
        sourcesAt (columns q.body.head) i ⊆ sourcesAt result i ∧
          ∀ block ∈ q.body.later, block.1 ≠ .except → sourcesAt (columns block.2) i ⊆ sourcesAt result i) := by
  intro columns result
  have same : result = (bodyColumns env q.body (defineCommon? env q.ctes outer).value).value :=
    queryColumns_value env outer q
  have reads (i : Nat) := same ▸ bodyColumns_sourcesAt even i
  refine ⟨same ▸ bodyColumns_names _ _ q.body, reads, fun onlyExcept i => ?_⟩
  rw [reads i]
  refine ⟨List.subset_append_left _ _, fun block member contributes => ?_⟩
  have split : block ∈ q.body.beforeExcept ++ q.body.fromExcept := by
    rwa [SelectBody.beforeExcept, SelectBody.fromExcept, List.takeWhile_append_dropWhile]
  have before : block ∈ q.body.beforeExcept :=
    (List.mem_append.1 split).resolve_right fun behind => contributes (onlyExcept block behind)
  exact fun c found => List.mem_append_right _ (List.mem_flatMap.2 ⟨block, before, found⟩)

/-- `SELECT a FROM t EXCEPT SELECT b FROM u UNION SELECT c FROM v`: the `EXCEPT` takes the block behind it along,
and `c` is lost. -/
theorem queryColumns_setOperations_except :
    let env := ({ defaultSchema := "dbo", resolve := fun _ _ => none } : Env)
    let block (column table : String) : SelectCore :=
      ⟨.unset, false, none, [.value .unset (.column { column }) ""], none,
        some ⟨.unset, .named .unset { name := table } "" [], []⟩, none, [], none⟩
    let body := SelectBody.chain .unset (block "a" "t") .except false
      (.chain .unset (block "b" "u") .union false (.single .unset (block "c" "v")))
    let q : Query := ⟨.unset, none, body, [], none, none, ""⟩
    let result := (queryColumns env q {}).value
    body.Even env {} ∧ result.map (·.name) = ["a"] ∧ (sourcesAt result 0).map (·.qualifiedName) = ["dbo.t.a"] ∧
      (sourcesAt (blockColumns env {} (block "c" "v")) 0).map (·.qualifiedName) = ["dbo.v.c"] := by
  intro env block body q result
  have even : body.Even env {} := ⟨by decide +kernel, by decide +kernel⟩
  obtain ⟨names, reads, -⟩ := queryColumns_setOperations env q {} even
  refine ⟨even, names.trans (by decide +kernel), ?_, by decide +kernel⟩
  rw [reads 0]
  decide +kernel

end ColumnFlow
