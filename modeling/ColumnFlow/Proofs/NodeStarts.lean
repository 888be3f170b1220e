import ColumnFlow.Proofs.SpanNesting
import ColumnFlow.Proofs.TableNames

/-!
# Where nodes start

The outline of a script has fewer nodes than the script has spans, and in part another order. But every node of it has
a span of the script for its own, so that it starts where a token starts.
-/

namespace ColumnFlow

namespace Outline

/-- If the spans are proper ones, every node starts with a token of the text. -/
def Anchored (source : String) (trees : List SpanTree) (outlines : List Outline) : Prop :=
  (∀ p ∈ trees, p.Nested source) → ∀ node ∈ nodes outlines, StartsToken source node.span.start

namespace Anchored

variable {source : String} {t u : List SpanTree} {a b : List Outline}

theorem nil : Anchored source t [] := fun _ node mem => by simp at mem

/-- There may be more spans than those of the nodes. -/
theorem mono (h : Anchored source t a) (sub : t ⊆ u) : Anchored source u a := fun proper => h fun p mem => proper p (sub mem)

theorem both (first : Anchored source t a) (second : Anchored source t b) : Anchored source t (a ++ b) := by
  intro proper node mem
  rw [nodes_append] at mem
  exact (List.mem_append.mp mem).elim (first proper node) (second proper node)

theorem left (h : Anchored source t a) : Anchored source (t ++ u) a := h.mono (List.subset_append_left t u)

theorem right (h : Anchored source u a) : Anchored source (t ++ u) a := h.mono (List.subset_append_right t u)

theorem append (first : Anchored source t a) (second : Anchored source u b) : Anchored source (t ++ u) (a ++ b) :=
  first.left.both second.right

/-- A span without a node. -/
theorem inside {span : Text.Span} (h : Anchored source t a) : Anchored source [.node span t] a := fun proper =>
  h fun p mem => ((proper _ List.mem_cons_self).inside p mem).1

/-- A node with the span of the first tree. -/
theorem root {first : SpanTree} {root : Node} (same : root.span = first.span)
    (inside : Anchored source (first :: t) a) : Anchored source (first :: t) [.node root a] := by
  intro proper node mem
  rw [nodes_node] at mem
  obtain rfl | mem := List.mem_cons.mp mem
  · exact same ▸ (proper first List.mem_cons_self).located.start
  · exact inside proper node mem

theorem rooted {span : Text.Span} {node : Node} (same : node.span = span) (h : Anchored source t a) :
    Anchored source [.node span t] [.node node a] := root same h.inside

theorem flatMap {α : Type} {trees : α → List SpanTree} {of : α → List Outline} {items : List α}
    (each : ∀ item, Anchored source (trees item) (of item)) :
    Anchored source (items.flatMap trees) (items.flatMap of) := by
  induction items with
  | nil => exact nil
  | cons item rest ih => exact (each item).append ih

theorem named (name : Option ObjectName) :
    Anchored source (name.toList.flatMap SpanTree.ofName) (Outline.names name) := by
  cases name with
  | none => exact nil
  | some name => exact rooted rfl nil

/-! ### Queries -/

mutual

/-- By induction on the tree; the nodes of both views are visited in one order. -/
theorem onExpr (e : Expr) : Anchored source (SpanTree.ofExpr e) (ofExpr e) := by
  match e with
  | .missing => exact nil
  | .column _ | .literal .. | .localVar .. | .star .. => exact rooted rfl nil
  | .binary _ left _ right | .nullIf _ left right => exact rooted rfl ((onExpr left).append (onExpr right))
  | .unary _ _ operand | .cast _ operand _ _ | .isNull _ operand _ | .collate _ operand _ | .paren _ operand =>
    exact rooted rfl (onExpr operand)
  | .call fn => exact onCall fn
  | .case _ operand whens otherwise =>
    exact rooted rfl (((onExpr? operand).append (onWhens whens)).append (onExpr? otherwise))
  | .convert _ _ operand style _ => exact rooted rfl ((onExpr operand).append (onExpr? style))
  | .coalesce _ args => exact rooted rfl (onExprs args)
  | .iif _ first second third | .between _ first _ second third =>
    exact rooted rfl (((onExpr first).append (onExpr second)).append (onExpr third))
  | .inList _ operand _ values => exact rooted rfl ((onExpr operand).append (onExprs values))
  | .inQuery _ operand _ query => exact rooted rfl ((onExpr operand).append (onQuery query))
  | .like _ operand _ pattern escape =>
    exact rooted rfl (((onExpr operand).append (onExpr pattern)).append (onExpr? escape))
  | .subquery _ query | .exists _ query => exact rooted rfl (onQuery query)

theorem onExpr? (e : Option Expr) : Anchored source (SpanTree.ofExpr? e) (ofExpr? e) := by
  match e with
  | none => exact nil
  | some e => exact onExpr e

theorem onExprs (es : List Expr) : Anchored source (SpanTree.ofExprs es) (ofExprs es) := by
  match es with
  | [] => exact nil
  | e :: rest => exact (onExpr e).append (onExprs rest)

theorem onRows (rows : List (List Expr)) : Anchored source (SpanTree.ofRows rows) (ofRows rows) := by
  match rows with
  | [] => exact nil
  | row :: rest => exact (onExprs row).append (onRows rest)

theorem onCall (fn : FuncCall) : Anchored source (SpanTree.ofCall fn) (ofCall fn) := by
  match fn with
  | ⟨_, _, _, _, args, _, withinGroup, window⟩ =>
    exact rooted rfl (((onExprs args).append (onOrder withinGroup)).append (onWindow? window))

theorem onWindow? (window : Option WindowSpec) : Anchored source (SpanTree.ofWindow? window) (ofWindow? window) := by
  match window with
  | none => exact nil
  | some ⟨partitionBy, orderBy⟩ => exact (onExprs partitionBy).append (onOrder orderBy)

theorem onOrder (items : List OrderItem) : Anchored source (SpanTree.ofOrder items) (ofOrder items) := by
  match items with
  | [] => exact nil
  | ⟨e, _⟩ :: rest => exact (onExpr e).append (onOrder rest)

theorem onWhens (whens : List WhenClause) : Anchored source (SpanTree.ofWhens whens) (ofWhens whens) := by
  match whens with
  | [] => exact nil
  | ⟨condition, result⟩ :: rest => exact ((onExpr condition).append (onExpr result)).append (onWhens rest)

theorem onQuery (query : Query) : Anchored source (SpanTree.ofQuery query) (ofQuery query) := by
  match query with
  | ⟨_, ctes, body, orderBy, offset, fetch, _⟩ =>
    exact rooted rfl (((((onWith? ctes).append (onBody body)).append (onOrder orderBy)).append
      (onExpr? offset)).append (onExpr? fetch))

theorem onWith? (clause : Option WithClause) : Anchored source (SpanTree.ofWith? clause) (ofWith? clause) := by
  match clause with
  | none => exact nil
  | some clause => exact onWith clause

theorem onWith (clause : WithClause) : Anchored source (SpanTree.ofWith clause) (ofWith clause) := by
  match clause with
  | ⟨_, tables⟩ => exact rooted rfl (onCommonTables tables)

theorem onCommonTables (tables : List CommonTable) :
    Anchored source (SpanTree.ofCommonTables tables) (ofCommonTables tables) := by
  match tables with
  | [] => exact nil
  | table :: rest => exact (onCommonTable table).append (onCommonTables rest)

theorem onCommonTable (table : CommonTable) : Anchored source (SpanTree.ofCommonTable table) (ofCommonTable table) := by
  match table with
  | ⟨_, _, _, query⟩ => exact rooted rfl (onQuery query)

theorem onBody (body : SelectBody) : Anchored source (SpanTree.ofBlocks body) (ofBody body) := by
  match body with
  | .single _ core => exact rooted rfl (onCore core)
  | .chain span core _ _ rest =>
    have first : Anchored source [.link span (SpanTree.ofCore core) (SpanTree.ofBody rest)] (ofCore core) :=
      fun proper => onCore core fun p mem => ((proper _ List.mem_cons_self).inside p mem).1
    exact root rfl (first.append (onBody rest))

theorem onCore (core : SelectCore) : Anchored source (SpanTree.ofCore core) (ofCore core) := by
  match core with
  | ⟨_, _, top, columns, into, table, filter, groupBy, having⟩ =>
    exact rooted rfl (((((((onTop? top).append (onItems columns)).append (named into)).append
      (onSource? table)).append (onExpr? filter)).append (onExprs groupBy)).append
      (onExpr? having))

theorem onTop? (top : Option TopClause) : Anchored source (SpanTree.ofTop? top) (ofTop? top) := by
  match top with
  | none => exact nil
  | some ⟨count, _, _⟩ => exact onExpr count

theorem onItems (items : List SelectItem) : Anchored source (SpanTree.ofItems items) (ofItems items) := by
  match items with
  | [] => exact nil
  | item :: rest => exact (onItem item).append (onItems rest)

theorem onItem (item : SelectItem) : Anchored source (SpanTree.ofItem item) (ofItem item) := by
  match item with
  | .star _ | .tableStar .. => exact rooted rfl nil
  | .assign _ _ value | .value _ value _ => exact rooted rfl (onExpr value)

theorem onSource? (clause : Option FromClause) : Anchored source (SpanTree.ofSource? clause) (ofSource? clause) := by
  match clause with
  | none => exact nil
  | some clause => exact onSource clause

theorem onSource (clause : FromClause) : Anchored source (SpanTree.ofSource clause) (ofSource clause) := by
  match clause with
  | ⟨_, table, joins⟩ => exact rooted rfl ((onTable table).append (onJoins joins))

theorem onJoins (joins : List Join) : Anchored source (SpanTree.ofJoins joins) (ofJoins joins) := by
  match joins with
  | [] => exact nil
  | join :: rest => exact (onJoin join).append (onJoins rest)

theorem onJoin (join : Join) : Anchored source (SpanTree.ofJoin join) (ofJoin join) := by
  match join with
  | ⟨_, _, right, condition⟩ => exact rooted rfl ((onTable right).append (onExpr? condition))

theorem onTable (table : TableRef) : Anchored source (SpanTree.ofTable table) (ofTable table) := by
  match table with
  | .missing => exact nil
  | .named _ name _ _ => exact rooted rfl (named (some name))
  | .derived _ query _ _ => exact rooted rfl (onQuery query)
  | .values _ rows _ _ => exact rooted rfl (onRows rows)
  | .function _ fn _ _ => exact rooted rfl (onCall fn)
  | .pivot _ fn table _ _ => exact rooted rfl ((onTable table).right.both (onCall fn).left)
  | .remote _ _ args object _ => exact rooted rfl ((onExprs args).append (named object))
  | .joined _ table => exact rooted rfl (onSource table)

end

/-! ### Statements -/

theorem onOutput (clause : Option OutputClause) :
    Anchored source (clause.toList.flatMap SpanTree.ofOutput) (ofOutput? clause) := by
  match clause with
  | none => exact nil
  | some ⟨_, columns, into, _⟩ =>
    rw [Option.toList_some, List.flatMap_singleton]
    exact rooted rfl ((onItems columns).append (named into)).left

theorem onSet (clause : SetClause) : Anchored source (SpanTree.ofSet clause) (ofSet clause) :=
  rooted rfl (onExpr clause.value).right

theorem onExec (exec : ExecStmt) : Anchored source (SpanTree.ofExec exec) (ofExec exec) := by
  obtain ⟨_, _, target, params⟩ := exec
  have args : Anchored source (params.flatMap SpanTree.ofExecParam) (params.flatMap fun p => ofExpr? p.value) :=
    flatMap fun p => (onExpr? p.value).inside
  cases target with
  | procedure name => exact rooted rfl ((named (some name)).append args)
  | localVar name => exact rooted rfl args
  | text sql server => exact rooted rfl (args.right.both (onExpr sql).left)

theorem onMergeWhen (clause : MergeWhen) : Anchored source (SpanTree.ofMergeWhen clause) (ofMergeWhen clause) := by
  have action : Anchored source (SpanTree.ofMergeDo clause.action) (ofMergeDo clause.action) := by
    cases clause.action with
    | update sets => exact flatMap onSet
    | delete | insertDefaults columns => exact nil
    | insert columns values => exact (onExprs values).right
  exact rooted rfl ((onExpr? clause.condition).append action)

theorem onInsertSource (rows : InsertSource) :
    Anchored source (SpanTree.ofInsertSource rows) (ofInsertSource rows) := by
  cases rows with
  | missing | defaults => exact nil
  | values rows => exact onRows rows
  | query query => exact onQuery query
  | exec exec => exact onExec exec

mutual

/-- By the kind of statement, and by induction on those inside it. -/
theorem onStmt (stmt : Stmt) : Anchored source (SpanTree.ofStmt stmt) (ofStmt stmt) := by
  match stmt with
  | .missing => exact nil
  | .select query => exact onQuery query
  | .insert s =>
    exact rooted rfl ((((onWith? s.ctes).left.append (named (some s.target))).left.append
      (onOutput s.output)).append (onInsertSource s.source))
  | .update s =>
    exact rooted rfl ((((((onWith? s.ctes).left.append (named (some s.target))).append
      (flatMap onSet)).append (onOutput s.output)).append (onSource? s.source)).append
      (onExpr? s.filter))
  | .delete s =>
    exact rooted rfl (((((onWith? s.ctes).left.append (named (some s.target))).append
      (onOutput s.output)).append (onSource? s.source)).append (onExpr? s.filter))
  | .merge s =>
    exact rooted rfl ((((((onWith? s.ctes).append (named (some s.target))).append
      (onTable s.source)).append (onExpr s.on)).append (flatMap onMergeWhen)).append
      (onOutput s.output))
  | .exec exec => exact onExec exec
  | .block _ body => exact rooted rfl (onStmts body)
  | .ifElse _ cond yes no => exact rooted rfl (((onExpr cond).append (onStmt yes)).append (onStmt? no))
  | .loop _ cond body => exact rooted rfl ((onExpr cond).append (onStmt body))
  | .tryCatch _ attempt handler => exact rooted rfl ((onStmts attempt).append (onStmts handler))
  | .createProc _ _ _ _ body | .createFunction _ _ body | .createTrigger _ _ _ _ _ body =>
    exact rooted rfl (onStmts body).right
  | .createView _ _ _ _ query => exact rooted rfl (onQuery query).right
  | .declareCursor _ _ query => exact rooted rfl (onQuery query)
  | .declare _ vars => exact rooted rfl (flatMap fun decl => (onExpr? decl.value).left.inside)
  | .return _ value query => exact rooted rfl ((onExpr? value).append (flatMap onQuery))
  | .print _ value => exact rooted rfl (onExpr value)
  | .raise _ _ args => exact rooted rfl (onExprs args)
  | .setVariable _ _ _ value => exact rooted rfl (onExpr? value)
  | .truncate .. | .createTable .. | .drop .. | .transaction .. | .setOption .. | .cursor .. | .control .. | .use ..
  | .other .. => exact rooted rfl nil

theorem onStmt? (stmt : Option Stmt) : Anchored source (SpanTree.ofStmt? stmt) (ofStmt? stmt) := by
  match stmt with
  | none => exact nil
  | some stmt => exact onStmt stmt

theorem onStmts (stmts : List Stmt) : Anchored source (SpanTree.ofStmts stmts) (ofStmts stmts) := by
  match stmts with
  | [] => exact nil
  | stmt :: rest => exact (onStmt stmt).append (onStmts rest)

end

theorem onScript (script : Script) : Anchored source [SpanTree.ofScript script] [script.outline] := by
  have batches : Anchored source (script.batches.flatMap SpanTree.ofBatch) (script.batches.flatMap ([·.outline])) :=
    flatMap fun batch => rooted rfl (onStmts batch.stmts)
  rw [← List.map_eq_flatMap] at batches
  exact rooted rfl batches

end Anchored

end Outline

/-- Every node of a script starts where a token of the text starts. -/
theorem parse_anchored {source : String} {script : Script} (parsed : (parse source).1 = some script) :
    ∀ node ∈ script.nodes fun _ => false, StartsToken source node.span.start := by
  obtain rfl := parse_eq_some parsed
  have nested : (SpanTree.ofScript (parseAll source).1).Nested source := by
    rw [script_upTo source (Nat.le_refl _)]
    exact script_nested (.upTo source _)
  intro node mem
  refine Outline.Anchored.onScript _ (List.forall_mem_singleton.mpr nested) node ?_
  simpa [Script.nodes, Outline.nodes, Outline.visitAll] using mem

end ColumnFlow
