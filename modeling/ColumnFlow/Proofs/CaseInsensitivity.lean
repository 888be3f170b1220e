import ColumnFlow.Proofs.CaselessStatements
import ColumnFlow.Proofs.TableNames
import Mathlib

/-!
# Identifiers are case-insensitive

Two scripts of the same shape that differ in nothing but the case of ASCII letters have the same lineage up to case:
edges, gaps, objects and findings correspond one to one. Edges come from runs that go on in step. Findings come from
walks that meet the same constructs at the same places; what is shown of a construct is cut from the text by byte
offsets, which no change of case moves.
-/

namespace ColumnFlow

open Text (Span)

/-! ### Constructs that are reported -/

/-- What is reported of a node, and where it stands. -/
def Node.mark? (node : Node) : Option ((FindingKind × RiskLevel) × Span) := node.risk?.map (·, node.span)

namespace Outline

/-- What is reported of the nodes of some outlines. -/
def marks (outlines : List Outline) : List ((FindingKind × RiskLevel) × Span) := (nodes outlines).filterMap Node.mark?

theorem marks_node (root : Node) (children : List Outline) :
    marks [.node root children] = root.mark?.toList ++ marks children := by
  cases h : root.mark? <;> simp [marks, h]

/-- Outlines of which the same is reported at the same places. -/
def SameMarks (a b : List Outline) : Prop := marks a = marks b

end Outline

namespace Outline.SameMarks

variable {a a' b b' : List Outline}

theorem append (left : SameMarks a a') (right : SameMarks b b') : SameMarks (a ++ b) (a' ++ b') := by
  simp only [SameMarks, marks, nodes_append, List.filterMap_append] at left right ⊢
  rw [left, right]

theorem node (held : SameMarks a a') {root root' : Node} (roots : root.mark? = root'.mark?) :
    SameMarks [.node root a] [.node root' a'] := by
  rw [SameMarks, marks_node, marks_node, roots, held]

theorem names (name name' : Option ObjectName) : SameMarks (names name) (names name') := by
  cases name <;> cases name' <;> rfl

theorem leaf (name name' : ObjectName) : SameMarks [leaf (.name name)] [Outline.leaf (.name name')] := rfl

mutual

theorem onExpr (e : Expr) : SameMarks (ofExpr e.toCaseless) (ofExpr e) := by
  match e with
  | .missing | .column _ | .literal .. | .localVar .. | .star .. => exact rfl
  | .binary _ left _ right | .nullIf _ left right => exact ((onExpr left).append (onExpr right)).node rfl
  | .unary _ _ operand | .cast _ operand _ _ | .isNull _ operand _ | .collate _ operand _
  | .paren _ operand => exact (onExpr operand).node rfl
  | .call fn => exact onCall fn
  | .case _ operand whens otherwise =>
    exact (((onExpr? operand).append (onWhens whens)).append (onExpr? otherwise)).node rfl
  | .convert _ _ operand style _ => exact ((onExpr operand).append (onExpr? style)).node rfl
  | .coalesce _ args => exact (onExprs args).node rfl
  | .iif _ cond yes no => exact (((onExpr cond).append (onExpr yes)).append (onExpr no)).node rfl
  | .inList _ operand _ values => exact ((onExpr operand).append (onExprs values)).node rfl
  | .inQuery _ operand _ query => exact ((onExpr operand).append (onQuery query)).node rfl
  | .between _ operand _ low high => exact (((onExpr operand).append (onExpr low)).append (onExpr high)).node rfl
  | .like _ operand _ pattern escape =>
    exact (((onExpr operand).append (onExpr pattern)).append (onExpr? escape)).node rfl
  | .subquery _ query | .exists _ query => exact (onQuery query).node rfl

theorem onExpr? (e : Option Expr) : SameMarks (ofExpr? (Expr.toCaseless? e)) (ofExpr? e) := by
  match e with
  | none => exact rfl
  | some e => exact onExpr e

theorem onExprs (es : List Expr) : SameMarks (ofExprs (Expr.toCaselessAll es)) (ofExprs es) := by
  match es with
  | [] => exact rfl
  | e :: rest => exact (onExpr e).append (onExprs rest)

theorem onRows (rows : List (List Expr)) : SameMarks (ofRows (Expr.toCaselessRows rows)) (ofRows rows) := by
  match rows with
  | [] => exact rfl
  | row :: rest => exact (onExprs row).append (onRows rest)

theorem onCall (fn : FuncCall) : SameMarks (ofCall fn.toCaseless) (ofCall fn) := by
  match fn with
  | ⟨_, _, _, _, args, _, withinGroup, window⟩ =>
    exact (((onExprs args).append (onOrder withinGroup)).append (onWindow? window)).node rfl

theorem onWindow? (window : Option WindowSpec) :
    SameMarks (ofWindow? (WindowSpec.toCaseless? window)) (ofWindow? window) := by
  match window with
  | none => exact rfl
  | some ⟨partitionBy, orderBy⟩ => exact (onExprs partitionBy).append (onOrder orderBy)

theorem onOrder (items : List OrderItem) : SameMarks (ofOrder (OrderItem.toCaselessAll items)) (ofOrder items) := by
  match items with
  | [] => exact rfl
  | ⟨e, _⟩ :: rest => exact (onExpr e).append (onOrder rest)

theorem onWhens (whens : List WhenClause) : SameMarks (ofWhens (WhenClause.toCaselessAll whens)) (ofWhens whens) := by
  match whens with
  | [] => exact rfl
  | ⟨condition, result⟩ :: rest => exact ((onExpr condition).append (onExpr result)).append (onWhens rest)

theorem onQuery (query : Query) : SameMarks (ofQuery query.toCaseless) (ofQuery query) := by
  match query with
  | ⟨_, ctes, body, orderBy, offset, fetch, _⟩ =>
    exact (((((onWith? ctes).append (onBody body)).append (onOrder orderBy)).append
      (onExpr? offset)).append (onExpr? fetch)).node rfl

theorem onWith? (clause : Option WithClause) :
    SameMarks (ofWith? (WithClause.toCaseless? clause)) (ofWith? clause) := by
  match clause with
  | none => exact rfl
  | some ⟨_, tables⟩ => exact (onCommonTables tables).node rfl

theorem onCommonTables (tables : List CommonTable) :
    SameMarks (ofCommonTables (CommonTable.toCaselessAll tables)) (ofCommonTables tables) := by
  match tables with
  | [] => exact rfl
  | ⟨_, _, _, query⟩ :: rest => exact ((onQuery query).node rfl).append (onCommonTables rest)

theorem onBody (body : SelectBody) : SameMarks (ofBody body.toCaseless) (ofBody body) := by
  match body with
  | .single _ core => exact (onCore core).node rfl
  | .chain _ core _ _ rest => exact ((onCore core).append (onBody rest)).node rfl

theorem onCore (core : SelectCore) : SameMarks (ofCore core.toCaseless) (ofCore core) := by
  match core with
  | ⟨_, _, top, columns, into, source, filter, groupBy, having⟩ =>
    exact (((((((onTop? top).append (onItems columns)).append (.names _ into)).append
      (onSource? source)).append (onExpr? filter)).append (onExprs groupBy)).append
      (onExpr? having)).node rfl

theorem onTop? (top : Option TopClause) : SameMarks (ofTop? (TopClause.toCaseless? top)) (ofTop? top) := by
  match top with
  | none => exact rfl
  | some ⟨count, _, _⟩ => exact onExpr count

theorem onItems (items : List SelectItem) : SameMarks (ofItems (SelectItem.toCaselessAll items)) (ofItems items) := by
  match items with
  | [] => exact rfl
  | item :: rest => exact (onItem item).append (onItems rest)

theorem onItem (item : SelectItem) : SameMarks (ofItem item.toCaseless) (ofItem item) := by
  match item with
  | .star _ | .tableStar _ _ => exact rfl
  | .assign _ _ value | .value _ value _ => exact (onExpr value).node rfl

theorem onSource? (clause : Option FromClause) :
    SameMarks (ofSource? (FromClause.toCaseless? clause)) (ofSource? clause) := by
  match clause with
  | none => exact rfl
  | some clause => exact onSource clause

theorem onSource (clause : FromClause) : SameMarks (ofSource clause.toCaseless) (ofSource clause) := by
  match clause with
  | ⟨_, source, joins⟩ => exact ((onTable source).append (onJoins joins)).node rfl

theorem onJoins (joins : List Join) : SameMarks (ofJoins (Join.toCaselessAll joins)) (ofJoins joins) := by
  match joins with
  | [] => exact rfl
  | ⟨_, _, right, condition⟩ :: rest =>
    exact (((onTable right).append (onExpr? condition)).node rfl).append (onJoins rest)

theorem onTable (table : TableRef) : SameMarks (ofTable table.toCaseless) (ofTable table) := by
  match table with
  | .missing | .named .. => exact rfl
  | .derived _ query _ _ => exact (onQuery query).node rfl
  | .values _ rows _ _ => exact (onRows rows).node rfl
  | .function _ fn _ _ => exact (onCall fn).node rfl
  | .pivot _ fn source _ _ => exact ((onTable source).append (onCall fn)).node rfl
  | .remote _ _ args object _ => exact ((onExprs args).append (.names _ object)).node rfl
  | .joined _ source => exact (onSource source).node rfl

end

end Outline.SameMarks

/-! ### Statements -/

theorem dynamicProcedure?_caseless (name : String) : dynamicProcedure? (caseless name) = dynamicProcedure? name := by
  unfold dynamicProcedure?
  rw [caseless_string, Text.lower_toLower]

theorem ExecParam.isSuspicious_toCaseless (param : ExecParam) : param.toCaseless.isSuspicious = param.isSuspicious := by
  obtain ⟨_, _, value, _⟩ := param
  match value with
  | some (.localVar _ name) =>
    change ColumnFlow.isSuspicious (caseless name) = ColumnFlow.isSuspicious name
    unfold ColumnFlow.isSuspicious
    rw [caseless_string, Text.lower_toLower]
  | none | some .missing | some (.column _) | some (.literal ..) | some (.star ..) | some (.binary ..)
  | some (.nullIf ..) | some (.unary ..) | some (.cast ..) | some (.isNull ..) | some (.collate ..)
  | some (.paren ..) | some (.call _) | some (.case ..) | some (.convert ..) | some (.coalesce ..)
  | some (.iif ..) | some (.inList ..) | some (.inQuery ..) | some (.between ..) | some (.like ..)
  | some (.subquery ..) | some (.exists ..) => rfl

/-- The risk depends on what is run, on whether a server is named, and on names that are compared without case. -/
theorem ExecStmt.risk?_toCaseless (exec : ExecStmt) : exec.toCaseless.risk? = exec.risk? := by
  obtain ⟨_, _, target, params⟩ := exec
  cases target with
  | localVar name => rfl
  | text sql server =>
    change (if caseless server != "" then _ else _) = if server != "" then _ else _
    rw [bne_empty_caseless]
  | procedure name =>
    have suspicious : (params.map ExecParam.toCaseless).any (·.isSuspicious) = params.any (·.isSuspicious) := by
      rw [List.any_map]
      exact congrArg params.any (funext ExecParam.isSuspicious_toCaseless)
    have procedure : dynamicProcedure? (caseless name).name = dynamicProcedure? name.name :=
      dynamicProcedure?_caseless name.name
    dsimp only [ExecStmt.risk?, ExecStmt.toCaseless, ExecTarget.toCaseless]
    rw [procedure, suspicious]

theorem ExecStmt.isStatic_toCaseless (exec : ExecStmt) : exec.toCaseless.isStatic = exec.isStatic := by
  obtain ⟨_, _, target, _⟩ := exec
  cases target with
  | localVar name | text sql server => rfl
  | procedure name =>
    change (dynamicProcedure? (caseless name.name)).isNone = (dynamicProcedure? name.name).isNone
    rw [dynamicProcedure?_caseless]

theorem InsertStmt.mark?_toCaseless (s : InsertStmt) :
    (Node.stmt (.insert s.toCaseless)).mark? = (Node.stmt (.insert s)).mark? := by
  obtain ⟨span, _, _, _, _, _, source⟩ := s
  cases source with
  | exec exec =>
    change (if exec.toCaseless.isStatic then some _ else none).map (·, span) = _
    rw [exec.isStatic_toCaseless]
    rfl
  | _ => rfl

namespace Outline.SameMarks

theorem flatMap {α : Type} {f g : α → List Outline} (items : List α)
    (each : ∀ item, SameMarks (f item) (g item)) : SameMarks (items.flatMap f) (items.flatMap g) := by
  induction items with
  | nil => rfl
  | cons item rest ih =>
    rw [List.flatMap_cons, List.flatMap_cons]
    exact (each item).append ih

theorem onExec (exec : ExecStmt) : SameMarks (ofExec exec.toCaseless) (ofExec exec) := by
  have mark : (Node.stmt (.exec exec.toCaseless)).mark? = (Node.stmt (.exec exec)).mark? :=
    congrArg (Option.map (·, exec.span)) exec.risk?_toCaseless
  have args : SameMarks ((exec.params.map ExecParam.toCaseless).flatMap fun param => ofExpr? param.value)
      (exec.params.flatMap fun param => ofExpr? param.value) := by
    rw [List.flatMap_map]
    exact .flatMap _ fun param => onExpr? param.value
  obtain ⟨_, _, target, _⟩ := exec
  cases target with
  | procedure name => exact ((SameMarks.leaf (caseless name) name).append args).node mark
  | localVar name => exact args.node mark
  | text sql server => exact (args.append (onExpr sql)).node mark

theorem onOutput? (clause : Option OutputClause) :
    SameMarks (ofOutput? (clause.map OutputClause.toCaseless)) (ofOutput? clause) := by
  match clause with
  | none => exact rfl
  | some clause => exact ((onItems clause.columns).append (.names _ clause.into)).node rfl

theorem onSets (sets : List SetClause) :
    SameMarks ((sets.map SetClause.toCaseless).flatMap ofSet) (sets.flatMap ofSet) := by
  rw [List.flatMap_map]
  exact .flatMap sets fun set => (onExpr set.value).node rfl

theorem onMergeWhens (whens : List MergeWhen) :
    SameMarks ((whens.map MergeWhen.toCaseless).flatMap ofMergeWhen) (whens.flatMap ofMergeWhen) := by
  rw [List.flatMap_map]
  refine .flatMap whens fun w => ((onExpr? w.condition).append ?_).node rfl
  obtain ⟨_, _, _, action⟩ := w
  cases action with
  | update sets => exact onSets sets
  | insert _ values => exact onExprs values
  | delete | insertDefaults _ => exact rfl

theorem onInsertSource (source : InsertSource) :
    SameMarks (ofInsertSource source.toCaseless) (ofInsertSource source) := by
  cases source with
  | values rows => exact onRows rows
  | query query => exact onQuery query
  | exec exec => exact onExec exec
  | missing | defaults => exact rfl

/-- The walk of one statement, those inside it apart. -/
theorem ownOutline (stmt : Stmt) : SameMarks stmt.toCaseless.ownOutline stmt.ownOutline := by
  match stmt with
  | .select query => exact onQuery query
  | .insert s =>
    exact ((((onWith? s.ctes).append (.leaf _ s.target)).append (onOutput? s.output)).append
      (onInsertSource s.source)).node s.mark?_toCaseless
  | .update s =>
    exact ((((((onWith? s.ctes).append (.leaf _ s.target)).append (onSets s.sets)).append
      (onOutput? s.output)).append (onSource? s.source)).append
      (onExpr? s.filter)).node rfl
  | .delete s =>
    exact (((((onWith? s.ctes).append (.leaf _ s.target)).append (onOutput? s.output)).append
      (onSource? s.source)).append (onExpr? s.filter)).node rfl
  | .merge s =>
    exact ((((((onWith? s.ctes).append (.leaf _ s.target)).append (onTable s.source)).append
      (onExpr s.on)).append (onMergeWhens s.whens)).append
      (onOutput? s.output)).node rfl
  | .exec exec => exact onExec exec
  | .ifElse _ cond _ _ | .loop _ cond _ => exact onExpr cond
  | .createView _ _ _ _ query | .declareCursor _ _ query => exact (onQuery query).node rfl
  | .declare _ vars =>
    have values : SameMarks ((vars.map VarDecl.toCaseless).flatMap fun decl => ofExpr? decl.value)
        (vars.flatMap fun decl => ofExpr? decl.value) := by
      rw [List.flatMap_map]
      exact .flatMap vars fun decl => onExpr? decl.value
    exact values.node rfl
  | .return _ value query =>
    have queries : SameMarks ((query.map Query.toCaseless).toList.flatMap ofQuery) (query.toList.flatMap ofQuery) := by
      cases query with
      | none => exact rfl
      | some query => exact (onQuery query).append rfl
    exact ((onExpr? value).append queries).node rfl
  | .print _ value => exact (onExpr value).node rfl
  | .raise _ _ args => exact (onExprs args).node rfl
  | .setVariable _ _ _ value => exact (onExpr? value).node rfl
  | .missing | .block .. | .tryCatch .. | .createProc .. | .createFunction .. | .createTrigger .. | .truncate ..
  | .createTable .. | .drop .. | .transaction .. | .setOption .. | .cursor .. | .control .. | .use ..
  | .other .. => exact rfl

end Outline.SameMarks

/-! ### Findings -/

instance : Caseless Finding where
  caseless f := { f with pattern := caseless f.pattern }
  caseless_caseless _ := by simp

theorem shortened_caseless (text : String) : shortened (caseless text) = caseless (shortened text) := by
  have blank : " ".toLower = " " := by decide +kernel
  have dots : "...".toLower = "..." := by decide +kernel
  have line : " ".intercalate (Text.words (caseless text)) = caseless (" ".intercalate (Text.words text)) := by
    rw [caseless_string, caseless_string, Text.words_toLower, Text.toLower_intercalate, blank]
  have length (s : String) : (caseless s).length = s.length := by
    rw [← String.length_toList, ← String.length_toList, caseless_string, Text.toList_toLower, List.length_map]
  have cut (s : String) : String.ofList ((caseless s).toList.take maxPattern) ++ "..." =
      caseless (String.ofList (s.toList.take maxPattern) ++ "...") := by
    rw [caseless_string, caseless_string, Text.toList_toLower, Text.toLower_append, Text.toLower_ofList,
      List.map_take, dots]
  rw [shortened, shortened, line, length, cut, apply_ite caseless]

/-- The finding of a mark in a statement with the given number. -/
def Finding.ofMark (source : String) (number : Nat) : (FindingKind × RiskLevel) × Span → Finding
  | ((kind, risk), span) =>
    { kind, risk, pattern := shortened (span.text source), line := span.start.line, column := span.start.column
      statement := number }

theorem Stmt.findings_eq_marks (source : String) (stmt : Stmt) (number : Nat) :
    stmt.findings source number = (Outline.marks stmt.ownOutline).map (Finding.ofMark source number) := by
  rw [Stmt.findings, Outline.marks, List.map_filterMap]
  refine List.filterMap_congr fun node _ => ?_
  rw [Node.mark?, Option.map_map]
  rfl

/-- The marks are the same node for node, and the snippets differ by case alone. -/
theorem Stmt.findings_toCaseless (source : String) (stmt : Stmt) (number : Nat) :
    stmt.toCaseless.findings (caseless source) number = caseless (stmt.findings source number) := by
  have each (mark : (FindingKind × RiskLevel) × Span) :
      Finding.ofMark (caseless source) number mark = caseless (Finding.ofMark source number mark) := by
    obtain ⟨⟨kind, risk⟩, span⟩ := mark
    have pattern : shortened (span.text (caseless source)) = caseless (shortened (span.text source)) := by
      rw [← shortened_caseless]
      exact congrArg shortened (Text.span_text_toLower span source)
    dsimp only [Finding.ofMark, caseless]
    rw [← caseless_string, pattern, caseless_string]
  have marks : Outline.marks stmt.toCaseless.ownOutline = Outline.marks stmt.ownOutline :=
    Outline.SameMarks.ownOutline stmt
  rw [Stmt.findings_eq_marks, Stmt.findings_eq_marks, marks]
  change _ = (List.map _ _).map caseless
  rw [List.map_map]
  exact List.map_congr_left fun mark _ => each mark

theorem Script.sites_toCaseless (script : Script) : script.toCaseless.sites = script.sites.map Site.toCaseless := by
  change (script.batches.map Batch.toCaseless).flatMap Batch.sites = (script.batches.flatMap Batch.sites).map _
  rw [List.flatMap_map, List.map_flatMap]
  exact List.flatMap_congr fun batch _ => Site.ofStmts_toCaseless none batch.stmts

theorem Script.findings_toCaseless (script : Script) : script.toCaseless.findings = caseless script.findings := by
  have found : (script.toCaseless.sites.zipIdx.flatMap fun pair =>
      pair.1.stmt.findings script.toCaseless.source pair.2) =
      caseless (script.sites.zipIdx.flatMap fun pair => pair.1.stmt.findings script.source pair.2) := by
    change _ = (List.flatMap _ _).map caseless
    rw [script.sites_toCaseless, List.zipIdx_map, List.flatMap_map, List.map_flatMap]
    exact List.flatMap_congr fun pair _ => pair.1.stmt.findings_toCaseless script.source pair.2
  -- No place changes, so neither does the order of the findings.
  have sorted (findings : List Finding) : (findings.mergeSort Finding.isBefore).map caseless =
      (findings.map caseless).mergeSort Finding.isBefore :=
    List.map_mergeSort fun _ _ _ _ => rfl
  change (List.flatMap _ _).mergeSort Finding.isBefore = ((List.flatMap _ _).mergeSort Finding.isBefore).map caseless
  rw [sorted]
  exact congrArg (List.mergeSort · Finding.isBefore) found

/-! ### Lineage -/

/-- What is chosen from each event, whatever its case, is chosen from all of them. -/
theorem filterMap_alike {α : Type} [Caseless α] {f : Event → Option α}
    (commutes : ∀ event, caseless (f event) = f (caseless event)) {events events' : List Event}
    (same : Alike events events') : Alike (events.filterMap f) (events'.filterMap f) := by
  have moved (events : List Event) : caseless (events.filterMap f) = (caseless events).filterMap f := by
    change (events.filterMap f).map caseless = (events.map caseless).filterMap f
    rw [List.map_filterMap, List.filterMap_map]
    exact List.filterMap_congr fun event _ => commutes event
  rw [Alike, moved, moved, same]

theorem gaps_alike {events events' : List Event} (same : Alike events events') :
    events.filterMap Event.gap? = events'.filterMap Event.gap? := by
  refine same.apply fun events => ?_
  change _ = (events.map caseless).filterMap Event.gap?
  rw [List.filterMap_map]
  exact List.filterMap_congr fun event _ => by cases event <;> rfl

/-- Identifiers are case-insensitive. Two scripts with one caseless form have the same lineage up to the case of
letters, for any resolver that takes no notice of it: the same edges, gaps, objects and findings in the same order,
each with the same fields. -/
theorem extract_caseInsensitive (a b : Script) (same : a.toCaseless = b.toCaseless) (options : ExtractOptions)
    (insensitive : ∀ s s' t t' : String, s.toLower = s'.toLower → t.toLower = t'.toLower →
      options.resolver s t = options.resolver s' t') (errors errors' : List ParseError) :
    let l := extract (some a) errors options
    let l' := extract (some b) errors' options
    Alike l.edges l'.edges ∧ l.gaps = l'.gaps ∧ Alike l.objects l'.objects ∧ Alike l.findings l'.findings := by
  have envs : options.env.Agrees options.env :=
    { schema := rfl, resolve := fun schemas tables => congrArg caseless (insensitive _ _ _ _ schemas tables)
      tables := rfl, commons := rfl, statement := rfl, owner := rfl }
  have batches : a.batches.map Batch.toCaseless = b.batches.map Batch.toCaseless := congrArg Script.batches same
  have events : Alike (options.env.extractBatches a.batches) (options.env.extractBatches b.batches) := by
    have ofA := envs.extractBatches a.batches
    rw [batches] at ofA
    exact ofA.trans (envs.extractBatches b.batches).symm
  have findings : Alike a.findings b.findings := by
    rw [Alike, ← Script.findings_toCaseless, ← Script.findings_toCaseless, same]
  exact ⟨filterMap_alike (fun event => by cases event <;> rfl) events, gaps_alike events,
    filterMap_alike (fun event => by cases event <;> rfl) events, findings⟩

/-- `SELECT qualifier.column FROM table alias` and a call of a procedure with a variable. -/
def Script.spelled (table aliasName qualifier column procedure variableName : String) : Script :=
  let item : SelectItem := .value .unset (.column { table := qualifier, column }) ""
  let source : FromClause := { span := .unset, source := .named .unset { name := table } aliasName [], joins := [] }
  let core : SelectCore := { SelectCore.missing with columns := [item], source := some source }
  let argument : ExecParam :=
    { span := .unset, name := "", value := some (.localVar .unset variableName), output := false }
  let call : ExecStmt :=
    { span := .unset, returnVariable := "", target := .procedure { name := procedure }, params := [argument] }
  let stmts : List Stmt := [.select { Query.missing with body := .single .unset core }, .exec call]
  { span := .unset, source := "", batches := [{ span := .unset, stmts }] }

/-- The alias is found under another spelling, and so is the system procedure. -/
theorem extract_caseInsensitive_spellings :
    let a := Script.spelled "Orders" "o" "O" "Id" "sp_executesql" "@stmt"
    let b := Script.spelled "ORDERS" "O" "o" "ID" "SP_ExecuteSql" "@STMT"
    let l := extract (some a) [] {}
    let l' := extract (some b) [] {}
    (l.edges.map (·.sources.map (·.isResolved)) = [[true]] ∧ l.findings.map (·.kind) = [.spExecuteSql] ∧
      l.edges ≠ l'.edges) ∧
    Alike l.edges l'.edges ∧ l.gaps = l'.gaps ∧ Alike l.objects l'.objects ∧ Alike l.findings l'.findings :=
  ⟨by decide +kernel, extract_caseInsensitive _ _ (by cbv) {} (fun _ _ _ _ _ _ => rfl) [] []⟩

end ColumnFlow
