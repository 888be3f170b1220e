import ColumnFlow.Proofs.Builds

/-!
# Spans of the nodes of queries
-/

namespace ColumnFlow

open Parse
open SpanTree
open Text (Position Span)

/-- What is known of the `WITH` clause in front of a query or a statement. -/
def Mark.prior {source : String} (start : Position) : Option WithClause → Mark source
  | none => .any
  | some clause => .got start (ofWith clause)

/-- The spans of the values among those that were found. -/
theorem flatMap_found {α : Type} (of : α → List SpanTree) (found : List (Option α)) :
    (found.filterMap id).flatMap of = found.flatMap fun o => o.toList.flatMap of := by
  induction found with
  | nil => rfl
  | cons o rest ih =>
    cases o with
    | none | some a => simpa using ih

/-- The entry points of the grammar read tokens, and build nodes with the spans of what they read. -/
structure GrammarBuilds (source : String) (g : Grammar) : Prop where
  tame : g.Tame
  exprAt : ∀ {start} {K : Mark source} least, BuildsTrees start K ofExpr (g.exprAt least)
  withClause : ∀ {start} {K : Mark source}, BuildsTrees start K ofWith g.withClause
  query : ∀ {start} ctes, BuildsTrees start (.prior start ctes : Mark source) ofQuery (g.query ctes)
  selectBody : ∀ {start} {K : Mark source}, BuildsTrees start K ofBlocks g.selectBody
  table : ∀ {start} {K : Mark source}, BuildsTrees start K ofTable g.table
  stmt : ∀ {start} {K : Mark source}, BuildsTrees start K ofStmt g.stmt

namespace GrammarBuilds

variable {source : String} {g : Grammar} {start : Position} {K : Mark source}

theorem lock (h : GrammarBuilds source g) : GrammarLock endTails 0 g g := .ofTame h.tame h.tame False.elim False.elim

theorem expr (h : GrammarBuilds source g) : BuildsTrees start K ofExpr g.expr := h.exprAt 1

theorem innerQuery (h : GrammarBuilds source g) : BuildsTrees start K ofQuery g.innerQuery :=
  .ite (.bind h.withClause fun clause => .given (h.query (some clause)) .right)
    (.given (h.query none) .any)

end GrammarBuilds

namespace Parse

namespace Builds

variable {source : String} {g : Grammar} {start : Position} {K : Mark source}

/-! ### Parts without the grammar -/

protected theorem objectName : BuildsTrees start K ofName objectName := by
  refine position fun start => ite ?_ (.refused .expectedIdentifier)
  refine .bind .takeLiteral fun first => .andThen (.locked .dottedParts) fun more => ?_
  refine ifThen (fun _ rest => .andThen (.report _) fun _ => rest) (spanned ?_ fun _ => rfl)
  simp +contextual

protected theorem targetName : BuildsTrees start K ofName targetName := by
  refine ite (position fun _ => .bind .takeLiteral fun _ => spanned ?_ fun _ => rfl) .objectName
  simp

protected theorem literal (kind : LiteralKind) : BuildsTrees start K ofExpr (literal kind) :=
  token fun _ => .pure .right

protected theorem noExpr : BuildsTrees start K ofExpr noExpr := look fun _ => .refused (.report _)

protected theorem remoteArgs : BuildsTrees start K ofExprs remoteArgs := by
  refine ite (.bind .advance fun _ => ?_) (.refused (.unexpected _))
  -- Every string found so far is a token that has been read.
  refine .bind (.scan (fun found : Nat × List Expr => .fits start (found.2.flatMap ofExpr)) .nil
    fun {s a b} begun next known => ?_) fun p => .pure ?_
  · have extent := start_le_stop begun.mem_current
    have read := Fits.later known (Nat.le_trans begun.behind extent)
    have here : Fits source start s.current.stop [.node ⟨s.current.start, s.current.stop⟩ []] :=
      (Fits.node begun.toSettled.begun.starts ⟨_, begun.mem_current, rfl⟩ extent .nil).widen begun.le
    dsimp only at next
    split at next
    · simp at next
    · split at next
      · simp at next
      all_goals obtain rfl := Option.some.inj next
      · exact read
      · exact read
      · exact here.append read
      · exact read
  · simp +contextual [Mark.fits, Fits, List.mem_flatMap]

/-- At a dot, the dot is read. -/
theorem dottedParts_reads {s : ParseState} (begun : Begun source start s)
    (dot : (s.current.kind == Symbol.dot) = true) :
    Mark.holds (.read start : Mark source) (dottedParts s).2.lastStop := by
  have name : Tame namePart :=
    (Lockstep.namePart : Lax endTails .nothing true 0 Anywhere id namePart namePart).left
  have part : Tame (do if ← sees Symbol.dot then return some "" else return some (← namePart)) :=
    .either (.pure _) (.bind name fun _ => .pure _)
  refine collect_reads ?_ begun.toSettled ?_
  · rw [accept_eq, taken_bind]
    exact .either (.bind .advance fun _ => part) (.pure _)
  · rw [accept_eq, taken_bind, either_pos dot]
    exact part.lasts begun.toSettled.advance.settled begun.read

protected theorem remoteTable : BuildsTrees start K ofTable remoteTable := by
  refine position fun start => look fun t => .advanced <| .bind .remoteArgs fun args => ?_
  have parts : Tame dottedParts :=
    (Lockstep.dottedParts : Lax endTails .nothing true 0 Anywhere id dottedParts dottedParts).left
  refine leafOr (fun object => .fits start (object.toList.flatMap ofName)) parts dottedParts_reads (fun _ _ => ?_)
    .nil fun object => ?_
  · simp
  refine iteThen (fun rest => .advanced <| .andThen (.locked .skipParens) fun _ => rest) ?_
  refine .andThen (.locked .tableAlias) fun aliasName => ?_
  refine iteThen (fun rest => .andThen (.locked .skipParens) fun _ => rest) (spanned ?_ fun _ => rfl)
  simp +contextual

/-- The words of a join have been read if there are any. -/
protected theorem joinKind : Builds start K (fun found => .when (found.isSome = true) (.read start)) joinKind := by
  have read {K : Mark source} {found : Option JoinKind} :
      Builds start (K.and (.read start)) (fun found => .when (found.isSome = true) (.read start)) (pure found) :=
    .pure ⟨fun k _ => k.2⟩
  have none {K : Mark source} :
      Builds start K (fun found => .when (found.isSome = true) (.read start)) (pure (none : Option JoinKind)) :=
    .pure ⟨fun _ some => by cases some⟩
  have outer (kind : JoinKind) :
      Builds start K (fun found => .when (found.isSome = true) (.read start)) (joinKind.outer kind) :=
    .bind .advance fun _ => .accepted <| .andThen (.locked .skipJoinHint) fun _ =>
      .required <| read
  refine look fun t => ?_
  split
  · exact .bind .advance fun _ => read
  · exact .bind .advance fun _ => read
  · exact .bind .advance fun _ => .andThen (.locked .skipJoinHint) fun _ => .required <| read
  · exact outer _
  · exact outer _
  · exact outer _
  · exact .advanced <| take read (.bind (.requireWord _) fun _ => read)
  · exact ite (.advanced <| .bind .advance fun _ => read) none
  · exact ite (.advanced <| .bind .advance fun _ => read) none

/-! ### Calls -/

/-- What a call holds. -/
@[simp] def callParts (fn : FuncCall) : List SpanTree :=
  ofExprs fn.args ++ ofOrder fn.withinGroup ++ ofWindow? fn.window

attribute [local simp] FuncCall.named

variable (hg : GrammarBuilds source g)

include hg

protected theorem exprList : BuildsTrees start K ofExprs (exprList g) := by
  simp only [BuildsTrees, ofExprs_eq]
  exact .separated ofExpr hg.expr

protected theorem orderItem : Builds start K (fun item => .got start (ofExpr item.expr)) (orderItem g) := by
  refine .bind hg.expr fun _ => take (.pure ?_) (.accepted <| .pure .right)
  simp +contextual

protected theorem orderBy : BuildsTrees start K ofOrder (orderBy g) := by
  simp only [BuildsTrees, ofOrder_eq]
  exact .required <| .required <| .separated _ (.orderItem hg)

protected theorem funcArg (isDatePart : Bool) : BuildsTrees start K ofExpr (funcArg g isDatePart) := by
  refine iteJoin (fun e => .got start (ofExpr e)) (fun rest => .bind (.literal _) rest) hg.expr fun arg => ?_
  refine takeThen (fun rest => .andThen (.discard (.locked .dataType)) fun _ => ?_) (.pure .right)
  exact takeThen (fun rest => .andThen (.discard hg.expr) fun _ => rest) rest

protected theorem moreFuncArgs : Builds start K (fun args => .fits start (ofExprs args)) (moreFuncArgs g) := by
  simp only [ofExprs_eq]
  refine .collect ofExpr (take (.bind (.funcArg hg false) fun _ => .pure ?_) (.pure .nil))
  simp +contextual

protected theorem funcArgs (fn : FuncCall) :
    Builds start (.fits start (callParts fn) : Mark source) (fun fn => .got start (callParts fn)) (funcArgs g fn) := by
  refine .bind (.require _) fun _ => take (.pure ?_) (ite ?_ ?_)
  · simp +contextual
  · refine .advanced <| .advanced <| .pure ?_
    simp +contextual
  · refine .andThen (.accept _) fun distinct => ifThen (fun _ rest => .accepted <| rest) ?_
    refine .bind (.funcArg hg _) fun first => .bind (.moreFuncArgs hg) fun more => ?_
    refine .required <| .pure ?_
    simp +contextual

protected theorem windowSpec : Builds start K (fun window => .got start (ofWindow? (some window))) (windowSpec g) := by
  refine .bind (.require _) fun _ => take (.pure ?_) (.required ?_)
  · simp +contextual
  refine takeJoin (fun parts => .fits start (ofExprs parts)) (fun rest => ?_) (.pure .nil) fun parts => ?_
  · exact .required <| .bind (.built (.exprList hg)) rest
  refine iteOr (.built (.orderBy hg)) .nil fun items => ?_
  refine iteThen (fun rest => .andThen (skip _ _) fun _ => rest) (.required <| .pure ?_)
  simp +contextual

protected theorem optionalWindow :
    Builds start K (fun window => .fits start (ofWindow? window)) (some <$> windowSpec g) :=
  .map (.windowSpec hg) fun _ => .right

protected theorem funcSuffix (fn : FuncCall) :
    Builds start (.got start (callParts fn) : Mark source) (fun fn => .got start (callParts fn)) (funcSuffix g fn) := by
  refine iteJoin (fun items => .fits start (ofOrder items)) (fun rest => ?_) (.pure .nil) fun items => ?_
  · exact .advanced <| .advanced <| .required <|
      .bind (.built (.orderBy hg)) fun items => .required <| rest items
  refine iteOr (.optionalWindow hg) .nil fun window => .pure ?_
  simp +contextual

protected theorem methodCalls (base : Expr) :
    BuildsTrees start (.got start (ofExpr base) : Mark source) ofExpr (methodCalls g start base) := by
  refine ifThenElse (fun _ => .pure ⟨id⟩) fun _ => ?_
  refine loop (fun base => .got start (ofExpr base)) ⟨id⟩ (fun _ => .cutOff ⟨id⟩) fun {i} ih base => ?_
  refine ite (.advanced <| .andThen .takeLiteral fun name => ?_) (.pure ⟨id⟩)
  refine .bind (.given (.funcArgs hg _) ?_) fun fn => ?_
  · simp
  refine spanFrom (callParts { fn with args := base :: fn.args }) ?_ fun stop => (ih _).given .right
  simp +contextual

/-! ### Expressions -/

protected theorem optionalExpr :
    Builds start K (fun e => .fits start (ofExpr? e)) (some <$> g.expr) := .map hg.expr fun _ => .right

protected theorem caseExpr : BuildsTrees start K ofExpr (caseExpr g) := by
  refine position fun start => .bind (.require _) fun _ => ?_
  refine iteJoin (fun operand => .fits start (ofExpr? operand)) (.bind (.pure .nil)) (.optionalExpr hg)
    fun operand => ?_
  have clauses {K : Mark source} : Builds start K
      (fun whens => .fits start (whens.flatMap fun w => ofExpr w.condition ++ ofExpr w.result)) (collect do
        if ← accept Keyword.WHEN then
          let condition ← g.expr
          require Keyword.THEN
          let result ← g.expr
          return some { condition, result : WhenClause }
        else return none) := by
    refine .collect _ (take (.bind hg.expr fun condition => .required ?_) (.pure .nil))
    refine .bind hg.expr fun result => .pure ?_
    simp +contextual
  refine .bind clauses fun whens => ifThen (fun _ rest => .andThen (.unexpected _) fun _ => rest) ?_
  refine takeOr (.optionalExpr hg) .nil fun otherwise => .required <| spanned ?_ fun _ => rfl
  simp +contextual

protected theorem castExpr (lenient : Bool) : BuildsTrees start K ofExpr (castExpr g lenient) := by
  refine position fun start => .advanced <| .required ?_
  refine .bind hg.expr fun operand => .required <| .andThen (.locked .dataType) fun _ => ?_
  exact .required <| spanned .right fun _ => rfl

protected theorem convertExpr : BuildsTrees start K ofExpr (convertExpr g) := by
  refine position fun start => look fun lenient => .advanced <| .required ?_
  refine .andThen (.locked .dataType) fun _ => .required <| .bind hg.expr fun operand => ?_
  refine takeOr (.optionalExpr hg) .nil fun style => .required <| spanned ?_ fun _ => rfl
  simp +contextual

protected theorem coalesceExpr : BuildsTrees start K ofExpr (coalesceExpr g) := by
  refine position fun start => .advanced <| .required ?_
  exact .bind (.exprList hg) fun _ => .required <| spanned .right fun _ => rfl

protected theorem nullIfExpr : BuildsTrees start K ofExpr (nullIfExpr g) := by
  refine position fun start => .advanced <| .required ?_
  refine .bind hg.expr fun left => .required <| .bind hg.expr fun right => ?_
  refine .required <| spanned ?_ fun _ => rfl
  simp +contextual

protected theorem iifExpr : BuildsTrees start K ofExpr (iifExpr g) := by
  refine position fun start => .advanced <| .required ?_
  refine .bind hg.expr fun cond => .required <| .bind hg.expr fun yes => ?_
  refine .required <| .bind hg.expr fun no => .required <| spanned ?_ fun _ => rfl
  simp +contextual

protected theorem nextValueExpr : BuildsTrees start K ofExpr (nextValueExpr g) := by
  refine position fun start => .bind .advance fun _ => .advanced ?_
  refine .required <| .andThen .objectName fun sequence => ?_
  refine iteOr (.optionalWindow hg) .nil fun window => spanned ?_ fun _ => rfl
  simp +contextual

protected theorem existsExpr : BuildsTrees start K ofExpr (existsExpr g) := by
  refine position fun start => .required <| .required ?_
  exact .bind hg.innerQuery fun _ => .required <| spanned .right fun _ => rfl

protected theorem parenExpr : BuildsTrees start K ofExpr (parenExpr g) := by
  refine position fun start => .bind (.require _) fun _ => ite ?_ (.bind hg.expr fun inner => ?_)
  · exact .bind hg.innerQuery fun _ => .required <| spanned .right fun _ => rfl
  · refine ifThenElse (fun _ => .pure ?_) fun _ => .required <| spanned .right fun _ => rfl
    simp +contextual

protected theorem identExpr : BuildsTrees start K ofExpr (identExpr g) := by
  refine position fun start => look fun first => .bind .advance fun _ => ?_
  refine .andThen (.locked .chain) fun parts => ?_
  refine ifThenElse (fun _ => spanned ?_ fun _ => rfl) fun _ => ite ?_ ?_
  · simp
  · refine ifThenElse (fun _ => spanFrom [] ?_ fun stop => ?_) fun _ => ?_
    · simp
    · refine .bind (.given (.funcArgs hg _) ?_) fun fn => spanned ?_ fun _ => rfl
      · simp
      · simp +contextual [ofExpr]
    · refine .bind (.given (.funcArgs hg _) ?_) fun fn => .bind (.given (.funcSuffix hg fn) .right) fun fn => ?_
      · simp
      · exact spanned .right fun _ => rfl
  · refine ifThenElse (fun _ => spanned ?_ fun _ => rfl) fun _ => spanned ?_ fun _ => rfl
    all_goals simp

protected theorem wordExpr : BuildsTrees start K ofExpr (wordExpr g) := by
  refine look fun t => ite (.nextValueExpr hg) (ite ?_ (.identExpr hg))
  split
  · exact .castExpr hg true
  · exact .convertExpr hg
  · exact .convertExpr hg
  · exact .coalesceExpr hg
  · exact .nullIfExpr hg
  · exact .iifExpr hg
  · exact .identExpr hg

protected theorem keywordCall : BuildsTrees start K ofExpr (keywordCall g) := by
  refine position fun _ => .andThen .takeLiteral fun _ => .bind (.given (.funcArgs hg _) ?_) fun _ => ?_
  · simp
  · exact spanned .right fun _ => rfl

protected theorem primary : BuildsTrees start K ofExpr (primary g) := by
  refine current fun t => ?_
  dsimp only
  split
  · exact .literal _
  · exact .literal _
  · refine .bind .advance fun _ => spanFrom [] ?_ fun _ => .given (.methodCalls hg _) .right
    simp
  · exact ifThenElse (fun _ => .identExpr hg) fun _ => .wordExpr hg
  · exact .bind (.parenExpr hg) fun _ => .given (.methodCalls hg _) .right
  · refine .bind .advance fun _ => spanned ?_ fun _ => rfl
    simp
  · exact .literal _
  · exact .literal _
  · exact .caseExpr hg
  · exact .castExpr hg false
  · exact .existsExpr hg
  iterate 3 exact ite (.keywordCall hg) .noExpr
  · exact .noExpr

protected theorem signedExpr : BuildsTrees start K ofExpr (signedExpr g) := by
  have applied (start : Position) (op : UnaryOp) (level : Nat) :
      BuildsTrees start (.any : Mark source) ofExpr (signedExpr.applied g start op level) :=
    .advanced <| .bind (hg.exprAt level) fun _ => spanned .right fun _ => rfl
  refine position fun start => look fun t => ?_
  split
  iterate 4 exact applied start _ _
  · exact .primary hg

/-- The operand is read already, and every predicate is a tree around it and what is read next. -/
protected theorem predicate (operand : Expr) (negated : Bool) :
    BuildsTrees start (.got start (ofExpr operand) : Mark source) ofExpr
      (predicate g start operand negated) := by
  refine take (.required <| ite ?_ ?_) (take ?_ (take ?_ (.refused (.unexpected _))))
  · refine .bind hg.innerQuery fun _ => .required <| spanned ?_ fun _ => rfl
    simp +contextual
  · refine .bind (.exprList hg) fun _ => .required <| spanned ?_ fun _ => rfl
    simp +contextual
  · refine .bind (hg.exprAt _) fun low => .required <| .bind (hg.exprAt _) fun high => ?_
    refine spanned ?_ fun _ => rfl
    simp +contextual
  · refine .bind (hg.exprAt _) fun pattern => ?_
    refine takeOr (.map (C := fun e => .fits start (ofExpr? e)) (.primary hg) fun _ => .right) .nil fun escape => ?_
    refine spanned ?_ fun _ => rfl
    simp +contextual

/-- One round of the operators: the tree so far is the first child of the next one. -/
protected theorem operatorExpr (left : Expr) (level : Nat) :
    BuildsTrees left.span.start (.got left.span.start (ofExpr left) : Mark source) ofExpr
      (operatorExpr g left level) := by
  refine look fun t => ?_
  dsimp only
  split
  · refine .advanced <| .andThen (.accept _) fun _ => .required ?_
    exact spanned ⟨id⟩ fun _ => rfl
  · exact .advanced <| .andThen (.locked .ident) fun _ => spanned ⟨id⟩ fun _ => rfl
  iterate 4 exact .andThen (.accept _) fun _ => .predicate hg left _
  · refine .advanced ?_
    refine iteJoin (fun right => .got left.span.start (ofExpr right))
      (fun rest => .advanced <| .bind (.primary hg) rest) (hg.exprAt _) fun right => ?_
    split
    · refine ifThenElse (fun _ => look fun _ => .refused (.report _)) fun _ => spanned ?_ fun _ => rfl
      simp +contextual
    · refine .pure ?_
      simp +contextual

/-- An operator applies to what has been read, and its expression starts there. -/
protected theorem operators (least : Nat) (left : Expr) :
    Builds start ((Mark.fact (left.isMissing = false)).and (.got start (ofExpr left)) : Mark source)
      (fun e => .got start (ofExpr e)) (operators g least left) := by
  refine loop (fun left => (Mark.fact (left.isMissing = false)).and (.got start (ofExpr left))) ⟨id⟩
    (fun _ => .cutOff .right) fun {i} ih left => ?_
  rw [operators.go, operatorLevel_eq]
  refine look fun level => ifThenElse (fun _ => .pure .right) fun _ => ?_
  refine .bind (around .right (fun known => ?_) (.operatorExpr hg left level)) fun combined => ?_
  · obtain ⟨first, alone, same⟩ := ofExpr_eq known.1
    exact ⟨first, alone, congrArg Span.start same⟩
  · refine ifThenElse (fun _ => .pure ?_) fun there => (ih combined).given ?_
    · simp +contextual
    · simp +contextual [there]

protected theorem exprAt (least : Nat) : BuildsTrees start K ofExpr (exprAt g least) := by
  refine .nested (.bind (.signedExpr hg) fun left => ifThenElse (fun _ => .pure ?_) fun there => ?_)
  · simp +contextual
  · refine .given (.operators hg least left) ?_
    simp +contextual [there]

/-! ### Tables -/

protected theorem valueRows : BuildsTrees start K ofRows (valueRows g) := by
  simp only [BuildsTrees, ofRows_eq]
  refine .separated ofExprs (.required <| .bind (.exprList hg) fun _ => ?_)
  exact .required <| .pure .right

protected theorem variableTable : BuildsTrees start K ofTable (variableTable g) := by
  refine position fun start => .bind .takeLiteral fun name => spanFrom [] ?_ fun stop => ite ?_ ?_
  · simp
  · refine .advanced <| .andThen .takeLiteral fun method => ?_
    refine .bind (.given (.funcArgs hg _) ?_) fun fn => ?_
    · simp
    refine spanFrom (callParts { fn with args := .localVar ⟨start, stop⟩ name :: fn.args }) ?_ fun last => ?_
    · simp +contextual [ofExpr]
    · exact .andThen (.locked .derivedAlias) fun aliases => spanned .right fun _ => rfl
  · exact .andThen (.locked .tableAlias) fun _ => spanned .right fun _ => rfl

protected theorem namedTable : BuildsTrees start K ofTable (namedTable g) := by
  refine position fun start => .bind .objectName fun name => ite ?_ ?_
  · refine .bind (.given (.funcArgs hg _) ?_) fun fn => spanFrom (callParts fn) .right fun stop => ?_
    · simp
    refine iteOr (.locked .withSchema) .any fun declared => ?_
    exact .andThen (.locked .derivedAlias) fun aliases => spanned ⟨fun k => k.1.2⟩ fun _ => rfl
  · refine .andThen (.locked .tableHints) fun before => .andThen (.locked (.skipTemporal hg.lock)) fun _ => ?_
    refine .andThen (.locked .tableAlias) fun aliasName => .andThen (.locked .tableHints) fun after => ?_
    exact .andThen (.locked .skipSample) fun _ => spanned .right fun _ => rfl

protected theorem join : Builds start K (fun o => .fits start (o.toList.flatMap ofJoin)) (join g) := by
  refine positionOr fun start => .bind .joinKind fun found => ?_
  cases found with
  | none => exact .pure .nil
  | some kind =>
    refine .bind hg.table fun right => ?_
    refine ifJoin (fun condition => .fits start (ofExpr? condition))
      (fun _ rest => .required <| .bind (.optionalExpr hg) rest) (.pure .nil) fun condition => ?_
    refine .built (spanned ?_ fun _ => rfl)
    simp +contextual

protected theorem joins : Builds start K (fun joins => .fits start (ofJoins joins)) (joins g) := by
  simp only [ofJoins_eq]
  exact .collect ofJoin (.join hg)

protected theorem parenTable : BuildsTrees start K ofTable (parenTable g) := by
  refine position fun start => ite (.advanced ?_) (ite ?_ (.advanced ?_))
  · refine .bind hg.innerQuery fun query => .required ?_
    exact .andThen (.locked .derivedAlias) fun _ => spanned .right fun _ => rfl
  · refine .advanced <| .advanced <| .bind (.valueRows hg) fun rows => ?_
    exact .required <| .andThen (.locked .derivedAlias) fun _ => spanned .right fun _ => rfl
  · refine .bind hg.table fun table => .bind (.joins hg) fun joins => ?_
    refine spanFrom (ofTable table ++ ofJoins joins) ?_ fun stop => ?_
    · simp +contextual
    · exact .required <| spanned .right fun _ => rfl

protected theorem pivot (table : TableRef) : BuildsTrees start (.got start (ofTable table) : Mark source) ofTable
      (pivot g start table) := by
  refine .andThen .takeLiteral fun name => .required <| .bind hg.expr fun aggregate => ?_
  refine .required <| .bind hg.expr fun values => .required ?_
  refine spanFrom (callParts { FuncCall.named "" (Text.upper name) with args := [aggregate, values] }) ?_ fun stop => ?_
  · simp +contextual
  · refine .andThen (.locked .derivedAlias) fun aliases => spanned ?_ fun _ => rfl
    simp +contextual [ofCall]

protected theorem pivots (table : TableRef) :
    BuildsTrees start (.got start (ofTable table) : Mark source) ofTable (pivots g start table) :=
  loop (fun table => .got start (ofTable table)) ⟨id⟩ (fun _ => .cutOff ⟨id⟩)
    fun ih _ => ite (.bind (.pivot hg _) fun _ => (ih _).given .right) (.pure ⟨id⟩)

protected theorem tableRef : BuildsTrees start K ofTable (tableRef g) := by
  refine .nested (position fun start => look fun t => ?_)
  split
  · exact .bind (.parenTable hg) fun _ => .given (.pivots hg _) .right
  iterate 3 exact .bind .remoteTable fun _ => .given (.pivots hg _) .right
  · exact .bind (.variableTable hg) fun _ => .given (.pivots hg _) .right
  · exact .bind (.namedTable hg) fun _ => .given (.pivots hg _) .right
  · exact .refused (.unexpected _)

protected theorem fromClause : BuildsTrees start K ofSource (fromClause g) := by
  refine position fun start => .required <| .bind (.tableRef hg) fun table => ?_
  refine .bind (.joins hg) fun joins => spanned ?_ fun _ => rfl
  simp +contextual

/-! ### Queries -/

protected theorem commonTable : BuildsTrees start K ofCommonTable (commonTable g) := by
  refine position fun start => .andThen (.locked .ident) fun name => iteOr (.locked .identList) .any fun columns => ?_
  refine .required <| .required <| .bind hg.innerQuery fun query => ?_
  exact .required <| spanned .right fun _ => rfl

protected theorem withClause : BuildsTrees start K ofWith (withClause g) := by
  refine position fun _ => .required <| .bind (.separated ofCommonTable (.commonTable hg)) fun _ => ?_
  refine spanned ?_ fun _ => rfl
  simp +contextual

protected theorem top : Builds start K (fun top => .got start (ofExpr top.count)) (top g) := by
  have ties {K : Mark source} : Builds start K (fun _ => .any) acceptTies :=
    ite (.advanced <| .advanced .plain) .plain
  refine .required <| takeJoin (fun count => .got start (ofExpr count)) (fun rest => ?_) (.primary hg)
    fun count => .andThen (.acceptWord _) fun percent => .andThen ties fun _ => .pure .right
  exact .bind hg.expr fun count => .required <| rest count

protected theorem selectItem : BuildsTrees start K ofItem (selectItem g) := by
  refine position fun start => take (spanned ?_ fun _ => rfl) (ite ?_ (ite ?_ (.bind hg.expr fun value => ?_)))
  · simp
  · refine .andThen .takeLiteral fun _ => .advanced <| .bind hg.expr fun value => ?_
    exact spanned .right fun _ => rfl
  · refine .andThen .takeLiteral fun _ => .advanced <| .bind hg.expr fun value => ?_
    exact spanned .right fun _ => rfl
  · split
    · refine spanned ?_ fun _ => rfl
      simp +contextual
    · refine spanned ?_ fun _ => rfl
      simp +contextual
    · exact .andThen (.locked .itemAlias) fun _ => spanned .right fun _ => rfl

protected theorem selectList : BuildsTrees start K ofItems (selectList g) := by
  simp only [BuildsTrees, ofItems_eq]
  exact .separated ofItem (.selectItem hg)

protected theorem groupBy : BuildsTrees start K ofExprs (groupBy g) := by
  have item : Builds start (.any : Mark source) (fun o => .got start (o.toList.flatMap ofExpr)) (do
      if (← seesWord "GROUPING") && (← seesNextWord "SETS") then
        advance
        advance
        skipParens
        return none
      else return some (← g.expr)) := by
    refine ite (.bind .advance fun _ => .advanced <| .andThen (.locked .skipParens) fun _ => .pure ?_)
      (.bind hg.expr fun _ => .pure ?_)
    all_goals simp +contextual
  refine .accepted <| .bind (.separated _ item) fun found => ?_
  refine iteThen (fun rest => .advanced <| .advanced <| rest) (.pure ?_)
  rw [ofExprs_eq, flatMap_found]
  exact .right

protected theorem selectClauses : BuildsTrees start (.read start : Mark source) ofCore (selectClauses g start) := by
  have top {K : Mark source} : Builds start K (fun top => .fits start (ofTop? top)) (some <$> top g) := by
    refine .map (.top hg) fun _ => ?_
    simp
  have into {K : Mark source} :
      Builds start K (fun into => .fits start (into.toList.flatMap ofName)) (some <$> targetName) :=
    .map .targetName fun _ => .right
  have table {K : Mark source} : Builds start K (fun table => .fits start (ofSource? table)) (some <$> fromClause g) :=
    .map (.fromClause hg) fun _ => .right
  refine .andThen (.accept _) fun distinct => ifThen (fun _ rest => .accepted <| rest) ?_
  refine iteOr top .nil fun top => ?_
  refine .bind (.selectList hg) fun columns => takeOr into .nil fun into => iteOr table .nil fun table => ?_
  refine takeOr (.optionalExpr hg) .nil fun filter => ?_
  refine takeJoin (fun groupBy => .fits start (ofExprs groupBy))
    (fun rest => .required <| .bind (.built (.groupBy hg)) rest) (.pure .nil) fun groupBy => ?_
  refine takeOr (.optionalExpr hg) .nil fun having => spanned ?_ fun _ => rfl
  simp +contextual

protected theorem selectCore : BuildsTrees start K ofCore (selectCore g) :=
  position fun _ => expect (.given (.selectClauses hg) .right) (.pure .never)

end Builds

end Parse

/-! ### Set operations -/

section Blocks

variable {source : String} {start stop : Position} {core : SelectCore} {first more : SelectBody}

theorem ofBody_mem (body : SelectBody) : ofBody body ∈ ofBlocks body := by
  cases body with
  | single span core | chain span core op all rest => exact List.mem_cons_self

theorem span_ofBody (body : SelectBody) : (ofBody body).span = body.span := by
  cases body with
  | single span core | chain span core op all rest => rfl

theorem span_append (op : SetOp) (all : Bool) (more first : SelectBody) :
    (SelectBody.append op all more first).span = first.span := by
  cases first with
  | single span core | chain span core op' all' rest => rfl

/-- A closing parenthesis stands behind the blocks of the one and in front of those of the other. -/
def Divided (source : String) (first more : SelectBody) : Prop :=
  ∃ t ∈ tokenize source, t.kind = Symbol.rparen ∧ (∀ p ∈ ofBlocks first, p.span.stop.offset ≤ t.start.offset) ∧
    ∀ p ∈ ofBlocks more, t.stop.offset ≤ p.span.start.offset

/-- A chain in parentheses is continued at its end, behind them. -/
theorem Fits.divided (op : SetOp) (all : Bool) (moreFits : Fits source start stop (ofBlocks more))
    (divided : Divided source first more) (firstFits : Fits source start stop (ofBlocks first)) :
    Fits source start stop (ofBlocks (.append op all more first)) := by
  fun_induction SelectBody.append op all more first with
  | case1 span core =>
    obtain ⟨t, mem, kind, front, back⟩ := divided
    obtain ⟨nested, le, ge⟩ := firstFits _ List.mem_cons_self
    refine List.forall_mem_cons.mpr ⟨⟨?_, le, ge⟩, moreFits⟩
    refine .link nested.located (fun p mem => (nested.inside p mem).1) (fun p mem => (nested.inside p mem).2)
      (moreFits _ (ofBody_mem more)).1 (.inr ⟨t, mem, kind, front _ List.mem_cons_self, back _ (ofBody_mem more)⟩)
  | case2 span core op' all' rest ih =>
    obtain ⟨⟨nested, le, ge⟩, restFits⟩ := List.forall_mem_cons.mp firstFits
    obtain ⟨t, mem, kind, front, back⟩ := divided
    have tail := ih ⟨t, mem, kind, (List.forall_mem_cons.mp front).2, back⟩ restFits
    refine List.forall_mem_cons.mpr ⟨⟨?_, le, ge⟩, tail⟩
    cases nested with
    | link located nested within right beside =>
      refine .link located nested within (tail _ (ofBody_mem _)).1 ?_
      rwa [span_ofBody, span_append, ← span_ofBody]

/-- The first block of a chain spans all of it. -/
theorem Fits.chain {op : SetOp} {all : Bool} (located : SpanTree.Located source ⟨start, stop⟩)
    (coreFits : Fits source start stop (ofCore core)) (moreFits : Fits source start stop (ofBlocks more)) :
    Fits source start stop (ofBlocks (.chain ⟨start, stop⟩ core op all more)) := by
  refine List.forall_mem_cons.mpr ⟨⟨?_, Nat.le_refl _, Nat.le_refl _⟩, moreFits⟩
  have right := moreFits _ (ofBody_mem more)
  exact .link located (fun p mem => (coreFits p mem).1) (fun p mem => (coreFits p mem).2) right.1 (.inl right.2)

theorem Fits.withSpan {body : SelectBody} (located : SpanTree.Located source ⟨start, stop⟩)
    (fits : Fits source start stop (ofBlocks body)) :
    Fits source start stop (ofBlocks (body.withSpan ⟨start, stop⟩)) := by
  cases body with
  | single span core => exact .node located.start located.stop located.ordered (Fits.inside fits)
  | chain span core op all rest =>
    obtain ⟨head, tail⟩ := List.forall_mem_cons.mp fits
    exact .chain located (Fits.inside (List.forall_mem_singleton.mpr head)) tail

/-- Appending keeps the blocks in their order, since the first body is one block or lies before the others. -/
theorem Fits.setOperation (op : SetOp) (all : Bool) (located : SpanTree.Located source ⟨start, stop⟩)
    (firstFits : Fits source start stop (ofBlocks first)) (moreFits : Fits source start stop (ofBlocks more))
    (apart : (∃ span core, first = .single span core) ∨ Divided source first more) :
    Fits source start stop (ofBlocks ((SelectBody.append op all more first).withSpan ⟨start, stop⟩)) := by
  cases first with
  | single span core => exact .chain located (Fits.inside firstFits) moreFits
  | chain span core op' all' rest =>
    obtain ⟨head, tail⟩ := List.forall_mem_cons.mp firstFits
    obtain ⟨_, _, impossible⟩ | ⟨t, mem, kind, front, back⟩ := apart
    · cases impossible
    · refine .chain located (Fits.inside (List.forall_mem_singleton.mpr head)) (.divided op all moreFits ?_ tail)
      exact ⟨t, mem, kind, (List.forall_mem_cons.mp front).2, back⟩

end Blocks

/-- Only a chain in parentheses comes whole, and these are closed behind it. -/
def Mark.closed {source : String} (body : SelectBody) : Mark source where
  holds p := (∃ span core, body = .single span core) ∨ ∃ t ∈ tokenize source, t.kind = Symbol.rparen ∧
    (∀ p ∈ ofBlocks body, p.span.stop.offset ≤ t.start.offset) ∧ t.stop.offset ≤ p.offset
  lasts le _ h := by
    obtain single | ⟨t, mem, kind, front, back⟩ := h
    · exact .inl single
    · exact .inr ⟨t, mem, kind, front, Nat.le_trans back le⟩

theorem Mark.divided_of_closed {source : String} {first more : SelectBody} {p : Position}
    (h : (Mark.closed first : Mark source).holds p) (behind : ∀ q ∈ ofBlocks more, p.offset ≤ q.span.start.offset) :
    (∃ span core, first = .single span core) ∨ Divided source first more := by
  obtain single | ⟨t, mem, kind, front, back⟩ := h
  · exact .inl single
  · exact .inr ⟨t, mem, kind, front, fun q inside => Nat.le_trans back (behind q inside)⟩

namespace Parse

namespace Builds

variable {source : String} {g : Grammar} {start : Position} {K : Mark source}

/-- Where a query or a statement begins, its `WITH` clause included. -/
protected theorem startWith {α : Type} {of : α → List SpanTree} {F : Position → Parse α} (ctes : Option WithClause)
    (rest : ∀ here, BuildsTrees here (.fits here (ofWith? ctes) : Mark source) of (F here)) :
    BuildsTrees start (.prior start ctes : Mark source) of (startWith ctes >>= F) := by
  cases ctes with
  | none => exact position fun here => (rest here).given .nil
  | some clause =>
    obtain ⟨span, tables⟩ := clause
    exact (around ⟨id⟩ (fun _ => ⟨.node span (ofCommonTables tables), rfl, rfl⟩) ((rest span.start).given .right) :
      BuildsTrees start _ of (F span.start))

variable (hg : GrammarBuilds source g)

include hg

protected theorem selectOperand :
    Builds start K (fun body => (Mark.got start (ofBlocks body)).and (.closed body)) (selectOperand g) := by
  refine positionWith (fun start body => (Mark.got start (ofBlocks body)).and (.closed body))
    (fun le known => ⟨Mark.got_widen le known.1, known.2⟩) fun start => take ?_ (.bind (.selectCore hg) fun core => ?_)
  · refine .bind (.given (hg.query none) .any) fun inner => .bind (.requireAfter _) fun _ => .pure ⟨?_⟩
    obtain ⟨span, ctes, body, orderBy, offset, fetch, forMode⟩ := inner
    have blocks {p : Position}
        (known : (Mark.fits start (ofQuery ⟨span, ctes, body, orderBy, offset, fetch, forMode⟩)).holds p) :
        Fits source start p (ofBlocks body) := fun q mem =>
      Fits.inside known q (by simp [SpanTree.inside, mem])
    rintro p ⟨⟨_, _, fits⟩, read, q, ⟨_, _, front⟩, t, mem, kind, le, back⟩
    exact ⟨⟨read, blocks fits⟩, .inr ⟨t, mem, kind, fun b inside => Nat.le_trans (blocks front b inside).2.2 le, back⟩⟩
  · exact spanFrom (ofCore core) .right fun stop => .pure ⟨fun k => ⟨k.2, .inl ⟨_, _, rfl⟩⟩⟩

/-- The loop of the set operators adds one operand behind the body so far. -/
protected theorem setOperation (first : SelectBody) :
    Builds start ((Mark.got start (ofBlocks first)).and (.closed first) : Mark source)
      (fun body => .got start (ofBlocks body))
      (setOperation g start first) := by
  refine look fun t => ?_
  split
  · refine .advanced <| .andThen (.accept _) fun all => .bind (behind hg.selectBody) fun more => ?_
    refine pureThen (ended ⟨fun known => known.2.1.1⟩ ?_)
    rintro p located ⟨⟨⟨_, firstFits⟩, _⟩, ⟨read, moreFits⟩, q, ⟨_, closed⟩, behind⟩
    exact ⟨read, Fits.setOperation _ all located firstFits moreFits (Mark.divided_of_closed closed behind)⟩
  · refine pureThen (ended ⟨fun known => known.1.1⟩ fun located known => ?_)
    exact ⟨known.1.1, Fits.withSpan located known.1.2⟩

protected theorem selectBody : BuildsTrees start K ofBlocks (selectBody g) :=
  position fun _ => .bind (.selectOperand hg) fun _ => .given (.setOperation hg _) .right

protected theorem fetchClause : Builds start K (fun count => .fits start (ofExpr? count)) (fetchClause g) := by
  refine take (.andThen (.acceptWord _) fun _ => ?_) (.pure .nil)
  refine ifThen (fun _ rest => .andThen (.requireWord _) fun _ => rest) (.bind (.built hg.expr) fun count => ?_)
  exact .andThen (.locked .skipRowWord) fun _ => .andThen (.requireWord _) fun _ => .pure .right

protected theorem queryClauses (ctes : Option WithClause) (body : SelectBody) :
    Builds start ((Mark.fits start (ofWith? ctes)).and (.got start (ofBlocks body)) : Mark source)
      (fun query => .got start (ofQuery query)) (queryClauses g start ctes body) := by
  refine iteOr (.built (.orderBy hg)) .nil fun orderBy => .andThen (.acceptWord _) fun hasOffset => ?_
  refine ifJoin (fun offset => .fits start (ofExpr? offset)) (fun _ rest => ?_) (.pure .nil) fun offset => ?_
  · exact .bind (.built hg.expr) fun count => .andThen (.locked .skipRowWord) fun _ => pureThen (rest (some count))
  refine ifOr (.fetchClause hg) .nil fun fetch => iteOr (.lockedAt (.forClause hg.lock)) .any fun forMode => ?_
  refine .andThen (.locked .skipOption) fun _ => spanned ?_ fun _ => rfl
  simp +contextual

protected theorem query (ctes : Option WithClause) :
    BuildsTrees start (.prior start ctes : Mark source) ofQuery (query g ctes) :=
  .startWith ctes fun _ => .nested (.bind (.selectBody hg) fun body => .queryClauses hg ctes body)

end Builds

end Parse

end ColumnFlow
