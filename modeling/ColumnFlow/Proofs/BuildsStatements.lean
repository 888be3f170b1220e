import ColumnFlow.Proofs.BuildsQueries

/-!
# Spans of the nodes of statements
-/

namespace ColumnFlow

open SpanTree
open Text (Position Span)

namespace Parse

namespace Builds

variable {source : String} {g : Grammar} {start : Position} {K : Mark source}

/-! ### Parts without the grammar -/

protected theorem columnList : Builds start K (fun columns => .got start (columns.flatMap ofColumn)) columnList := by
  have parts {start : Position} {K : Mark source} : Builds start K (fun _ => .any) (collect do
      if ← accept Symbol.dot then return some (← namePart) else return none) :=
    collectPlain (take (.andThen (.locked .namePart) fun _ => .plain) .plain)
  have columns (n : Nat) {K : Mark source} :
      Builds start K (fun columns => .fits start (columns.flatMap ofColumn)) (columnList.go n) := by
    refine rounds columnList.go (.cutOff .nil) (fun ih => ?_) n
    refine inner fun here => ite (.bind .takeLiteral fun first => .andThen parts fun more => ?_)
      (.refused .expectedIdentifier)
    refine spanFrom [] ?_ fun stop => outer (L := .any) [.node ⟨here, stop⟩ []] ?_
      (take (.bind ih.always fun rest => .pure ?_) (.pure ?_))
    all_goals simp +contextual
  refine .bind (.require _) fun _ => look fun n => .bind (columns _) fun columns => ?_
  refine .required <| .pure ?_
  simp +contextual

protected theorem chainedColumn (op : Symbol) :
    Builds start K (fun column => .fits start (column.toList.flatMap ofColumn)) (chainedColumn op) := by
  refine ite (token fun _ => .advanced <| .pure ?_) (.pure .nil)
  simp +contextual

protected theorem execTarget : BuildsTrees start K ofExecTarget execTarget := by
  have number {K : Mark source} : Builds start K (fun _ => .any) skipProcNumber :=
    iteThen (fun rest => .advanced <| .advanced <| rest) .plain
  refine ite (.bind .takeLiteral fun _ => .pure ?_) (.bind .objectName fun name => ?_)
  · simp
  · exact .andThen number fun _ => .pure .right

/-- What is known of a list of statements. If there are any, tokens have been read for them. -/
abbrev listed (start : Position) (stmts : List Stmt) : Mark source :=
  (Mark.fits start (ofStmts stmts)).and (.when (stmts ≠ []) (.read start))

/-- A statement is kept only if nothing was reported in it. -/
theorem recovered_listed (first : Token) {stmt : Stmt} {s : ParseState} (settled : Settled source s)
    (value : s.failed = false → Mark.holds (.got start (ofStmt stmt) : Mark source) s.lastStop) :
    Mark.holds (listed start (recovered first stmt s).1.toList : Mark source) (recovered first stmt s).2.lastStop := by
  rw [recovered_value]
  cases failed : s.failed with
  | true => simp
  | false =>
    have known := (Tame.recovered first stmt).lasts settled (value failed)
    cases stmt.isMissing with
    | true => simp
    | false => simpa [and_comm] using known

protected theorem dropNames : Builds start K (fun names => .fits start (names.flatMap ofName)) dropNames := by
  refine repeats (.cutOff .nil) fun ih => ite (.bind .objectName fun _ => take ?_ (.pure ?_)) (.pure .nil)
  · refine .bind ih.always fun _ => .pure ?_
    simp +contextual
  · simp +contextual

protected theorem drop : BuildsTrees start K ofStmt drop := by
  refine position fun start => .bind (.require _) fun _ => look fun t => .advanced ?_
  refine iteThen (fun rest => .advanced <| .advanced <| rest) ?_
  refine .bind .dropNames fun names => ?_
  refine iteThen (fun rest => .andThen (.locked .skipStatement) fun _ => rest) (spanned ?_ fun _ => rfl)
  simp +contextual

protected theorem truncate : BuildsTrees start K ofStmt truncate := by
  refine position fun start => .required <| .required ?_
  refine .bind .objectName fun table => ?_
  refine iteThen (fun rest => .advanced <| .andThen (.locked .skipParens) fun _ => rest) ?_
  exact spanned .right fun _ => rfl

protected theorem transaction : BuildsTrees start K ofStmt transaction := by
  refine position fun start => .bind .takeLiteral fun action => .andThen (.discard (.acceptWord _)) fun _ => ?_
  refine .andThen (.accept _) fun _ => ifThen (fun _ rest => .andThen (.discard (.acceptWord _)) fun _ => rest) ?_
  refine iteOr .takeLiteral .right fun name => iteThen (fun rest => ?_) (spanned ?_ fun _ => rfl)
  · exact .advanced <| .advanced <| .accepted <| rest
  · simp +contextual

protected theorem other : BuildsTrees start K ofStmt other := by
  refine position fun _ => .bind .takeLiteral fun _ => .andThen (.locked .skipStatement) fun _ => ?_
  refine spanned ?_ fun _ => rfl
  simp

/-- What parentheses stand around lies inside them. -/
theorem fits_unparen {p : Position} {e : Expr} (h : Fits source start p (ofExpr e)) :
    Fits source start p (ofExpr e.unparen) := by
  fun_induction Expr.unparen e with
  | case1 span inner ih => exact ih (Fits.inside h)
  | case2 e => exact h

protected theorem setOption : BuildsTrees start K ofStmt (setOption start) := by
  refine .bind .takeLiteral fun option => .andThen (collectPlain ?_) fun words => spanned ?_ fun _ => rfl
  · exact ite .plain (.andThen .takeLiteral fun _ => .plain)
  · simp

protected theorem jump : BuildsTrees start K ofStmt jump := by
  refine position fun _ => .bind .takeLiteral fun _ => spanned ?_ fun _ => rfl
  simp

protected theorem goto : BuildsTrees start K ofStmt goto := by
  refine position fun _ => .bind .advance fun _ => .andThen (.locked .ident) fun _ => spanned ?_ fun _ => rfl
  simp

protected theorem label : BuildsTrees start K ofStmt label := by
  refine position fun _ => .bind .takeLiteral fun _ => .advanced <| spanned ?_ fun _ => rfl
  simp

protected theorem useDatabase : BuildsTrees start K ofStmt useDatabase := by
  refine position fun _ => .bind .advance fun _ => .andThen (.locked .ident) fun _ => spanned ?_ fun _ => rfl
  simp

/-! ### Statements that write data or run procedures -/

variable (hg : GrammarBuilds source g)

include hg

protected theorem outputClause : BuildsTrees start K ofOutput (outputClause g) := by
  refine position fun start => .andThen (.requireWord _) fun _ => .bind (.selectList hg) fun columns => ?_
  refine take (.bind .targetName fun into => ?_) (spanned ?_ fun _ => rfl)
  · refine iteOr (.built .columnList) .nil fun columns => spanned ?_ fun _ => rfl
    simp +contextual
  · simp +contextual

protected theorem optionalOutput :
    Builds start K (fun clause => .fits start (clause.toList.flatMap ofOutput)) (optionalOutput g) := by
  refine ite (.map (.outputClause hg) fun _ => ?_) (.pure .nil)
  simp

protected theorem optionalTop : Builds start K (fun top => .fits start (ofTop? top)) (optionalTop g) := by
  refine ite (.map (.top hg) fun _ => ?_) (.pure .nil)
  simp

protected theorem optionalFrom : Builds start K (fun clause => .fits start (ofSource? clause)) (optionalFrom g) :=
  ite (.map (.fromClause hg) fun _ => .right) (.pure .nil)

protected theorem rowFilter : Builds start K (fun filter => .fits start (ofExpr? filter)) (rowFilter g) := by
  refine take (ite ?_ (.bind (.built hg.expr) fun _ => .pure .right)) (.pure .nil)
  refine .advanced <| .advanced <| .andThen (.discard (.acceptWord _)) fun _ => ?_
  exact iteThen (fun rest => .advanced <| rest) (.pure .nil)

protected theorem setClause : BuildsTrees start K ofSet (setClause g) := by
  refine position fun start => ite ?_ (ite ?_ (.refused .expectedIdentifier))
  · refine .andThen .takeLiteral fun _ => .andThen (.locked .assignOp) fun op => ?_
    refine .bind (.chainedColumn op) fun column => .bind hg.expr fun _ => spanned ?_ fun _ => rfl
    simp +contextual
  · refine .bind (.identExpr hg) fun target => ?_
    split
    · refine .andThen (.locked .assignOp) fun _ => .bind hg.expr fun _ => spanned ?_ fun _ => rfl
      simp +contextual
    · exact .refused (.report _)

protected theorem setList : Builds start K (fun clauses => .got start (clauses.flatMap ofSet)) (setList g) :=
  .separated _ (.setClause hg)

protected theorem execParam : BuildsTrees start K ofExecParam (execParam g) := by
  refine position fun start => iteJoin (fun _ => .any) (fun rest => ?_) .plain fun name => ?_
  · exact .andThen .takeLiteral fun name => .advanced <| .bind .plain rest
  refine takeBoth (fun value => .got start (ofExpr? value)) (.pure ?_) (.map hg.expr fun _ => ⟨id⟩) fun value => ?_
  · simp
  · exact .andThen (.locked .isOutput) fun _ => spanned .right fun _ => rfl

protected theorem execText : BuildsTrees start K ofExec (execText g start) := by
  refine .bind hg.expr fun sql => ?_
  have args {K : Mark source} :
      Builds start K (fun params => .fits start (params.flatMap ofExecParam)) (collect do
        if ← accept Symbol.comma then
          let start ← Parse.position
          let value ← g.expr
          let span ← Parse.spanFrom start
          let output ← isOutput
          return some { span, name := "", value := some value, output : ExecParam }
        else return none) := by
    refine .collect _ (take (positionOr fun start => .bind hg.expr fun value => ?_) (.pure .nil))
    exact spanFrom (ofExpr value) .right fun stop => .andThen (.locked .isOutput) fun _ => .pure ⟨fun k => k.2.2⟩
  refine .bind args fun params => .required <| iteThen (fun rest => ?_) ?_
  · exact .advanced <| .advanced <| .required <|
      .required <| rest
  refine takeJoin (fun _ => .any) (fun rest => ?_) .plain fun server => spanned ?_ fun _ => rfl
  · exact .andThen (.discard (.acceptWord _)) fun _ => .bind (.locked .ident) rest
  · simp +contextual

protected theorem exec : BuildsTrees start K ofExec (exec g) := by
  refine position fun start => .required <| take (.execText hg) ?_
  refine iteJoin (fun _ => .any) (fun rest => ?_) .plain fun returnVariable => ?_
  · exact .andThen .takeLiteral fun name => .advanced <| .bind .plain rest
  refine .bind .execTarget fun target => ?_
  refine iteJoin (fun params => .fits start (params.flatMap ofExecParam)) (.bind (.pure .nil))
    (.built (.separated ofExecParam (.execParam hg))) fun params => ?_
  refine .andThen (.locked .skipExecOptions) fun _ => spanned ?_ fun _ => rfl
  simp +contextual

protected theorem insertSource : BuildsTrees start K ofInsertSource (insertSource g) := by
  refine take (.bind (.valueRows hg) fun _ => .pure .right) ?_
  refine ite (.bind (.given (hg.query none) .any) fun _ => .pure .right) ?_
  refine ite (.bind hg.innerQuery fun _ => .pure .right) (ite (.bind (.exec hg) fun _ => .pure .right) ?_)
  refine take (.required <| .pure ?_) (.refused (.unexpected _))
  simp +contextual

protected theorem insert (ctes : Option WithClause) :
    BuildsTrees start (.prior start ctes : Mark source) ofStmt (insert g ctes) := by
  refine .startWith ctes fun start => .required <| .bind (.optionalTop hg) fun top => ?_
  refine .accepted <| .bind .targetName fun target => ?_
  refine .andThen (.discard (.locked .tableHints)) fun _ => iteOr (.built .columnList) .nil fun columns => ?_
  refine .bind (.optionalOutput hg) fun output => .bind (.insertSource hg) fun rows => spanned ?_ fun _ => rfl
  simp +contextual

protected theorem update (ctes : Option WithClause) :
    BuildsTrees start (.prior start ctes : Mark source) ofStmt (update g ctes) := by
  refine .startWith ctes fun start => .required <| .bind (.optionalTop hg) fun top => ?_
  refine .bind .targetName fun target => .andThen (.discard (.locked .tableHints)) fun _ => ?_
  refine .required <| .bind (.setList hg) fun sets => .bind (.optionalOutput hg) fun output => ?_
  refine .bind (.optionalFrom hg) fun table => .bind (.rowFilter hg) fun filter => ?_
  refine .andThen (.locked .skipOption) fun _ => spanned ?_ fun _ => rfl
  simp +contextual

protected theorem delete (ctes : Option WithClause) :
    BuildsTrees start (.prior start ctes : Mark source) ofStmt (delete g ctes) := by
  refine .startWith ctes fun start => .required <| .bind (.optionalTop hg) fun top => ?_
  refine .accepted <| .bind .targetName fun target => ?_
  refine .andThen (.discard (.locked .tableHints)) fun _ => .bind (.optionalOutput hg) fun output => ?_
  refine .bind (.optionalFrom hg) fun table => .bind (.rowFilter hg) fun filter => ?_
  refine .andThen (.locked .skipOption) fun _ => spanned ?_ fun _ => rfl
  simp +contextual

protected theorem mergeDo : BuildsTrees start K ofMergeDo (mergeDo g) := by
  refine take (.required <| .bind (.setList hg) fun _ => .pure .right) ?_
  refine take (.pure ?_) (take ?_ (.refused (.unexpected _)))
  · simp
  refine iteOr (.built .columnList) .nil fun columns => ?_
  refine take (.required <| .pure ?_) (.required ?_)
  · simp +contextual
  · refine .required <| .bind (.exprList hg) fun _ => .required <| .pure ?_
    simp +contextual

protected theorem mergeWhen : BuildsTrees start K ofMergeWhen (mergeWhen g) := by
  refine position fun start => .required <| .andThen (.locked .mergeMatch) fun rows => ?_
  refine takeOr (.optionalExpr hg) .nil fun condition => .required ?_
  refine .bind (.mergeDo hg) fun action => spanned ?_ fun _ => rfl
  simp +contextual

protected theorem mergeWhens :
    Builds start K (fun clauses => .fits start (clauses.flatMap ofMergeWhen)) (mergeWhens g) := by
  refine repeats (.cutOff .nil) fun ih => ite (.bind (.mergeWhen hg) fun _ => ite (.pure ?_) ?_) (.pure .nil)
  · simp +contextual
  · refine .bind ih.always fun _ => .pure ?_
    simp +contextual

protected theorem merge (ctes : Option WithClause) :
    BuildsTrees start (.prior start ctes : Mark source) ofStmt (merge g ctes) := by
  refine .startWith ctes fun start => .required ?_
  refine .andThen (.discard (.optionalTop hg)) fun _ => .accepted ?_
  refine .bind .targetName fun target => .andThen (.discard (.locked .tableHints)) fun _ => ?_
  refine .andThen (.locked .tableAlias) fun targetAlias => .andThen (.requireWord _) fun _ => ?_
  refine .bind (.tableRef hg) fun table => .required <| .bind hg.expr fun on => ?_
  refine .bind (.mergeWhens hg) fun whens => ifThen (fun _ rest => .andThen (.unexpected _) fun _ => rest) ?_
  refine .bind (.optionalOutput hg) fun output => .andThen (.locked .skipOption) fun _ => spanned ?_ fun _ => rfl
  simp +contextual

/-! ### Lists of statements -/

protected theorem apart (first : Token) :
    Builds start K (fun stmt => listed start stmt.toList) (apart do recovered first (← g.stmt)) := by
  have stmt : BuildsTrees start (.any : Mark source) ofStmt g.stmt := hg.stmt
  refine ⟨.apart (.bind stmt.tame fun stmt => .recovered first stmt), fun {s} begun _ _ => ?_⟩
  have clean : Begun source start { s with failed := false } := ⟨⟨begun.rest, begun.behind⟩, begun.starts, begun.le⟩
  exact recovered_listed first (clean.toSettled.onward (stmt.tame.onward _)).settled (stmt.value clean trivial)

protected theorem listItem : Builds start K (fun stmt => listed start stmt.toList) (listItem g) := by
  refine take (.pure ?_) (look fun first => .apart hg first)
  simp

/-- A statement starts where the one before it has stopped, or later. -/
protected theorem stmtList (stop : TokenKind → Bool) : Builds start K (listed start) (stmtList g stop) := by
  refine .bind (collectWith (fun o => listed start o.toList) (fun found => listed start (found.filterMap id)) ?_ ?_ ?_)
    fun found => .pure .right
  · simp
  · intro o found
    cases o with
    | none | some stmt => simp +contextual
  · exact look fun t => ifThenElse (fun _ => .pure .any) fun _ => .bind (.listItem hg) fun _ => .pure .right

protected theorem moduleBody : Builds start K (listed start) (moduleBody g) := .stmtList hg _

protected theorem blockBody : Builds start K (listed start) (blockBody g) := .stmtList hg _

/-! ### Definitions -/

protected theorem paramDef : Builds start K (fun param => .fits start (ofParam param)) (paramDef g) := by
  refine .andThen .takeLiteral fun name => .accepted ?_
  refine takeJoin (fun _ => .any) (.bind .plain) (.locked .dataType) fun typeName => ?_
  refine .andThen (.discard (.acceptWord _)) fun _ => takeOr (.optionalExpr hg) .nil fun default => ?_
  exact .andThen (.locked .isOutput) fun output => .andThen (.acceptWord _) fun readOnly => .pure .right

protected theorem paramDefs : Builds start K (fun params => .fits start (params.flatMap ofParam)) (paramDefs g) := by
  refine repeats (.cutOff .nil) fun ih => ite (.bind (.paramDef hg) fun _ => take ?_ (.pure ?_)) (.pure .nil)
  · refine .bind ih.always fun _ => .pure ?_
    simp +contextual
  · simp +contextual

protected theorem columnDef :
    Builds start K (fun column => .fits start (column.toList.flatMap ofColumnDef)) (columnDef g) := by
  refine ite (.andThen (.locked .skipElement) fun _ => .pure .nil) (.andThen (.locked .ident) fun name => take ?_ ?_)
  · refine .bind hg.expr fun computed => .andThen (.locked .skipElement) fun _ => .pure ?_
    simp +contextual
  · refine .andThen (.locked .dataType) fun typeName => .andThen (.locked .skipElement) fun _ => .pure ?_
    simp

protected theorem columnDefs :
    Builds start K (fun columns => .got start (columns.flatMap ofColumnDef)) (columnDefs g) := by
  have columns (n : Nat) {K : Mark source} : Builds start K
      (fun found => .fits start ((found.filterMap id).flatMap ofColumnDef)) (columnDefs.go g n) := by
    refine rounds (columnDefs.go g) (.cutOff .nil) (fun ih => ite (.pure .nil) (.bind (.columnDef hg) fun column => ?_)) n
    refine take (.bind ih.always fun _ => .pure ?_) (.pure ?_)
    all_goals cases column <;> simp +contextual
  refine .bind (.require _) fun _ => look fun n => .bind (columns _) fun found => ?_
  refine .required <| .pure ?_
  simp +contextual

protected theorem createProc (alter : Bool) : BuildsTrees start K ofStmt (createProc g start alter) := by
  refine .required <| .bind .objectName fun name => ?_
  refine iteThen (fun rest => .advanced <| .advanced <| rest) ?_
  refine takeJoin (fun params => .fits start (params.flatMap ofParam)) (fun rest => ?_) (.paramDefs hg) fun params => ?_
  · exact .bind (.paramDefs hg) fun params => .required <| rest params
  refine .andThen (.locked .optionalModuleOptions) fun _ => ?_
  refine iteThen (fun rest => .advanced <| .advanced <| rest) ?_
  refine expect (.bind (.moduleBody hg) fun _ => spanned ?_ fun _ => rfl) (.pure .never)
  simp +contextual

protected theorem createView (alter : Bool) : BuildsTrees start K ofStmt (createView g start alter) := by
  refine .required <| .bind .objectName fun name => iteOr (.locked .identList) .any fun columns => ?_
  refine .andThen (.locked .optionalModuleOptions) fun _ => expect (.bind hg.innerQuery fun query => ?_) ?_
  · refine iteThen (fun rest => ?_) (spanned ?_ fun _ => rfl)
    · exact .advanced <| .advanced <| .advanced <| rest
    · simp +contextual
  · exact .pure .never

protected theorem functionBody (inline : Bool) : Builds start K (listed start) (functionBody g inline) := by
  cases inline with
  | false => exact .moduleBody hg
  | true =>
    have body : Builds start .any (listed start) (moduleBody g) := .moduleBody hg
    have lock : Lockstep _ .nothing true _ Anywhere _ _ _ _ := .functionBody hg.lock true
    refine ⟨lock.left, fun {s} begun _ clean => ?_⟩
    have inline : Begun source _ { s with inlineFunction := true } :=
      ⟨⟨begun.rest, begun.behind⟩, begun.starts, begun.le⟩
    exact body.value inline trivial clean

protected theorem returns :
    Builds start K (fun result => .fits start (result.columns.flatMap ofColumnDef)) (returns g) := by
  refine .andThen (.requireWord _) fun _ => ite (.andThen .takeLiteral fun table => ?_) (take (.pure .nil) ?_)
  · exact .required <| .bind (.built (.columnDefs hg)) fun columns => .pure .right
  · exact .andThen (.locked .dataType) fun _ => .pure .nil

protected theorem createFunction (alter : Bool) : BuildsTrees start K ofStmt (createFunction g start alter) := by
  refine .required <| .bind .objectName fun name => .required ?_
  refine iteJoin (fun params => .fits start (params.flatMap ofParam)) (.bind (.pure .nil)) (.paramDefs hg)
    fun params => ?_
  refine .required <| .bind (.returns hg) fun result => ?_
  refine .andThen (.locked .optionalModuleOptions) fun _ => .accepted ?_
  refine .bind (.functionBody hg _) fun _ => spanned ?_ fun _ => rfl
  simp +contextual [ofHeader]

protected theorem createTrigger (alter : Bool) : BuildsTrees start K ofStmt (createTrigger g start alter) := by
  refine .required <| .bind .objectName fun name => .required ?_
  refine iteJoin (fun table => .fits start (table.toList.flatMap ofName)) (fun rest => ?_)
    (.map .objectName fun _ => .right) fun table => ?_
  · exact .accepted <| .advanced <| .bind (.pure .nil) rest
  have announced {K : Mark source} : Builds start K (fun b => .when (b = false) .never) createTrigger.announced := by
    refine take (.pure ?_) (take (.pure ?_) (take (.andThen (.requireWord _) fun _ => .pure ?_) ?_))
    · simp
    · simp
    · simp
    · exact .refused (.unexpected _)
  refine .andThen (.locked .optionalModuleOptions) fun _ => .bind announced fun found => ?_
  refine ifThenElse (fun _ => .andThen (.locked .triggerEvents) fun events => expect ?_ ?_) fun no => .pure ?_
  · refine .bind (.moduleBody hg) fun _ => spanned ?_ fun _ => rfl
    simp +contextual
  · exact .pure .never
  · simp +contextual [no]

protected theorem createTable : BuildsTrees start K ofStmt (createTable g start) := by
  refine .required <| .bind .objectName fun name => ite ?_ ?_
  · refine .andThen (.locked .skipStatement) fun _ => spanned ?_ fun _ => rfl
    simp +contextual
  · refine .bind (.columnDefs hg) fun columns => ?_
    refine iteThen (fun rest => .andThen (.locked .skipStatement) fun _ => rest) (spanned ?_ fun _ => rfl)
    simp +contextual

/-- By the word behind `CREATE`, with `OR ALTER` passed. -/
protected theorem create : BuildsTrees start K ofStmt (create g) := by
  have skipped {start : Position} (keyword : String) :
      BuildsTrees start (.read start : Mark source) ofStmt (create.skipped start keyword) := by
    refine .andThen (.locked .skipStatement) fun _ => spanned ?_ fun _ => rfl
    simp
  refine position fun start => look fun first => look fun isAlter => .bind .advance fun _ => ?_
  refine ifJoin (fun _ => .any) (fun _ rest => .bind .plain rest) (.accept _) fun orAlter => ?_
  refine ifThen (fun _ rest => .required <| rest) (look fun t => ?_)
  split
  · exact .createProc hg _
  · exact .createView hg _
  · exact .createFunction hg _
  · exact .createTrigger hg _
  · exact ifThenElse (fun _ => .createTable hg) fun _ => (skipped _).given ⟨fun k => k.1.2⟩
  · exact (skipped _).given ⟨fun k => k.1.2⟩

/-! ### Declarations -/

protected theorem varDecl : BuildsTrees start K ofVarDecl (varDecl g) := by
  refine position fun start => .bind .takeLiteral fun name => .accepted ?_
  refine take ?_ (take (spanned ?_ fun _ => rfl) ?_)
  · exact .bind (.columnDefs hg) fun _ => spanned .right fun _ => rfl
  · simp +contextual
  · refine .andThen (.locked .dataType) fun typeName => takeOr (.optionalExpr hg) .nil fun value => ?_
    refine spanned ?_ fun _ => rfl
    simp +contextual

protected theorem varDecls : Builds start K (fun decls => .fits start (decls.flatMap ofVarDecl)) (varDecls g) := by
  refine repeats (.cutOff .nil) fun ih => ite (.bind (.varDecl hg) fun decl => ?_) (.refused (.unexpected _))
  refine take (.bind ih.always fun _ => .pure ?_) (.pure ?_)
  all_goals simp +contextual

protected theorem declare : BuildsTrees start K ofStmt (declare g) := by
  refine position fun start => .bind (.require _) fun _ => ite (.andThen (.locked .ident) fun name => ?_) ?_
  · refine .andThen (skip _ _) fun _ => .required ?_
    exact .bind hg.innerQuery fun _ => spanned .right fun _ => rfl
  · refine .bind (.varDecls hg) fun _ => spanned ?_ fun _ => rfl
    simp +contextual

/-! ### Control flow -/

protected theorem branch : BuildsTrees start K ofStmt (branch g) := ite (.refused (.unexpected _)) hg.stmt

protected theorem ifElse : BuildsTrees start K ofStmt (ifElse g) := by
  refine position fun start => .required <| .bind hg.expr fun cond => ?_
  refine .bind (.branch hg) fun yes => iteThen (fun rest => .advanced <| rest) ?_
  refine takeOr (.map (C := fun no => .fits start (ofStmt? no)) (.branch hg) fun _ => .right) .nil fun no => ?_
  refine spanned ?_ fun _ => rfl
  simp +contextual

theorem whileLoop : BuildsTrees start K ofStmt (Parse.loop g) := by
  refine position fun start => .required <| .bind hg.expr fun cond => ?_
  refine .bind (.branch hg) fun body => spanned ?_ fun _ => rfl
  simp +contextual

protected theorem block : BuildsTrees start K ofStmt (block g) := by
  refine position fun _ => .bind (.require _) fun _ => .bind (.blockBody hg) fun _ => .required ?_
  refine spanned ?_ fun _ => rfl
  simp +contextual

protected theorem tryCatch : BuildsTrees start K ofStmt (tryCatch g) := by
  have part {start : Position} {K : Mark source} (word : String) :
      BuildsTrees start K ofStmts (tryCatch.part g word) := by
    refine .bind (.require _) fun _ => .andThen (.requireWord _) fun _ => .bind (.blockBody hg) fun _ => ?_
    refine .required <| .andThen (.requireWord _) fun _ => .pure ?_
    simp +contextual
  refine position fun start => .bind (part _) fun attempt => .bind (part _) fun handler => spanned ?_ fun _ => rfl
  simp +contextual

protected theorem begins : BuildsTrees start K ofStmt (begins g) :=
  ite (.tryCatch hg) (ite .transaction (ite .other (.block hg)))

protected theorem returnStmt : BuildsTrees start K ofStmt (returnStmt g) := by
  refine position fun start => .bind (.require _) fun _ => ite ?_ (ite (spanned ?_ fun _ => rfl) ?_)
  · refine .bind hg.innerQuery fun _ => spanned ?_ fun _ => rfl
    simp +contextual
  · simp
  · refine look fun inline => .bind hg.expr fun value => ?_
    split
    · rename_i span query unparen
      refine ifThenElse (fun _ => spanned ⟨fun known => ⟨known.1.2, ?_⟩⟩ fun _ => rfl) fun _ => spanned ?_ fun _ => rfl
      · have fits : Fits source start _ (ofExpr (.subquery span query)) := unparen ▸ fits_unparen known.2.2
        have inside := fits.inside
        simpa [Mark.fits, SpanTree.inside] using inside
      · simp +contextual
    · refine spanned ?_ fun _ => rfl
      simp +contextual

protected theorem raise : BuildsTrees start K ofStmt (raise g) := by
  refine position fun start => .bind .takeLiteral fun literal => ?_
  refine ifThenElse (fun _ => .required <| .bind (.exprList hg) fun args => ?_) fun _ => ?_
  · have options {K : Mark source} : Builds start K (fun _ => .any) (skipWhile do
        if ← accept .ident then accept Symbol.comma else return false) :=
      .skipWhile (take (.accept _) .plain)
    refine .required <| takeThen (fun rest => .andThen options fun _ => rest) ?_
    exact spanned .right fun _ => rfl
  · refine ite (spanned ?_ fun _ => rfl) (.bind (.exprList hg) fun _ => spanned .right fun _ => rfl)
    simp

protected theorem print : BuildsTrees start K ofStmt (print g) :=
  position fun _ => .advanced <| .bind hg.expr fun _ => spanned .right fun _ => rfl

protected theorem set : BuildsTrees start K ofStmt (set g) := by
  refine position fun start => .bind (.require _) fun _ => ite ?_ .setOption
  refine .andThen .takeLiteral fun variableName => .andThen (.locked .assignOp) fun op => ite ?_ ?_
  · refine .andThen (.locked .skipStatement) fun _ => spanned ?_ fun _ => rfl
    simp
  · refine .bind hg.expr fun _ => spanned ?_ fun _ => rfl
    simp +contextual

protected theorem cursor : BuildsTrees start K ofStmt (cursor g) := by
  refine position fun start => look fun isFetch => .bind .takeLiteral fun action => ?_
  refine ifThen (fun _ rest => .andThen (.locked (.skipFetchRow hg.lock)) fun _ => rest) ?_
  have name {K : Mark source} : Builds start K (fun _ => .any) cursorName :=
    ite (.conseq .takeLiteral fun _ => .any) (.refused .expectedIdentifier)
  refine .andThen (.discard (.acceptWord _)) fun _ => .andThen name fun name => ifOr (.accept _) .any fun hasInto => ?_
  refine ifOr (.locked .variableNames) .any fun into => spanned ?_ fun _ => rfl
  simp +contextual

/-! ### Scripts -/

theorem selectStmt (ctes : Option WithClause) : BuildsTrees start (.prior start ctes : Mark source) ofStmt
      (do return .select (← query g ctes)) :=
  .bind (.query hg ctes) fun _ => .pure .right

protected theorem withStmt : BuildsTrees start K ofStmt (withStmt g) := by
  refine .bind (.withClause hg) fun clause => .given (L := .prior start (some clause)) (look fun t => ?_) .right
  split
  · exact selectStmt hg (some clause)
  · exact selectStmt hg (some clause)
  · exact .insert hg (some clause)
  · exact .update hg (some clause)
  · exact .delete hg (some clause)
  · exact .merge hg (some clause)
  · exact .refused (.unexpected _)

/-- By the first token, one case for each kind of statement. -/
protected theorem stmt : BuildsTrees start K ofStmt (stmt g) := by
  have noStmt {K : Mark source} : BuildsTrees start K ofStmt stmt.noStmt :=
    look fun _ => .refused (.report _)
  have alone {m : Parse Stmt} (h : BuildsTrees start (.prior start none : Mark source) ofStmt m) :
      BuildsTrees start K ofStmt m := h.given .any
  refine look fun t => ?_
  split
  · exact alone (selectStmt hg none)
  · split
    · exact alone (selectStmt hg none)
    · exact .withStmt hg
    · exact alone (.insert hg none)
    · exact alone (.update hg none)
    · exact alone (.delete hg none)
    · exact alone (.merge hg none)
    · exact .bind (.exec hg) fun _ => .pure .right
    · exact .declare hg
    · exact .set hg
    · exact .ifElse hg
    · exact whileLoop hg
    · exact .begins hg
    · exact .transaction
    · exact .transaction
    · exact .transaction
    · exact .returnStmt hg
    · exact .print hg
    · exact .raise hg
    · exact .create hg
    · exact .create hg
    · exact .drop
    · exact .truncate
    · exact .cursor hg
    · exact .cursor hg
    · exact .cursor hg
    · exact .cursor hg
    · exact .jump
    · exact .jump
    · exact .goto
    · exact .useDatabase
    · exact .other
    · exact .other
    · exact noStmt
  · exact ifThenElse (fun _ => .raise hg) fun _ => ite .label .other
  · exact noStmt

/-- A batch has a span if there is a statement in it. -/
protected theorem batch :
    Builds start K (fun batch => .when (batch.stmts ≠ []) (.got start (ofBatch batch))) (batch g) := by
  refine positionWith (fun start batch => .when (batch.stmts ≠ []) (.got start (ofBatch batch)))
    (fun le known any => Mark.got_widen le (known any)) fun start => .bind (.moduleBody hg) fun stmts => ?_
  by_cases none : stmts = []
  · refine look fun _ => .pure ?_
    simp [none]
  · refine ended ⟨fun known => known.2.2 none⟩ fun located known _ => ⟨known.2.2 none, ?_⟩
    exact .node located.start located.stop located.ordered known.2.1

protected theorem batches : Builds start K (fun batches => .fits start (batches.flatMap ofBatch)) (batches g) := by
  refine repeats (.cutOff .nil) fun ih => .bind (.batch hg) fun first => takeOr ih.always .nil fun rest => .pure ?_
  by_cases none : first.stmts = []
  · simp +contextual [none]
  · simp +contextual [none]

end Builds

end Parse

end ColumnFlow
