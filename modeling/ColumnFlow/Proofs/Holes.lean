import ColumnFlow.Proofs.Complete
import ColumnFlow.Proofs.OneRun

/-!
# Trees without holes on the way

A tree has no hole if its parts have none: one instance for each construct, so that what is known of the parts is found
for the whole.
-/

namespace ColumnFlow

open Text (Span)

/-! ### Tokens and names -/

section

variable {K : Facts}

instance {k k' : TokenKind} {l l' : String} {a b a' b' : Text.Position} {q q' : Bool} :
    Same (K.learn (Token.mk k l a b q) (Token.mk k' l' a' b' q')) a a' := ⟨fun known => by injection known.2⟩

end

/-! ### Expressions and queries -/

instance : HasHoles Expr := ⟨Expr.Complete⟩
instance : HasHoles FuncCall := ⟨FuncCall.Complete⟩
instance : HasHoles WindowSpec := ⟨WindowSpec.Complete⟩
instance : HasHoles OrderItem := ⟨OrderItem.Complete⟩
instance : HasHoles WhenClause := ⟨WhenClause.Complete⟩
instance : HasHoles Query := ⟨Query.Complete⟩
instance : HasHoles WithClause := ⟨WithClause.Complete⟩
instance : HasHoles CommonTable := ⟨CommonTable.Complete⟩
instance : HasHoles SelectBody := ⟨SelectBody.Complete⟩
instance : HasHoles SelectCore := ⟨SelectCore.Complete⟩
instance : HasHoles TopClause := ⟨TopClause.Complete⟩
instance : HasHoles SelectItem := ⟨SelectItem.Complete⟩
instance : HasHoles FromClause := ⟨FromClause.Complete⟩
instance : HasHoles Join := ⟨Join.Complete⟩
instance : HasHoles TableRef := ⟨TableRef.Complete⟩

section

variable {K : Facts} {span : Span} {name schema : String} {names : List String} {flag flag' star : Bool}
  {e e₁ e₂ : Expr} [he : Whole K e] [he₁ : Whole K e₁] [he₂ : Whole K e₂]
  {o o₁ : Option Expr} [ho : Whole K o] [ho₁ : Whole K o₁] {l : List Expr} [hl : Whole K l]
  {rows : List (List Expr)} [hrows : Whole K rows] {q : Query} [hq : Whole K q] {fn : FuncCall} [hfn : Whole K fn]
  {orderBy : List OrderItem} [horder : Whole K orderBy] {ctes : Option WithClause} [hctes : Whole K ctes]
  {top : Option TopClause} [htop : Whole K top] {source : Option FromClause} [hsource : Whole K source]
  {table : TableRef} [htable : Whole K table] {object : ObjectName}

instance {ref : ColumnRef} : Whole K (Expr.column ref) := ⟨fun _ => .column ref⟩

instance {ref ref' : ColumnRef} : Same (K.learn (Expr.column ref) (Expr.column ref')) ref ref' :=
  ⟨fun known => Expr.column.inj known.2⟩

instance {kind : LiteralKind} : Whole K (Expr.literal span kind name) := ⟨fun _ => .literal span kind name⟩

instance : Whole K (Expr.localVar span name) := ⟨fun _ => .localVar span name⟩

instance {op : BinaryOp} : Whole K (Expr.binary span e op e₁) := ⟨fun k => .binary (he.holds k) (he₁.holds k)⟩

instance {op : UnaryOp} : Whole K (Expr.unary span op e) := ⟨fun k => .unary (he.holds k)⟩

instance : Whole K (Expr.call fn) := ⟨fun k => .call (hfn.holds k)⟩

instance {whens : List WhenClause} [some : Given K (¬whens.isEmpty = true)] [b : Whole K whens] :
    Whole K (Expr.case span o whens o₁) :=
  ⟨fun k => .case (ho.holds k) (by simpa using some.holds k) (b.holds k) (ho₁.holds k)⟩

instance : Whole K (Expr.cast span e name flag) := ⟨fun k => .cast (he.holds k)⟩

instance : Whole K (Expr.convert span name e o flag) := ⟨fun k => .convert (he.holds k) (ho.holds k)⟩

instance : Whole K (Expr.coalesce span l) := ⟨fun k => .coalesce (hl.holds k)⟩

instance : Whole K (Expr.nullIf span e e₁) := ⟨fun k => .nullIf (he.holds k) (he₁.holds k)⟩

instance : Whole K (Expr.iif span e e₁ e₂) := ⟨fun k => .iif (he.holds k) (he₁.holds k) (he₂.holds k)⟩

instance : Whole K (Expr.inList span e flag l) := ⟨fun k => .inList (he.holds k) (hl.holds k)⟩

instance : Whole K (Expr.inQuery span e flag q) := ⟨fun k => .inQuery (he.holds k) (hq.holds k)⟩

instance : Whole K (Expr.between span e flag e₁ e₂) := ⟨fun k => .between (he.holds k) (he₁.holds k) (he₂.holds k)⟩

instance : Whole K (Expr.isNull span e flag) := ⟨fun k => .isNull (he.holds k)⟩

instance : Whole K (Expr.like span e flag e₁ o) := ⟨fun k => .like (he.holds k) (he₁.holds k) (ho.holds k)⟩

instance : Whole K (Expr.collate span e name) := ⟨fun k => .collate (he.holds k)⟩

instance : Whole K (Expr.paren span e) := ⟨fun k => .paren (he.holds k)⟩

instance : Whole K (Expr.star span name) := ⟨fun _ => .star span name⟩

instance : Whole K (Expr.subquery span q) := ⟨fun k => .subquery (hq.holds k)⟩

instance : Whole K (Expr.exists span q) := ⟨fun k => .exists (hq.holds k)⟩

instance {window : Option WindowSpec} [c : Whole K window] :
    Whole K (FuncCall.mk span schema name flag l star orderBy window) :=
  ⟨fun k => .intro (hl.holds k) (horder.holds k) (c.holds k)⟩

instance : Whole K (FuncCall.named schema name) := ⟨fun _ => .named schema name _⟩

instance : Whole K fn.args := ⟨fun k => by obtain ⟨h, _, _⟩ := hfn.holds k; exact h⟩

instance : Whole K fn.withinGroup := ⟨fun k => by obtain ⟨_, h, _⟩ := hfn.holds k; exact h⟩

instance : Whole K fn.window := ⟨fun k => by obtain ⟨_, _, h⟩ := hfn.holds k; exact h⟩

instance : Whole K (WindowSpec.mk l orderBy) := ⟨fun k => .intro (hl.holds k) (horder.holds k)⟩

instance : Whole K (OrderItem.mk e flag) := ⟨fun k => .intro (he.holds k)⟩

instance : Whole K (WhenClause.mk e e₁) := ⟨fun k => .intro (he.holds k) (he₁.holds k)⟩

section Queries

variable {core : SelectCore} {op : SetOp} {body body' : SelectBody} [hbody : Whole K body]

instance {tables : List CommonTable} [a : Whole K tables] : Whole K (WithClause.mk span tables) :=
  ⟨fun k => .intro (a.holds k)⟩

instance : Whole K (CommonTable.mk span name names q) := ⟨fun k => .intro (hq.holds k)⟩

instance : Whole K (Query.mk span ctes body orderBy o o₁ name) :=
  ⟨fun k => .intro (hctes.holds k) (hbody.holds k) (horder.holds k) (ho.holds k) (ho₁.holds k)⟩

instance : Whole K q.body := ⟨fun k => by obtain ⟨_, h, _⟩ := hq.holds k; exact h⟩

instance [a : Whole K core] : Whole K (SelectBody.single span core) := ⟨fun k => .single (a.holds k)⟩

instance : Whole K (body.withSpan span) := ⟨fun k => (hbody.holds k).withSpan span⟩

instance [b : Whole K body'] : Whole K (SelectBody.append op flag body body') :=
  ⟨fun k => (hbody.holds k).append (b.holds k) op flag⟩

instance {columns : List SelectItem} {into : Option ObjectName} [some : Given K (columns ≠ [])] [b : Whole K columns] :
    Whole K (SelectCore.mk span flag top columns into source o l o₁) :=
  ⟨fun k => .intro (htop.holds k) (some.holds k) (b.holds k) (hsource.holds k) (ho.holds k) (hl.holds k) (ho₁.holds k)⟩

instance : Whole K (TopClause.mk e flag flag') := ⟨fun k => .intro (he.holds k)⟩

instance : Whole K (SelectItem.star span) := ⟨fun _ => .star span⟩

instance : Whole K (SelectItem.tableStar span name) := ⟨fun _ => .tableStar span name⟩

instance : Whole K (SelectItem.assign span name e) := ⟨fun k => .assign (he.holds k)⟩

instance : Whole K (SelectItem.value span e name) := ⟨fun k => .value (he.holds k)⟩

instance {joins : List Join} [b : Whole K joins] : Whole K (FromClause.mk span table joins) :=
  ⟨fun k => .intro (htable.holds k) (b.holds k)⟩

instance {kind : JoinKind} : Whole K (Join.mk span kind table o) := ⟨fun k => .intro (htable.holds k) (ho.holds k)⟩

instance : Whole K (TableRef.named span object name names) := ⟨fun _ => .named span object name names⟩

instance : Whole K (TableRef.derived span q name names) := ⟨fun k => .derived (hq.holds k)⟩

instance : Whole K (TableRef.values span rows name names) := ⟨fun k => .values (hrows.holds k)⟩

instance : Whole K (TableRef.function span fn name names) := ⟨fun k => .function (hfn.holds k)⟩

instance : Whole K (TableRef.pivot span fn table name names) := ⟨fun k => .pivot (hfn.holds k) (htable.holds k)⟩

instance {kind : String} {object : Option ObjectName} : Whole K (TableRef.remote span kind l object name) :=
  ⟨fun k => .remote (hl.holds k)⟩

instance {clause : FromClause} [a : Whole K clause] : Whole K (TableRef.joined span clause) :=
  ⟨fun k => .joined (a.holds k)⟩

end Queries

/-! ### Statements -/

instance : HasHoles OutputClause := ⟨OutputClause.Complete⟩
instance : HasHoles SetClause := ⟨SetClause.Complete⟩
instance : HasHoles ExecParam := ⟨ExecParam.Complete⟩
instance : HasHoles ExecTarget := ⟨ExecTarget.Complete⟩
instance : HasHoles ExecStmt := ⟨ExecStmt.Complete⟩
instance : HasHoles InsertSource := ⟨InsertSource.Complete⟩
instance : HasHoles MergeDo := ⟨MergeDo.Complete⟩
instance : HasHoles MergeWhen := ⟨MergeWhen.Complete⟩
instance : HasHoles ParamDef := ⟨ParamDef.Complete⟩
instance : HasHoles ColumnDef := ⟨ColumnDef.Complete⟩
instance : HasHoles VarDecl := ⟨VarDecl.Complete⟩
instance : HasHoles FunctionHeader := ⟨FunctionHeader.Complete⟩
instance : HasHoles Parse.Returns := ⟨fun result => HasHoles.whole result.columns⟩
instance : HasHoles Stmt := ⟨Stmt.Complete⟩

variable {typeName : String} {refs : List ColumnRef}

instance {columns : List SelectItem} {into : Option ObjectName} [a : Whole K columns] :
    Whole K (OutputClause.mk span columns into refs) := ⟨fun k => .intro (a.holds k)⟩

instance {column : Option ColumnRef} {op : Symbol} : Whole K (SetClause.mk span column name op e) :=
  ⟨fun k => .intro (he.holds k)⟩

instance : Whole K (ExecParam.mk span name o flag) := ⟨fun k => .intro (ho.holds k)⟩

instance : Whole K (ExecTarget.procedure object) := ⟨fun _ => .procedure object⟩

instance : Whole K (ExecTarget.localVar name) := ⟨fun _ => .localVar name⟩

instance : Whole K (ExecTarget.text e name) := ⟨fun k => .text (he.holds k)⟩

instance {target : ExecTarget} {params : List ExecParam} [a : Whole K target] [b : Whole K params] :
    Whole K (ExecStmt.mk span name target params) := ⟨fun k => .intro (a.holds k) (b.holds k)⟩

instance : Whole K (InsertSource.values rows) := ⟨fun k => .values (hrows.holds k)⟩

instance : Whole K (InsertSource.query q) := ⟨fun k => .query (hq.holds k)⟩

instance {exec : ExecStmt} [a : Whole K exec] : Whole K (InsertSource.exec exec) := ⟨fun k => .exec (a.holds k)⟩

instance : Whole K InsertSource.defaults := ⟨fun _ => .defaults⟩

instance {sets : List SetClause} [a : Whole K sets] : Whole K (MergeDo.update sets) := ⟨fun k => .update (a.holds k)⟩

instance : Whole K MergeDo.delete := ⟨fun _ => .delete⟩

instance : Whole K (MergeDo.insert refs l) := ⟨fun k => .insert (hl.holds k)⟩

instance : Whole K (MergeDo.insertDefaults refs) := ⟨fun _ => .insertDefaults refs⟩

instance {rows : MergeMatch} {action : MergeDo} [b : Whole K action] :
    Whole K (MergeWhen.mk span rows o action) := ⟨fun k => .intro (ho.holds k) (b.holds k)⟩

instance : Whole K (ParamDef.mk name typeName o flag flag') := ⟨fun k => .intro (ho.holds k)⟩

instance : Whole K (ColumnDef.mk name typeName o) := ⟨fun k => .intro (ho.holds k)⟩

variable {columns : List ColumnDef}

instance {table : String} {result : Parse.Returns} :
    Whole (K.learn (Parse.Returns.mk typeName table columns flag) result) columns := ⟨And.right⟩

variable [hcolumns : Whole K columns]

instance : Whole K (VarDecl.mk span name typeName o columns) := ⟨fun k => .intro (ho.holds k) (hcolumns.holds k)⟩

instance {table : String} : Whole K (Parse.Returns.mk typeName table columns flag) := ⟨fun k => hcolumns.holds k⟩

instance {table : String} {params : List ParamDef} [a : Whole K params] :
    Whole K (FunctionHeader.mk flag object params typeName table columns) :=
  ⟨fun k => .intro (a.holds k) (hcolumns.holds k)⟩

section Statements

variable {name' : String} {output : Option OutputClause} [houtput : Whole K output] {s : Stmt} [hs : Whole K s]
  {body body' : List Stmt} [hbody : Whole K body]

instance : Whole K (Stmt.select q) := ⟨fun k => .select (hq.holds k)⟩

instance {refs : List ColumnRef} {source : InsertSource} [d : Whole K source] :
    Whole K (Stmt.insert ⟨span, ctes, top, object, refs, output, source⟩) :=
  ⟨fun k => .insert (.intro (hctes.holds k) (htop.holds k) (houtput.holds k) (d.holds k))⟩

instance {sets : List SetClause} [c : Whole K sets] :
    Whole K (Stmt.update ⟨span, ctes, top, object, sets, output, source, o⟩) :=
  ⟨fun k => .update (.intro (hctes.holds k) (htop.holds k) (c.holds k) (houtput.holds k) (hsource.holds k) (ho.holds k))⟩

instance : Whole K (Stmt.delete ⟨span, ctes, top, object, output, source, o⟩) :=
  ⟨fun k => .delete (.intro (hctes.holds k) (htop.holds k) (houtput.holds k) (hsource.holds k) (ho.holds k))⟩

instance {whens : List MergeWhen} [some : Given K (¬whens.isEmpty = true)] [d : Whole K whens] :
    Whole K (Stmt.merge ⟨span, ctes, object, name, table, e, whens, output⟩) :=
  ⟨fun k => .merge (.intro (hctes.holds k) (htable.holds k) (he.holds k) (by simpa using some.holds k) (d.holds k)
    (houtput.holds k))⟩

instance {exec : ExecStmt} [a : Whole K exec] : Whole K (Stmt.exec exec) := ⟨fun k => .exec (a.holds k)⟩

instance : Whole K (Stmt.truncate span object) := ⟨fun _ => .truncate span object⟩

instance : Whole K (Stmt.block span body) := ⟨fun k => .block (hbody.holds k)⟩

instance {o : Option Stmt} [c : Whole K o] : Whole K (Stmt.ifElse span e s o) :=
  ⟨fun k => .ifElse (he.holds k) (hs.holds k) (c.holds k)⟩

instance : Whole K (Stmt.loop span e s) := ⟨fun k => .loop (he.holds k) (hs.holds k)⟩

instance [b : Whole K body'] : Whole K (Stmt.tryCatch span body body') :=
  ⟨fun k => .tryCatch (hbody.holds k) (b.holds k)⟩

instance {params : List ParamDef} [a : Whole K params] :
    Whole K (Stmt.createProc span flag object params body) := ⟨fun k => .createProc (a.holds k) (hbody.holds k)⟩

instance : Whole K (Stmt.createView span flag object names q) := ⟨fun k => .createView (hq.holds k)⟩

instance {header : FunctionHeader} [a : Whole K header] :
    Whole K (Stmt.createFunction span header body) := ⟨fun k => .createFunction (a.holds k) (hbody.holds k)⟩

instance {table : Option ObjectName} : Whole K (Stmt.createTrigger span flag object table names body) :=
  ⟨fun k => .createTrigger (hbody.holds k)⟩

instance : Whole K (Stmt.createTable span object columns) := ⟨fun k => .createTable (hcolumns.holds k)⟩

instance {vars : List VarDecl} [a : Whole K vars] : Whole K (Stmt.declare span vars) := ⟨fun k => .declare (a.holds k)⟩

instance : Whole K (Stmt.declareCursor span name q) := ⟨fun k => .declareCursor (hq.holds k)⟩

instance {objects : List ObjectName} : Whole K (Stmt.drop span name objects) := ⟨fun _ => .drop span name objects⟩

instance : Whole K (Stmt.transaction span name name') := ⟨fun _ => .transaction span name name'⟩

instance {q : Option Query} [b : Whole K q] : Whole K (Stmt.return span o q) :=
  ⟨fun k => .return (ho.holds k) (b.holds k)⟩

instance : Whole K (Stmt.print span e) := ⟨fun k => .print (he.holds k)⟩

instance : Whole K (Stmt.raise span name l) := ⟨fun k => .raise (hl.holds k)⟩

instance {op : Symbol} : Whole K (Stmt.setVariable span name op o) := ⟨fun k => .setVariable (ho.holds k)⟩

instance : Whole K (Stmt.setOption span name name') := ⟨fun _ => .setOption span name name'⟩

instance : Whole K (Stmt.cursor span name name' names) := ⟨fun _ => .cursor span name name' names⟩

instance : Whole K (Stmt.control span name name') := ⟨fun _ => .control span name name'⟩

instance : Whole K (Stmt.use span name) := ⟨fun _ => .use span name⟩

instance : Whole K (Stmt.other span name) := ⟨fun _ => .other span name⟩

end Statements

end

end ColumnFlow
