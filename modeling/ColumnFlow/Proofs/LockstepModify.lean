import ColumnFlow.Proofs.LockstepQueries

/-!
# Statements that write data or run procedures, in lockstep
-/

namespace ColumnFlow

theorem Expr.column_of_bare {e : Expr} {ref : ColumnRef} (h : e.bare = .column ref) :
    ∃ ref', e = .column ref' ∧ ref'.bare = ref := by
  cases e <;> simp at h
  exact ⟨_, rfl, h⟩

namespace Parse

/-- The number of a procedure stands on the line of the semicolon in front of it. -/
theorem Test.procNumber {T : Tails} {line : Bool} : Test T line 0 0 fun s =>
    s.current.kind == Symbol.semicolon && s.next.kind == .number && s.next.start.line == s.current.start.line where
  agree {n s s'} _ step := by
    have kinds := ((Test.kind Symbol.semicolon).and (.nextKind .number)).agree (Nat.zero_le n) step
    cases holds : s.current.kind == Symbol.semicolon && s.next.kind == .number with
    | false => rw [← kinds, holds, Bool.false_and, Bool.false_and]
    | true =>
      have two := ((Test.kind Symbol.semicolon).and (.nextKind .number)).reach (Nat.zero_le n) step holds
      rw [← kinds, holds, Bool.true_and, Bool.true_and]
      obtain ⟨n, rfl⟩ : ∃ i, n = i + 1 := ⟨n - 1, by omega⟩
      obtain ⟨r, r', aligned, length, left, right⟩ := step.tokens_cons
      cases aligned with
      | last => simp at length; omega
      | cons alike beside rest => simpa [ParseState.next, left, right] using beside.start
  reach _ _ _ := Nat.zero_le _

theorem Test.execOptions {T : Tails} {line : Bool} : Test T line 0 2 fun s =>
    s.current.kind == Keyword.WITH && (s.next.isWord "RECOMPILE" || s.next.isWord "RESULT") :=
  .and (.kind _) (.or (.nextWord _) (.nextWord _))

theorem Test.execEnd {T : Tails} {line : Bool} : Test T line 0 0 fun s =>
    s.current.kind.endsStatement || s.current.kind == Symbol.rparen ||
      (s.current.kind == Keyword.WITH && (s.next.isWord "RECOMPILE" || s.next.isWord "RESULT")) ||
      s.current.isWord "THROW" || (s.current.kind == .ident && s.next.kind == Symbol.colon) := by
  refine .or (.or (.or (.or (.anyKind _ rfl) ?_) ?_) ?_) ?_
  · exact (Test.kind _).weaken (Nat.zero_le _)
  · exact Test.execOptions.weaken (Nat.zero_le _)
  · exact (Test.word _).weaken (Nat.zero_le _)
  · exact ((Test.kind _).and (.nextKind _)).weaken (Nat.zero_le _)

namespace Lockstep

variable {T : Tails} {L K : Facts} [K.Extends L] {line : Bool} {j k : Nat} {P : Nat → ParseState → Prop} {g g' : Grammar}

/-! ### Parts without the grammar -/

protected theorem columnList : Lax T K line k P (List.map ColumnRef.bare) columnList columnList := by
  refine .required <| .loopBind (.repeats ⟨.cutOff _, .cutOff _⟩ fun {i i' j} le ih => ?_) fun _ _ same =>
    .required (.pure same)
  refine .position fun _ _ => sees ?_ (.andThen .expectedIdentifier (.pure rfl))
  refine .bindEq .takeLiteral fun first => .bind (e := List.map id) (.collect ?_) fun more more' sameMore => ?_
  · exact take (.kind _) (.bindEq .namePart fun _ => .pure rfl) .nothing
  obtain rfl : more = more' := by simpa using sameMore
  refine .spanFrom fun _ _ => takeIn (j := j - 1) (by omega) (.kind _)
    (.bind ih.weaken fun rest rest' same => .pure ?_) (.pure rfl)
  simp [same, ColumnRef.bare]

protected theorem assignOp : Lax T K line k P id assignOp assignOp := by
  have missing : ∀ {K P}, Lax T K line k P id assignOp.missing assignOp.missing :=
    .andThen (.unexpected _) (.pure rfl)
  refine current ?_ ?_
  · rintro ⟨⟩ ⟨⟩ ⟨rfl, rfl, rfl⟩ _
    dsimp only
    split
    · exact ifThenElse Iff.rfl (.andThen .advance (.pure rfl)) missing
    · exact missing
  · rintro t t' (kind | kind) (kind' | kind') <;> simp only [kind, kind'] <;> exact missing

protected theorem chainedColumn (op : Symbol) :
    Lax T K line k P (Option.map ColumnRef.bare) (chainedColumn op) (chainedColumn op) := by
  refine ite (.and (.and (.const _) (.kind _)) (.nextKind _)) (currentIn fun t t' alike => ?_) (.pure rfl)
  exact .andThen .advance <| .andThen .advance (.pure (by simp [ColumnRef.bare, alike.literal]))

protected theorem isOutput : Lax T K line k P id isOutput isOutput :=
  take (.word _) (.pure rfl) (Lockstep.acceptWord _).lax

protected theorem skipExecOptions : Lax T K line k P (fun _ => ()) skipExecOptions skipExecOptions := by
  refine ite .execOptions (.andThen .advance (.discard (.separated (e := fun _ => ()) ?_))) (.pure rfl)
  refine take (.word _) (.andThen (.requireWord _) ?_) (.requireWord _)
  refine .bindEq (Lockstep.acceptWord _).lax fun _ => ifThenElse Iff.rfl ?_ (.pure rfl)
  refine .bindEq (Lockstep.acceptWord _).lax fun _ => ifThenElse Iff.rfl (.skipWhile ?_) (.pure rfl)
  exact sees (.readBind (Nat.le_succ k) .skipParensFirst fun _ _ _ => (Lockstep.accept _).lax) .refused

protected theorem execTarget : Lax T K line k P ExecTarget.bare execTarget execTarget := by
  refine sees (.bindEq .takeLiteral fun _ => .pure rfl) <| .bind .objectName fun _ _ same => .andThen ?_ (.pure ?_)
  · exact ite .procNumber (.andThen .advance .advance) (.pure rfl)
  · simp [ExecTarget.bare, same]

protected theorem mergeMatch : Lax T K line k P id mergeMatch mergeMatch := by
  refine take (.kind _) (.andThen (.requireWord _) ?_) (.andThen (.requireWord _) (.pure rfl))
  exact take (.kind _) (take (.word _) (.pure rfl) (.andThen (.requireWord _) (.pure rfl))) (.pure rfl)

/-! ### Optional clauses -/

variable (hg : GrammarLock T k g g' L)

include hg

protected theorem outputClause : Lax T K line k P OutputClause.bare (outputClause g) (outputClause g') := by
  refine .position fun _ _ => .andThen (.requireWord _) <| .bind (.separated (.selectItem hg)) fun _ _ same =>
    take (.kind _) ?_ ?_
  · refine .bind .targetName fun into into' sameInto => ?_
    refine iteOr (.kind _) .columnList fun columns columns' sameColumns => .spanned ?_
    simp [OutputClause.bare, same, sameInto, sameColumns]
  · exact .spanned (by simp [OutputClause.bare, same])

protected theorem optionalOutput :
    Lax T K line k P (Option.map OutputClause.bare) (optionalOutput g) (optionalOutput g') :=
  ite (.word _) (.some (.outputClause hg)) (.pure rfl)

protected theorem optionalTop : Lax T K line k P (Option.map TopClause.bare) (optionalTop g) (optionalTop g') :=
  sees (.some (.top hg)) (.pure rfl)

protected theorem optionalFrom : Lax T K line k P (Option.map FromClause.bare) (optionalFrom g) (optionalFrom g') :=
  sees (.some (.fromClause hg)) (.pure rfl)

protected theorem rowFilter : Lax T K line k P (Option.map Expr.bare) (rowFilter g) (rowFilter g') := by
  refine take (.kind _) (ite (.and (.word _) (.nextWord _)) ?_ ?_) (.pure rfl)
  · refine .andThen .advance <| .andThen .advance <| .andThen (.discard (.acceptWord _)) ?_
    exact iteThen (.or (.kind _) (.kind _)) (fun rest => .andThen .advance rest) (.pure rfl)
  · exact .bind hg.expr fun _ _ same => .pure (by simp [same])

/-! ### Assignments -/

protected theorem setClause : Lax T K line k P SetClause.bare (setClause g) (setClause g') := by
  refine .position fun _ _ => sees ?_ <| sees ?_ (blame (.pure rfl))
  · refine .bindEq .takeLiteral fun name => .bindEq .assignOp fun op => .bind (.chainedColumn op) fun _ _ same => ?_
    exact .bind hg.expr fun _ _ sameValue => .spanned (by simp [SetClause.bare, same, sameValue])
  refine .bind ((Lockstep.identExpr hg).mono (Nat.le_succ k)) fun target target' same => ?_
  split
  · obtain ⟨ref, rfl, sameRef⟩ := Expr.column_of_bare same.symm
    refine .bindEq .assignOp fun op => .bind hg.expr fun _ _ sameValue => .spanned ?_
    simp [SetClause.bare, sameRef, sameValue]
  · split
    · obtain ⟨ref, rfl, _⟩ := Expr.column_of_bare same
      simp_all
    · exact blame (.pure rfl)

protected theorem setList :
    Lax T K line k P (List.map SetClause.bare) (setList g) (setList g') := .separated (.setClause hg)

/-! ### Procedure calls -/

protected theorem execParam : Lax T K line k P ExecParam.bare (execParam g) (execParam g') := by
  refine .position fun _ _ => iteJoin id (.and (.kind _) (.nextKind _)) (fun rest => ?_) (.pure rfl) ?_
  · exact .bindEq .takeLiteral fun _ => .andThen .advance <| .bind (.pure rfl) rest
  rintro name _ rfl
  refine takeJoin (Option.map Expr.bare) (.kind _) (fun rest => .bind (.pure rfl) rest) (.some hg.expr)
    fun value value' same => .bindEq .isOutput fun output => .spanned ?_
  simp [ExecParam.bare, same]

protected theorem execText {start start' : Text.Position} [Same K start start'] :
    Lax T K line k P ExecStmt.bare (execText g start) (execText g' start') := by
  refine .bind hg.expr fun sql sql' same => .bind (e := List.map ExecParam.bare) (.collect ?_) fun _ _ sameParams => ?_
  · refine take (.kind _) ?_ .nothing
    refine .position fun _ _ => .bind hg.expr fun _ _ same => .spanFrom fun _ _ => .bindEq .isOutput fun output => .pure ?_
    simp [ExecParam.bare, same]
  refine .required <| iteThen (.and (.kind _) (.or (.nextWord _) (.nextWord _))) (fun rest => ?_) ?_
  · exact .andThen .advance <| .andThen .advance <| .required <| .required rest
  refine takeJoin id (.word _) (fun rest => .andThen (.discard (.acceptWord _)) <| .bind .ident rest) (.pure rfl) ?_
  rintro server _ rfl
  exact .spanned (by simp [ExecStmt.bare, ExecTarget.bare, same, sameParams])

protected theorem exec {must : ExecStmt → ParseState → Prop} :
    Lockstep T K line (k + 1) (At (.keyword .EXEC)) must ExecStmt.bare (exec g) (exec g') := by
  refine .position fun _ _ => requireFirst <| take (.kind _) (.execText hg) ?_
  refine iteJoin id (.and (.kind _) (.nextKind _)) (fun rest => ?_) (.pure rfl) ?_
  · exact .bindEq .takeLiteral fun _ => .andThen .advance <| .bind (.pure rfl) rest
  rintro variableName _ rfl
  refine .bind .execTarget fun target target' same => ?_
  refine iteJoin (List.map ExecParam.bare) .execEnd (fun rest => .bind (.pure rfl) rest) (.separated (.execParam hg))
    fun params params' sameParams => .andThen .skipExecOptions <| .spanned ?_
  simp [ExecStmt.bare, same, sameParams]

/-! ### What INSERT writes -/

protected theorem insertSource : Lax T K line k P InsertSource.bare (insertSource g) (insertSource g') := by
  refine take (.kind _) (.bind (.valueRows hg) fun _ _ same => .pure (by simp [InsertSource.bare, same])) ?_
  refine ite (.or (.kind _) (.kind _)) (.bind (hg.query rfl) fun _ _ same => .pure (by simp [InsertSource.bare, same])) ?_
  refine sees (.bind hg.innerQuery fun _ _ same => .pure (by simp [InsertSource.bare, same])) <| sees ?_ ?_
  · exact .bind ((Lockstep.exec hg).mono (Nat.le_succ k)) fun _ _ same => .pure (by simp [InsertSource.bare, same])
  · exact take (.kind _) (.required (.pure rfl)) (blame (.pure rfl))

/-! ### Clauses of MERGE -/

protected theorem mergeDo : Lax T K line k P MergeDo.bare (mergeDo g) (mergeDo g') := by
  refine take (.kind _) ?_ <| take (.kind _) (.pure rfl) <| take (.kind _) ?_ (blame (.pure rfl))
  · exact .required <| .bind (.setList hg) fun _ _ same => .pure (by simp [MergeDo.bare, same])
  · refine iteOr (.kind _) .columnList
      fun columns columns' same => take (.kind _) (.required (.pure (by simp [MergeDo.bare, same]))) ?_
    refine .required <| .required <| .bind (.exprList hg) fun _ _ sameValues => ?_
    exact .required (.pure (by simp [MergeDo.bare, same, sameValues]))

protected theorem mergeWhen {must : MergeWhen → ParseState → Prop} :
    Lockstep T K line (k + 1) (At (.keyword .WHEN)) must MergeWhen.bare (mergeWhen g) (mergeWhen g') := by
  refine .position fun _ _ => requireFirst <| .bindEq .mergeMatch fun rows => ?_
  refine takeOr (.kind _) (.some hg.expr)
    fun condition condition' same => .required <| .bind (.mergeDo hg) fun _ _ sameAction => ?_
  exact .spanned (by simp [MergeWhen.bare, same, sameAction])

protected theorem mergeWhens : Lax T K line k P (List.map MergeWhen.bare) (mergeWhens g) (mergeWhens g') := by
  refine .repeats ⟨.cutOff _, .cutOff _⟩ fun {i i' j} le ih => sees ?_ (.pure rfl)
  have hg := hg.mono (show j - 1 ≤ k by omega)
  refine .readBind (j := j - 1) (by omega) ((Lockstep.mergeWhen hg).mono (by omega)) fun clause clause' same => ?_
  exact ite .failed (.pure (by simp [same])) (.bind ih.weaken fun _ _ more => .pure (by simp [same, more]))

/-! ### Statements that write -/

section Statements

variable {must : Stmt → ParseState → Prop} {ctes ctes' : Option WithClause} [Same K ctes ctes'] [Whole K ctes]
  (same : ctes.map WithClause.bare = ctes'.map WithClause.bare)

include same

protected theorem insert :
    Lockstep T K line (k + 1) (At (.keyword .INSERT)) must Stmt.bare (insert g ctes) (insert g' ctes') := by
  refine .startWith fun _ _ => requireFirst <| .bind (.optionalTop hg) fun top top' sameTop => ?_
  refine .accepted <| .bind .targetName fun target target' sameTarget => ?_
  refine .andThen (.discard .tableHints) ?_
  refine iteOr (.and (.and (.kind _) (Test.nextKind _).not) (Test.nextKind _).not) .columnList fun columns columns' sameColumns => ?_
  refine .bind (.optionalOutput hg) fun _ _ sameOutput => .bind (.insertSource hg) fun _ _ sameSource => ?_
  refine .spanned ?_
  simp [InsertStmt.bare, same, sameTop, sameTarget, sameColumns, sameOutput, sameSource]

protected theorem update :
    Lockstep T K line (k + 1) (At (.keyword .UPDATE)) must Stmt.bare (update g ctes) (update g' ctes') := by
  refine .startWith fun _ _ => requireFirst <| .bind (.optionalTop hg) fun top top' sameTop => ?_
  refine .bind .targetName fun target target' sameTarget => .andThen (.discard .tableHints) <| .required ?_
  refine .bind (.setList hg) fun _ _ sameSets => .bind (.optionalOutput hg) fun _ _ sameOutput => ?_
  refine .bind (.optionalFrom hg) fun _ _ sameSource => .bind (.rowFilter hg) fun _ _ sameFilter => ?_
  refine .andThen .skipOption <| .spanned ?_
  simp [UpdateStmt.bare, same, sameTop, sameTarget, sameSets, sameOutput, sameSource, sameFilter]

protected theorem delete :
    Lockstep T K line (k + 1) (At (.keyword .DELETE)) must Stmt.bare (delete g ctes) (delete g' ctes') := by
  refine .startWith fun _ _ => requireFirst <| .bind (.optionalTop hg) fun top top' sameTop => ?_
  refine .accepted <| .bind .targetName fun target target' sameTarget => ?_
  refine .andThen (.discard .tableHints) <| .bind (.optionalOutput hg) fun _ _ sameOutput => ?_
  refine .bind (.optionalFrom hg) fun _ _ sameSource => .bind (.rowFilter hg) fun _ _ sameFilter => ?_
  refine .andThen .skipOption <| .spanned ?_
  simp [DeleteStmt.bare, same, sameTop, sameTarget, sameOutput, sameSource, sameFilter]

protected theorem merge :
    Lockstep T K line (k + 1) (At (.keyword .MERGE)) must Stmt.bare (merge g ctes) (merge g' ctes') := by
  refine .startWith fun _ _ => requireFirst <| .andThen (.discard (.optionalTop hg)) ?_
  refine .accepted <| .bind .targetName fun target target' sameTarget => ?_
  refine .andThen (.discard .tableHints) <| .bindEq .tableAlias fun targetAlias => .andThen (.requireWord _) ?_
  refine .bind ((Lockstep.tableRef hg).mono (Nat.le_succ k)) fun _ _ sameSource => .required ?_
  refine .bind hg.expr fun _ _ sameOn => .bind (.mergeWhens hg) fun whens whens' sameWhens => ?_
  refine ifBlame (isEmpty_congr sameWhens) ?_
  refine .bind (.optionalOutput hg) fun _ _ sameOutput => .andThen .skipOption <| .spanned ?_
  simp [MergeStmt.bare, same, sameTarget, sameSource, sameOn, sameWhens, sameOutput]

end Statements

end Lockstep

end Parse

end ColumnFlow
