import ColumnFlow.Proofs.LockstepDefine

/-!
# Control flow, transactions, variables and cursors in lockstep
-/

namespace ColumnFlow

theorem Expr.subquery_of_bare {e : Expr} {span : Text.Span} {query : Query} (h : e.bare = .subquery span query) :
    ∃ span' query', e = .subquery span' query' ∧ query'.bare = query := by
  cases e <;> simp at h
  exact ⟨_, _, rfl, h.2⟩

namespace Parse

namespace Lockstep

variable {T : Tails} {L K : Facts} [K.Extends L] {line : Bool} {k : Nat} {P : Nat → ParseState → Prop} {g g' : Grammar}
  {must : Stmt → ParseState → Prop}

/-! ### Parts without the grammar -/

protected theorem transaction [Inside T P] : Lockstep T K line (k + 1) P must Stmt.bare transaction transaction := by
  refine .position fun _ _ => takeFirst fun action => .andThen (.discard (.acceptWord _)) ?_
  refine .bindEq (Lockstep.accept _).lax fun _ => ifThen Iff.rfl (fun rest => .andThen (.discard (.acceptWord _)) rest) ?_
  refine iteOr (.and (.or (.kind _) (.kind _)) .sameLine) .takeLiteral ?_
  rintro name _ rfl
  refine iteThen (.and (.kind _) (.nextWord _)) (fun rest => ?_) (.spanned rfl)
  exact .andThen .advance <| .andThen .advance <| .accepted rest

protected theorem other [Inside T P] : Lockstep T K line (k + 1) P must Stmt.bare other other :=
  .position fun _ _ => takeFirst fun _ => .andThen .skipStatement <| .spanned rfl

/-- The words of an option end with its line, which both runs see. -/
protected theorem setOption {start start' : Text.Position} [Same K start start'] :
    Lax T K true k P Stmt.bare (setOption start) (setOption start') := by
  refine .bindEq .takeLiteral fun option => .bind (e := List.map id) (.collect (unlessEnd (j := 0) ?_ ?_ .nothing ?_)) ?_
  · intro s ends
    simp [ends]
  · have ends : Test T true 1 0 fun s => s.current.kind.endsBatch := (Test.anyKind _ rfl).raise (Nat.zero_le 1)
    have semicolon : Test T true 1 0 fun s => s.current.kind == Symbol.semicolon :=
      ((Test.kind _).weaken (Nat.zero_le 1)).raise (Nat.zero_le 1)
    have starts : Test T true 1 0 fun s => s.current.kind.startsStatement := (Test.anyKind _ rfl).raise (Nat.zero_le 1)
    exact ((ends.or semicolon).or (Test.sameLine.not.weaken (Nat.zero_le 1))).or starts
  · exact (takeFirst fun _ => .pure rfl).mono (Nat.le_succ k)
  · intro words words' same
    obtain rfl : words = words' := by simpa using same
    exact .spanned rfl

protected theorem variableNames : Lax T K line k P id variableNames variableNames := by
  refine .repeats ⟨.cutOff _, .cutOff _⟩ fun {i i' j} le ih => sees ?_ (.pure rfl)
  exact .bindEq .takeLiteral fun _ => takeIn (j := j - 1) (by omega) (.kind _) (.bindEq ih fun _ => .pure rfl) (.pure rfl)

protected theorem jump [Inside T P] : Lockstep T K line (k + 1) P must Stmt.bare jump jump :=
  .position fun _ _ => takeFirst fun _ => .spanned rfl

protected theorem goto [Inside T P] : Lockstep T K line (k + 1) P must Stmt.bare goto goto :=
  .position fun _ _ => advanceFirst <| .bindEq .ident fun _ => .spanned rfl

protected theorem label [Inside T P] : Lockstep T K line (k + 1) P must Stmt.bare label label :=
  .position fun _ _ => takeFirst fun _ => .andThen .advance <| .spanned rfl

protected theorem useDatabase [Inside T P] : Lockstep T K line (k + 1) P must Stmt.bare useDatabase useDatabase :=
  .position fun _ _ => advanceFirst <| .bindEq .ident fun _ => .spanned rfl

/-! ### Branches and blocks -/

variable (hg : GrammarLock T k g g' L)

include hg

theorem branchStmt : Lax T K line k P Stmt.bare (Parse.branch g) (Parse.branch g') :=
  ite (.anyKind TokenKind.endsBranch rfl) (blame (.pure rfl)) hg.stmt.lax

protected theorem ifElse : Lockstep T K line (k + 1) (At (.keyword .IF)) must Stmt.bare (ifElse g) (ifElse g') := by
  refine .position fun _ _ => requireFirst <| .bind hg.expr fun _ _ same => .bind (branchStmt hg) fun _ _ sameYes => ?_
  refine iteThen (.and (.kind _) (.nextKind _)) (fun rest => .andThen .advance rest) ?_
  refine takeOr (.kind _) (.some (branchStmt hg)) fun no no' sameNo => .spanned ?_
  simp [same, sameYes, sameNo]

theorem whileLoop : Lockstep T K line (k + 1) (At (.keyword .WHILE)) must Stmt.bare (Parse.loop g) (Parse.loop g') := by
  refine .position fun _ _ => requireFirst <| .bind hg.expr fun _ _ same => .bind (branchStmt hg) fun _ _ sameBody => ?_
  exact .spanned (by simp [same, sameBody])

protected theorem block : Lockstep T K line (k + 1) (At (.keyword .BEGIN)) must Stmt.bare (block g) (block g') := by
  refine .position fun _ _ => requireFirst <| .bind (.blockBody hg) fun _ _ same => .required ?_
  exact .spanned (by simp [same])

protected theorem tryCatch :
    Lockstep T K line (k + 1) (At (.keyword .BEGIN)) must Stmt.bare (tryCatch g) (tryCatch g') := by
  have body : ∀ {K : Facts} [K.Extends L] {line} word, Lax T K line k Anywhere (List.map Stmt.bare)
      (do requireWord word; let body ← blockBody g; require Keyword.END; requireWord word; return body)
      (do requireWord word; let body ← blockBody g'; require Keyword.END; requireWord word; return body) := fun word =>
    .andThen (.requireWord _) <| .bind (.blockBody hg) fun _ _ same =>
      .required <| .andThen (.requireWord _) (.pure same)
  refine .position fun _ _ => .readBind (Nat.le_refl _) (requireFirst (body _)) fun _ _ same => ?_
  refine .bind (.required (body _)) fun _ _ same' => .spanned ?_
  simp [same, same']

protected theorem begins : Lockstep T K line (k + 1) (At (.keyword .BEGIN)) must Stmt.bare (begins g) (begins g') :=
  iteIn (.nextWord _) (.tryCatch hg) <| iteIn (.or (.nextKind _) (.nextWord _)) .transaction <|
    iteIn (.or (.nextWord _) (.nextWord _)) .other (.block hg)

protected theorem returnStmt :
    Lockstep T K line (k + 1) (At (.keyword .RETURN)) must Stmt.bare (returnStmt g) (returnStmt g') := by
  refine .position fun _ _ => requireFirst <| ite (.and (.or (.kind _) (.kind _)) .inlineFunction) ?_ ?_
  · exact .bind hg.innerQuery fun _ _ same => .spanned (by simp [same])
  refine unlessEnd ?_ (statementEnd_test.raise (Nat.zero_le 1)) (.spanned rfl) ?_
  · intro s ends
    rcases (TokenKind.endsBatch_iff _).mp ends with kind | kind <;> rw [kind] <;> rfl
  refine lookEq (fun step within => step.inline (Inside.pos step within)) fun inline => ?_
  refine .bind hg.expr fun value value' same => ?_
  have sameInner : value.unparen.bare = value'.unparen.bare := by
    rw [← Expr.unparen_bare, same, Expr.unparen_bare]
  have plain : ∀ {K : Facts} {P} (start start' : Text.Position) [Same K start start'] [Same K value value'] [Whole K value],
      Lax T K true k P Stmt.bare
      (Parse.spanFrom start >>= fun span => pure (Stmt.return span (some value) none))
      (Parse.spanFrom start' >>= fun span => pure (Stmt.return span (some value') none)) := fun _ _ _ _ _ =>
    .spanned (by simp [same])
  split
  · rename_i query inner
    rw [inner, Expr.bare] at sameInner
    obtain ⟨_, query', inner', sameQuery⟩ := Expr.subquery_of_bare sameInner.symm
    have : ∀ {K : Facts} [Same K value value'], Same K query query' := fun {K} [same : Same K value value'] =>
      ⟨fun known => by
        have unparen := congrArg Expr.unparen (same.eq known)
        rw [inner, inner'] at unparen
        exact (Expr.subquery.inj unparen).2⟩
    have : ∀ {K : Facts} [Whole K value], Whole K query := fun {K} [filled : Whole K value] =>
      ⟨fun known => by
        have complete : value.unparen.Complete := Expr.Complete.unparen (filled.holds known)
        rw [inner] at complete
        cases complete
        assumption⟩
    rw [inner']
    exact ifThenElse Iff.rfl (.spanned (by simp [sameQuery])) (plain _ _)
  · rename_i other
    split
    · rename_i query inner
      rw [inner, Expr.bare] at sameInner
      obtain ⟨_, query', inner', _⟩ := Expr.subquery_of_bare sameInner
      exact absurd inner' (other _ _)
    · exact plain _ _

protected theorem raise [Inside T P] : Lockstep T K line (k + 1) P must Stmt.bare (raise g) (raise g') := by
  refine .position fun _ _ => takeFirst fun literal => ifThenElse Iff.rfl ?_ <| ite statementEnd_test ?_ ?_
  · refine .required <| .bind (.exprList hg) fun _ _ same => .required ?_
    refine takeThen (.kind _) (fun rest => .andThen (.skipWhile ?_) rest) <| .spanned ?_
    · exact take (.kind _) (Lockstep.accept _).lax .refused
    · simp [same]
  · exact .spanned rfl
  · exact .bind (.exprList hg) fun _ _ same => .spanned (by simp [same])

protected theorem print [Inside T P] : Lockstep T K line (k + 1) P must Stmt.bare (print g) (print g') :=
  .position fun _ _ => advanceFirst <| .bind hg.expr fun _ _ same => .spanned (by simp [same])

/-! ### Variables and options -/

protected theorem set : Lockstep T K line (k + 1) (At (.keyword .SET)) must Stmt.bare (set g) (set g') := by
  refine .position fun _ _ => requireFirst <| ite (.and (.kind _) .nextAssigns) ?_ .setOption
  refine .bindEq .takeLiteral fun name => .bindEq .assignOp fun op => sees ?_ ?_
  · exact .andThen .skipStatement <| .spanned rfl
  · exact .bind hg.expr fun _ _ same => .spanned (by simp [same])

/-! ### Cursors -/

protected theorem skipFetchRow : Lax T K line k P (fun _ => ()) (skipFetchRow g) (skipFetchRow g') := by
  refine ite (.words _) (.andThen .advance (.discard (.accept _))) <| iteThen (.words _) (fun rest => ?_) (.discard (.accept _))
  exact .andThen .advance <| .andThen (.discard hg.expr) rest

protected theorem cursor [Inside T P] : Lockstep T K line (k + 1) P must Stmt.bare (cursor g) (cursor g') := by
  refine .position fun _ _ => lookEq (fun step _ => (Test.kind Keyword.FETCH).agree (Nat.zero_le _) step) fun isFetch => ?_
  refine .starting (takeFirst fun action => ?_) fun _ _ p => p.1
  refine ifThen Iff.rfl (fun rest => .andThen (.skipFetchRow hg) rest) <| .andThen (.discard (.acceptWord _)) ?_
  refine .bindEq (ite (.or (.kind _) (.kind _)) .takeLiteral (.andThen .expectedIdentifier (.pure rfl))) fun name => ?_
  refine ifJoin id Iff.rfl (fun _ rest => .bind (Lockstep.accept _).lax rest) (.pure rfl) ?_
  rintro hasInto _ rfl
  refine ifJoin id Iff.rfl (fun _ rest => .bind .variableNames rest) (.pure rfl) ?_
  rintro into _ rfl
  exact .spanned rfl

end Lockstep

end Parse

end ColumnFlow
