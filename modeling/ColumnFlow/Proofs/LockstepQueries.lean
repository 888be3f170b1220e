import ColumnFlow.Proofs.LockstepTables

/-!
# Queries in lockstep
-/

namespace ColumnFlow

theorem Expr.star_of_bare {e : Expr} {span : Text.Span} {table : String} (h : e.bare = .star span table) :
    ∃ span', e = .star span' table := by
  cases e <;> simp at h
  exact ⟨_, by rw [h.2]⟩

namespace Parse

theorem Test.nextAssigns {T : Tails} {line : Bool} :
    Test T line 1 2 fun s => s.next.kind == Symbol.eq || s.next.kind.isCompoundAssign :=
  .or (.nextKind _) <| .next (p := fun t => t.kind.isCompoundAssign) ⟨fun alike => by rw [alike.kind], fun {t} ends => by
    rcases (TokenKind.endsBatch_iff _).mp ends with kind | kind <;> simp [kind, TokenKind.isCompoundAssign]⟩

namespace Lockstep

variable {T : Tails} {L K : Facts} [K.Extends L] {line : Bool} {j k : Nat} {P : Nat → ParseState → Prop} {g g' : Grammar}

/-! ### Parts without the grammar -/

protected theorem itemAlias : Lax T K line k P id itemAlias itemAlias :=
  take (.kind _) .aliasAfterAs <| ite (.or (.kind _) .implicitAlias) .takeLiteral (.pure rfl)

protected theorem startWith {α γ : Type} [HasHoles α] {must : α → ParseState → Prop} {e : α → γ}
    {ctes ctes' : Option WithClause} [Same K ctes ctes'] {F F' : Text.Position → Parse α}
    (rest : ∀ p p', Lockstep T (K.learn p p') line k P must e (F p) (F' p')) :
    Lockstep T K line k P must e (startWith ctes >>= F) (startWith ctes' >>= F') := by
  let start (ctes : Option WithClause) (s : ParseState) : Text.Position := (ctes.map (·.span.start)).getD s.current.start
  have eq (ctes : Option WithClause) : startWith ctes = fun s => (start ctes s, s) := by cases ctes <;> rfl
  rw [eq, eq]
  exact look rest

protected theorem skipForOptions : Lax T K line k P (fun _ => ()) skipForOptions skipForOptions :=
  .discard (scanKind (fun _ h => by simp only [h]) fun _ h => by simp [h, TokenKind.endsBatch])

protected theorem skipRowWord : Lax T K line k P (fun _ => ()) skipRowWord skipRowWord :=
  .bindEq (Lockstep.acceptWord _).lax fun _ => ifThenElse Iff.rfl (.discard (.acceptWord _)) (.pure rfl)

protected theorem skipOption : Lax T K line k P (fun _ => ()) skipOption skipOption :=
  ite (.and (.kind _) (.nextKind _)) (.andThen .advance .skipParens) (.pure rfl)

/-! ### Common tables -/

variable (hg : GrammarLock T k g g' L)

include hg

protected theorem commonTable : Lax T K line k P CommonTable.bare (commonTable g) (commonTable g') := by
  refine .position fun _ _ => .bindEq .ident fun name => ?_
  refine iteOr (.kind _) .identList ?_
  rintro columns _ rfl
  refine .required <| .required <| .bind hg.innerQuery fun _ _ same => .required ?_
  exact .spanned (by simp [CommonTable.bare, same])

protected theorem withClause {must : WithClause → ParseState → Prop} :
    Lockstep T K line (k + 1) (At (.keyword .WITH)) must WithClause.bare (withClause g) (withClause g') := by
  refine .position fun _ _ => requireFirst <| .bind (.separated (.commonTable hg)) fun _ _ same => ?_
  exact .spanned (by simp [WithClause.bare, same])

/-! ### Select lists -/

protected theorem top : Lax T K line k P TopClause.bare (top g) (top g') := by
  refine .required <| takeJoin Expr.bare (.kind _) (fun rest => ?_)
    ((Lockstep.primary hg).mono (Nat.le_succ k)) fun count count' same => ?_
  · exact .bind hg.expr fun _ _ same => .required <| .resume rest same
  refine .bindEq (Lockstep.acceptWord _).lax fun percent => ?_
  refine .bindEq (ite (.and (.kind _) (.nextWord _)) (.andThen .advance (.andThen .advance (.pure rfl))) (.pure rfl)) ?_
  exact fun withTies => .pure (by simp [TopClause.bare, same])

protected theorem selectItem : Lax T K line k P SelectItem.bare (selectItem g) (selectItem g') := by
  refine .position fun _ _ => take (.kind _) (.spanned rfl) ?_
  refine ite (.and (.kind _) .nextAssigns) ?_ <| ite (.and (.or (.kind _) (.kind _)) (.nextKind _)) ?_ ?_
  · refine .bindEq .takeLiteral fun name => .andThen .advance <| .bind hg.expr fun _ _ same => ?_
    exact .spanned (by simp [same])
  · refine .bindEq .takeLiteral fun name => .andThen .advance <| .bind hg.expr fun _ _ same => ?_
    exact .spanned (by simp [same])
  refine .bind hg.expr fun value value' same => ?_
  split
  · obtain ⟨_, rfl⟩ := Expr.star_of_bare same.symm
    exact .spanned rfl
  · obtain ⟨_, rfl⟩ := Expr.star_of_bare same.symm
    split
    · simp_all
    · rename_i star
      obtain ⟨rfl, rfl⟩ := Expr.star.inj star
      exact .spanned rfl
    · simp_all
  · split
    · obtain ⟨_, rfl⟩ := Expr.star_of_bare same
      simp_all
    · obtain ⟨_, rfl⟩ := Expr.star_of_bare same
      simp_all
    · exact .bindEq .itemAlias fun aliasName => .spanned (by simp [same])

/-! ### Query blocks -/

protected theorem groupBy : Lax T K line k P (List.map Expr.bare) (groupBy g) (groupBy g') := by
  refine .accepted <| .bind (e := List.map (Option.map Expr.bare)) (.separated ?_) ?_
  · refine ite (.and (.word _) (.nextWord _)) ?_ (.bind hg.expr fun _ _ same => .pure (by simp [same]))
    exact .andThen .advance <| .andThen .advance <| .andThen .skipParens (.pure rfl)
  · intro found found' same
    refine iteThen (.and (.kind _) (.or (.nextWord _) (.nextWord _))) ?_ (.pure (filterMap_congr same))
    exact fun rest => .andThen .advance (.andThen .advance rest)

protected theorem selectClauses {start start' : Text.Position} [Same K start start'] :
    Lax T K line k P SelectCore.bare (selectClauses g start) (selectClauses g' start') := by
  refine .bindEq (Lockstep.accept _).lax fun distinct => ?_
  refine ifThen Iff.rfl (fun rest => .accepted rest) ?_
  refine iteOr (.kind _) (.some (.top hg))
    fun top top' sameTop => bindSeparated (.selectItem hg) fun columns columns' sameColumns => ?_
  refine takeOr (.kind _) (.some .targetName) fun into into' sameInto => ?_
  refine iteOr (.kind _) (.some (.fromClause hg)) fun source source' sameSource => ?_
  refine takeOr (.kind _) (.some hg.expr) fun filter filter' sameFilter => ?_
  refine takeJoin (List.map Expr.bare) (.kind _) (fun rest => .required <| .bind (.groupBy hg) rest)
    (.pure rfl) fun groups groups' sameGroups => ?_
  refine takeOr (.kind _) (.some hg.expr) fun having having' sameHaving => .spanned ?_
  simp [SelectCore.bare, sameTop, sameColumns, sameInto, sameSource, sameFilter, sameGroups, sameHaving]

protected theorem selectCore : Lax T K line (k + 1) P SelectCore.bare (selectCore g) (selectCore g') :=
  .position fun _ _ => expectRead (.selectClauses hg) (.pure rfl)

theorem parenOperand :
    Lax T K line k P SelectBody.bare (do let inner ← g.query none; require Symbol.rparen; return inner.body)
      (do let inner ← g'.query none; require Symbol.rparen; return inner.body) := by
  refine .bind (hg.query rfl) fun inner inner' same => .required (.pure ?_)
  cases inner
  cases inner'
  simp_all

protected theorem selectOperand : Lax T K line (k + 1) P SelectBody.bare (selectOperand g) (selectOperand g') :=
  .position fun _ _ => takeRead (.kind _) (parenOperand hg) <| .bind (.selectCore hg) fun _ _ same =>
    .spanned (by simp [SelectBody.bare, same])

protected theorem setOperation {start start' : Text.Position} {first first' : SelectBody} [Same K start start']
    [Same K first first'] [Whole K first] (same : first.bare = first'.bare) :
    Lax T K line (k + 1) P SelectBody.bare (setOperation g start first) (setOperation g' start' first') := by
  have alone : ∀ {K : Facts} [Same K start start'] [Same K first first'] [Whole K first] {P},
      Lax T K line (k + 1) P SelectBody.bare
      (Parse.spanFrom start >>= fun span => pure (first.withSpan span))
      (Parse.spanFrom start' >>= fun span => pure (first'.withSpan span)) :=
    .spanned (by simp [SelectBody.bare_withSpan, same])
  refine current ?_ ?_
  · rintro ⟨kind⟩ ⟨⟩ ⟨rfl, rfl, rfl⟩ more
    dsimp only
    have : Inside T (At kind) := inside_at more
    split
    · refine advanceFirst <| .bindEq (Lockstep.accept _).lax fun all => .bind hg.selectBody fun _ _ sameMore => ?_
      refine .bind (.pure (e := SelectBody.bare) ?_) fun body body' same => .spanned ?_
      · simp [SelectBody.bare_append, same, sameMore]
      · simp [SelectBody.bare_withSpan, same]
    · exact alone
  · rintro t t' (kind | kind) (kind' | kind') <;> simp only [kind, kind'] <;> exact alone

protected theorem selectBody : Lax T K line (k + 1) P SelectBody.bare (selectBody g) (selectBody g') :=
  .position fun _ _ => .bind (.selectOperand hg) fun _ _ same => .setOperation hg same

/-- A body that is known to start here. -/
theorem selectBodyFirst {must : SelectBody → ParseState → Prop} {kind : TokenKind}
    (starts : kind = Keyword.SELECT ∨ kind = Symbol.lparen) :
    Lockstep T K line (k + 1) (At kind) must SelectBody.bare (selectBody g) (selectBody g') := by
  refine .position fun _ _ => .readBind (Nat.le_refl _) (.position fun _ _ => ?_) fun _ _ same =>
    (Lockstep.setOperation hg same).mono (Nat.le_succ k)
  rcases starts with rfl | rfl
  · refine takeRead (.kind _) (parenOperand hg) <| .readBind (e := SelectCore.bare) (Nat.le_refl _) ?_ fun _ _ same => ?_
    · exact .position fun _ _ => expectFirst (.selectClauses hg) ⟨.pure _, .pure _⟩
    · exact .spanned (by simp [SelectBody.bare, same])
  · have core : Lax T K line (k + 1) Anywhere SelectCore.bare (selectCore g) (selectCore g') := .selectCore hg
    refine acceptFirst (parenOperand hg) ⟨?_, ?_⟩
    · exact core.left.bind fun _ => .bind (.look _) fun _ => .pure _
    · exact core.right.bind fun _ => .bind (.look _) fun _ => .pure _

/-! ### Trailing clauses -/

protected theorem forClause : Lax T K line (k + 1) (At (.keyword .FOR)) id (forClause g) (forClause g') := by
  refine requireFirst <| currentPast ?_ ?_
  · rintro ⟨⟩ ⟨⟩ ⟨rfl, rfl, rfl⟩
    refine take (.kind _) ?_ (.andThen .advance <| .andThen .skipForOptions (.pure rfl))
    exact takeThen (.word _) (fun rest => .andThen (.discard (.exprList hg)) rest) (.pure rfl)
  · intro t s tokens separator
    have skip : Lax T K line k Anywhere (fun _ => ()) skipForOptions skipForOptions := .skipForOptions
    have skipped : t.Passed (skipForOptions s.advance).2 := (Tail.passed_advance tokens separator).run skip.left
    have noUpdate : (s.current.kind == Keyword.UPDATE) = false :=
      (Token.Sign.kind rfl).ends (Tail.ends_of_tokens tokens)
    constructor <;> rw [accept_eq, taken_bind, either_neg noUpdate] <;> exact skipped

protected theorem fetchClause : Lax T K line k P (Option.map Expr.bare) (fetchClause g) (fetchClause g') := by
  refine take (.kind _) (.bindEq (Lockstep.acceptWord _).lax fun _ => ?_) (.pure rfl)
  refine ifThen Iff.rfl (fun rest => .andThen (.requireWord _) rest) <| .bind hg.expr fun _ _ same => ?_
  exact .andThen .skipRowWord <| .andThen (.requireWord _) (.pure (by simp [same]))

section Query

variable {start start' : Text.Position} {ctes ctes' : Option WithClause} [Same K ctes ctes'] [Whole K ctes]

protected theorem queryClauses [Same K start start'] {body body' : SelectBody} [Same K body body'] [Whole K body]
    (same : ctes.map WithClause.bare = ctes'.map WithClause.bare) (sameBody : body.bare = body'.bare) :
    Lax T K line (k + 1) P Query.bare (queryClauses g start ctes body) (queryClauses g' start' ctes' body') := by
  refine seesJoin (List.map OrderItem.bare) (fun rest => .bind (orderByFirst hg) rest) (.pure rfl)
    fun items items' sameItems => ?_
  refine takenBind (.word _) fun hasOffset l le below => ?_
  refine ifJoin (Option.map Expr.bare) Iff.rfl (fun read rest => ?_) (.pure rfl) fun offset offset' sameOffset => ?_
  · exact .bind (hg.mono (below read)).expr fun _ _ same => .andThen .skipRowWord <| .resume rest (by simp [same])
  refine ifJoin (Option.map Expr.bare) Iff.rfl (fun read rest => ?_) (.pure rfl) fun fetch fetch' sameFetch => ?_
  · exact .bind (.fetchClause (hg.mono (below read))) rest
  refine .mono ?_ le
  refine seesJoin id (fun rest => .bind (.forClause hg) rest) (.pure rfl) ?_
  rintro mode _ rfl
  refine .andThen .skipOption <| .spanned ?_
  simp [same, sameBody, sameItems, sameOffset, sameFetch]

protected theorem query (same : ctes.map WithClause.bare = ctes'.map WithClause.bare) :
    Lax T K line (k + 1) P Query.bare (query g ctes) (query g' ctes') :=
  .startWith fun _ _ => .nested (by simp [Query.missing, same]) <|
    .bind (.selectBody hg) fun _ _ sameBody => .queryClauses hg same sameBody

/-- A query that is known to start here reads a token, unless it is nested too deep. -/
theorem queryFirst (same : ctes.map WithClause.bare = ctes'.map WithClause.bare)
    {kind : TokenKind} (starts : kind = Keyword.SELECT ∨ kind = Symbol.lparen) :
    Lockstep T K line (k + 1) (At kind) (fun _ s => s.failed = false) Query.bare (query g ctes) (query g' ctes') := by
  refine .startWith fun _ _ => nestedIn (by simp [Query.missing, same]) id (fun _ _ => id) id ?_
  exact .readBind (Nat.le_refl _) (selectBodyFirst hg starts) fun _ _ sameBody =>
    (Lockstep.queryClauses hg same sameBody).mono (Nat.le_succ k)

end Query

end Lockstep

end Parse

end ColumnFlow
