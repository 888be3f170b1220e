import ColumnFlow.Proofs.LockstepExpressions

/-!
# Table sources in lockstep
-/

namespace ColumnFlow

namespace Parse

theorem Test.legacyHint {T : Tails} {line : Bool} :
    Test T line 0 2 fun s =>
      s.current.kind == Symbol.lparen && s.next.kind == .ident && legacyHints.contains (Text.upper s.next.literal) := by
  have hint : Token.Sign fun t => t.kind == .ident && legacyHints.contains (Text.upper t.literal) :=
    ⟨fun alike => by rw [alike.kind, alike.literal], fun ends => by
      rw [(Token.Sign.kind (show TokenKind.ident.endsBatch = false from rfl)).ends ends, Bool.false_and]⟩
  simpa only [Bool.and_assoc] using (Test.kind Symbol.lparen).and (.next hint)

theorem Test.joinHint {T : Tails} {line : Bool} :
    Test T line 0 1 fun s => joinHintWords.any s.current.isWord || s.current.kind == Keyword.MERGE :=
  .or (.words _) (.kind _)

namespace Lockstep

variable {T : Tails} {L K : Facts} [K.Extends L] {line : Bool} {j k : Nat} {P : Nat → ParseState → Prop} {g g' : Grammar}
  {must : TableRef → ParseState → Prop}

/-! ### Parts without the grammar -/

protected theorem hintNames : Lax T K line k P id hintNames hintNames := by
  refine .bind (e := List.map id) (.collect ?_) fun found found' same =>
    .pure (by simpa using congrArg (List.filterMap id) same)
  refine unlessClosed .nothing ?_ ?_
  · refine sees (.readBind (Nat.le_succ k) .skipParensFirst fun _ _ _ => .pure rfl) <| sees ?_ (.advancePast (.pure rfl))
    exact mono (takeFirst fun literal => .pure rfl) (Nat.le_succ k)
  · intro t s tokens separator
    have current := Tail.current_of_tokens tokens
    have passed : t.Passed s.advance := Tail.passed_advance tokens separator
    have other : ∀ {kind : TokenKind}, kind.endsBatch = false → (s.current.kind == kind) = false := fun h =>
      (Token.Sign.kind h).ends (current ▸ t.ends)
    rw [sees_bind, other rfl, if_neg Bool.false_ne_true, sees_bind, other rfl, if_neg Bool.false_ne_true]
    exact ⟨passed, passed⟩

protected theorem tableHints : Lax T K line k P id tableHints tableHints := by
  have bracketed : ∀ {P}, Lax T K line k P id tableHints.bracketed tableHints.bracketed :=
    .required <| .bindEq .hintNames fun _ => .required (.pure rfl)
  exact ite (.and (.kind _) (.nextKind _)) (.andThen .advance bracketed) (ite .legacyHint bracketed (.pure rfl))

protected theorem skipSample : Lax T K line k P (fun _ => ()) skipSample skipSample := by
  refine take (.word _) (.andThen (.discard (.acceptWord _)) <| .andThen .skipParens ?_) (.pure rfl)
  exact take (.word _) .skipParens (.pure rfl)

protected theorem withSchema : Lax T K line k P id withSchema withSchema := by
  refine .required <| .required <|
    Loose.closeLoop (.repeats ⟨.cutOff _, .cutOff _⟩ fun {i i' j} _ ih => ?_) fun _ _ same => .pure same
  refine .unlessClosed (.ofLockstep (.pure rfl)) <| .bind (.ofLockstep .ident) ?_
  rintro column _ rfl
  refine .bind (.ofLockstep .skipElement) fun _ _ _ => ?_
  refine .takeIn (j := j - 1) (by omega) (.kind _) (.bind ih.weaken ?_) (.ofLockstep (.pure rfl))
  rintro columns _ rfl
  exact .ofLockstep (.pure rfl)

protected theorem remoteArgs : Lax T K line k P (List.map Expr.bare) remoteArgs remoteArgs := by
  refine sees ?_ (blame (.pure rfl))
  refine .andThen .advance <| .bind (e := fun found => (found.1, found.2.map Expr.bare)) (.scan _ ?_ ?_ ?_ ?_) ?_
  · rintro n s s' ⟨depth, found⟩ ⟨depth', found'⟩ same step
    simp only [Prod.mk.injEq] at same
    obtain ⟨rfl, same⟩ := same
    simp only [step.alike.kind, step.alike.literal]
    split
    · rfl
    · split <;> simp [same]
  · rintro s s' ⟨depth, found⟩ ⟨depth', found'⟩ same separator separator'
    simp only [Prod.mk.injEq] at same
    obtain ⟨rfl, same⟩ := same
    simp only [separator, separator']
    split <;> simp [same]
  · rintro s ⟨depth, found⟩ eof
    simp [eof]
  · rintro s ⟨depth, found⟩ ⟨depth', found'⟩ turn ⟨_, all⟩
    refine ⟨trivial, ?_⟩
    dsimp only at turn
    split at turn
    · simp at turn
    · split at turn <;> simp only [Option.some.injEq, Prod.mk.injEq, reduceCtorEq] at turn <;> obtain ⟨_, rfl⟩ := turn
      · exact all
      · exact all
      · exact List.forall_mem_cons.mpr ⟨.literal _ _ _, all⟩
      · exact all
  · rintro ⟨_, found⟩ ⟨_, found'⟩ same
    simp only [Prod.mk.injEq] at same
    exact .pure (by simp [same.2])

protected theorem remoteTable [Inside T P] :
    Lockstep T K line (k + 1) P must TableRef.bare remoteTable remoteTable := by
  refine .position fun _ _ => tokenFirst ?_
  rintro ⟨⟩ ⟨⟩ ⟨rfl, rfl, rfl⟩
  refine .bind .remoteArgs fun args args' sameArgs => ?_
  refine iteJoin (Option.map ObjectName.bare) (.kind _) (fun rest => ?_) (.pure rfl) fun object object' sameObject => ?_
  · exact .position fun _ _ => .bindEq .dottedParts fun parts => .spanFrom fun _ _ => .resume rest rfl
  refine iteThen (.and (.kind _) (.nextKind _)) (fun rest => .andThen .advance <| .andThen .skipParens rest) ?_
  refine .bindEq .tableAlias fun aliasName => ?_
  refine iteThen (.and (.const _) (.kind _)) (fun rest => .andThen .skipParens rest) ?_
  exact .spanned (by simp [sameArgs, sameObject])

protected theorem skipJoinHint : Lax T K line k P (fun _ => ()) skipJoinHint skipJoinHint :=
  ite .joinHint .advance (.pure rfl)

protected theorem joinKind : Lockstep T K line k P (fun o _ => o.isSome = true) id joinKind joinKind := by
  have outer : ∀ {K : Facts} {P : Nat → ParseState → Prop} [Inside T P] kind,
      Lockstep T K line k P (fun o _ => o.isSome = true) id (joinKind.outer kind) (joinKind.outer kind) := fun kind =>
    advanceIn (Nat.le_succ k) id <| .accepted <| .andThen .skipJoinHint <|
      .required (.pure rfl)
  have none : ∀ {K P}, Lockstep T K line k P (fun o _ => o.isSome = true) id
      (pure none : Parse (Option JoinKind)) (pure none) :=
    pureFree rfl fun _ => nofun
  have hinted : ∀ {K P}, Lockstep T K line k P (fun o _ => o.isSome = true) id
      (either (fun s => (joinHintWords.any s.current.isWord || s.current.kind == Keyword.MERGE) &&
        s.next.kind == Keyword.JOIN) (do advance; advance; return some JoinKind.inner) (pure Option.none))
      (either (fun s => (joinHintWords.any s.current.isWord || s.current.kind == Keyword.MERGE) &&
        s.next.kind == Keyword.JOIN) (do advance; advance; return some JoinKind.inner) (pure Option.none)) :=
    ite (.and .joinHint (.nextKind _)) (advanceIn (Nat.le_succ k) id <| .andThen .advance (.pure rfl)) none
  refine current ?_ ?_
  · rintro ⟨⟩ ⟨⟩ ⟨rfl, rfl, rfl⟩ _
    dsimp only
    split
    · exact advanceIn (Nat.le_succ k) id (.pure rfl)
    · exact advanceIn (Nat.le_succ k) id (.pure rfl)
    · exact advanceIn (Nat.le_succ k) id <| .andThen .skipJoinHint <| .required (.pure rfl)
    · exact outer _
    · exact outer _
    · exact outer _
    · exact advanceIn (Nat.le_succ k) id <| take (.kind _) (.pure rfl) (.andThen (.requireWord _) (.pure rfl))
    · exact iteIn (.nextWord _) (advanceIn (Nat.le_succ k) id <| .andThen .advance (.pure rfl)) none
    · exact hinted
  · rintro t t' (kind | kind) (kind' | kind') <;> simp only [kind, kind'] <;> exact hinted

variable (hg : GrammarLock T k g g' L)

include hg

protected theorem valueRows : Lax T K line k P (List.map (List.map Expr.bare)) (valueRows g) (valueRows g') :=
  .separated <| .required <| .bind (.exprList hg) fun _ _ same => .required (.pure same)

/-! ### Clauses after a table -/

protected theorem skipTemporal : Lax T K line k P (fun _ => ()) (skipTemporal g) (skipTemporal g') := by
  have primary : ∀ {P}, Lax T K line k P (fun _ => ()) (discard (primary g)) (discard (primary g')) :=
    .discard ((Lockstep.primary hg).mono (Nat.le_succ k))
  have range : ∀ {P}, Lax T K line k P (fun _ => ()) (skipTemporal.range g) (skipTemporal.range g') := by
    refine .accepted <| take (.kind _) (.andThen (.discard (.exprList hg)) (.require _)) ?_
    exact .andThen primary <| .bindEq (Lockstep.acceptWord _).lax fun _ =>
      ifThen Iff.rfl (fun rest => .accepted rest) primary
  refine ite (.and (.kind _) (.nextWord _)) (.andThen .advance <| .andThen .advance ?_) (.pure rfl)
  refine take (.kind _) (.andThen (.requireWord _) (.discard hg.expr)) <| take (.kind _) range <| take (.word _) range ?_
  refine take (.kind _) (.andThen primary <| .accepted primary) (.discard (.accept _))

/-! ### Kinds of sources -/

protected theorem variableTable [Inside T P] :
    Lockstep T K line (k + 1) P must TableRef.bare (variableTable g) (variableTable g') := by
  refine .position fun _ _ => takeFirst fun name => .spanFrom fun span span' => ?_
  refine ite (.and (.and (.kind _) (.nextKind _)) (.afterNextKind _)) ?_ ?_
  · refine .andThen .advance <| .bindEq .takeLiteral fun method => .bind (.funcArgs hg _) fun fn fn' same => ?_
    refine .spanFrom fun _ _ => .bindEq .derivedAlias fun (aliasName, columns) => .spanFrom fun _ _ => .pure ?_
    rw [TableRef.bare, TableRef.bare]
    exact congrArg (TableRef.function _ · aliasName columns) (methodCall_bare _ _ same rfl)
  · exact .bindEq .tableAlias fun aliasName => .spanned rfl

protected theorem namedTable :
    Lockstep T K line (k + 1) (At .ident) must TableRef.bare (namedTable g) (namedTable g') := by
  refine .position fun _ _ => .readBind (Nat.le_refl _) .objectNameFirst ?_
  rintro ⟨span⟩ ⟨span'⟩ same
  simp only [ObjectName.bare, ObjectName.mk.injEq, true_and] at same
  obtain ⟨rfl, rfl, rfl, rfl⟩ := same
  refine ite (.and (.kind _) (Test.legacyHint.not.raise (Nat.zero_le 1))) ?_ ?_
  · refine .bind (.funcArgs hg _) fun fn fn' same => .spanFrom fun _ _ => ?_
    refine iteOr (.and (.kind _) (.nextKind _)) .withSchema ?_
    rintro declared _ rfl
    refine .bindEq .derivedAlias fun _ => .spanned ?_
    cases fn
    cases fn'
    simp_all
  · refine .bindEq .tableHints fun before => .andThen (.skipTemporal hg) ?_
    refine .bindEq .tableAlias fun aliasName => .bindEq .tableHints fun after => .andThen .skipSample ?_
    exact .spanned rfl

/-! ### Joins -/

protected theorem join :
    Lockstep T K line k P (fun o _ => o.isSome = true) (Option.map Join.bare) (join g) (join g') := by
  refine .position fun _ _ => Lockstep.joinKind.bindIf Option.isSome (Nat.le_succ k) ?_ ?_
  · rintro (_ | kind) _ rfl found
    · exact absurd found nofun
    refine .bind hg.table fun right right' sameRight => ?_
    refine ifJoin (Option.map Expr.bare) Iff.rfl (fun _ rest => .required <| .bind (.some hg.expr) rest) (.pure rfl)
      fun condition condition' same => .spanned (by simp [Join.bare, sameRight, same])
  · rintro (_ | kind) _ rfl found
    · exact .nothing
    · exact absurd found nofun

protected theorem joins : Lax T K line k P (List.map Join.bare) (joins g) (joins g') := .collect (.join hg)

/-! ### Sources -/

protected theorem parenTable :
    Lockstep T K line (k + 1) (At (.symbol .lparen)) must TableRef.bare (parenTable g) (parenTable g') := by
  refine .position fun _ _ => iteIn (j := 2) ?_ ?_ <| iteIn (.nextKind _) ?_ ?_
  · exact .or (.or (.nextKind _) (.nextKind _))
      ((Test.nextKind _).and ((Test.afterNextKind _).or (.afterNextKind _)) |>.weaken (Nat.le_succ 2))
  · refine advanceFirst <| .bind hg.innerQuery fun _ _ same => .required ?_
    exact .bindEq .derivedAlias fun (aliasName, columns) => .spanned (by simp [same])
  · refine advanceFirst <| .andThen .advance <| .bind (.valueRows hg) fun _ _ same => .required ?_
    exact .bindEq .derivedAlias fun (aliasName, columns) => .spanned (by simp [same])
  · refine advanceFirst <| .bind hg.table fun _ _ same => .bind (.joins hg) fun _ _ sameJoins => ?_
    refine .spanFrom fun _ _ => .required <| .spanned ?_
    simp [same, sameJoins]

protected theorem pivot [Inside T P] {start start' : Text.Position} {source source' : TableRef}
    [Same K start start'] [Same K source source'] [Whole K source]
    (same : source.bare = source'.bare) :
    Lockstep T K line (k + 1) P must TableRef.bare (pivot g start source) (pivot g' start' source') := by
  refine takeFirst fun name => .required <| .bind hg.expr fun _ _ aggregate => .required ?_
  refine .bind hg.expr fun _ _ values => .required <| .spanFrom fun _ _ => ?_
  refine .bindEq .derivedAlias fun (aliasName, columns) => .spanned ?_
  simp [FuncCall.named, aggregate, values, same]

protected theorem pivots {start start' : Text.Position} {source source' : TableRef} [Same K start start']
    [Same K source source'] [Whole K source] (same : source.bare = source'.bare) :
    Lax T K line (k + 1) P TableRef.bare (pivots g start source) (pivots g' start' source') := by
  refine loop TableRef.bare (pivots.go g start) (pivots.go g' start') (fun _ _ => ⟨.cutOff _, .cutOff _⟩) ?_ _ _ same
  intro i i' j le ih source source' same
  refine ite (.or (.word _) (.word _)) ?_ (.pure same)
  have hg := hg.mono (show j - 1 ≤ k by omega)
  exact .readBind (j := j - 1) (by omega) ((Lockstep.pivot hg same).mono (by omega)) fun t t' same => (ih t t' same).weaken

protected theorem tableRef : Lax T K line (k + 1) P TableRef.bare (tableRef g) (tableRef g') := by
  refine .nested rfl <| .position fun _ _ => current ?_ ?_
  · rintro ⟨⟩ ⟨⟩ ⟨rfl, rfl, rfl⟩ _
    dsimp only
    split
    · exact .bind (.parenTable hg) fun _ _ same => .pivots hg same
    iterate 3 exact .bind .remoteTable fun _ _ same => .pivots hg same
    · exact .bind (.variableTable hg) fun _ _ same => .pivots hg same
    · exact .bind (.namedTable hg) fun _ _ same => .pivots hg same
    · exact blame (.pure rfl)
  · rintro t t' (kind | kind) (kind' | kind') <;> simp only [kind, kind'] <;> exact blame (.pure rfl)

protected theorem fromClause : Lax T K line k P FromClause.bare (fromClause g) (fromClause g') := by
  refine .position fun _ _ => .required <| .bind ((Lockstep.tableRef hg).mono (Nat.le_succ k)) fun _ _ same => ?_
  exact .bind (.joins hg) fun _ _ joins => .spanned (by simp [same, joins])

end Lockstep

end Parse

end ColumnFlow
