import ColumnFlow.Proofs.Holes
import ColumnFlow.Proofs.LockstepNames

/-!
# Expressions in lockstep
-/

namespace ColumnFlow

open Parse

/-- The entry points of two grammars are in lockstep where fewer than `k` common tokens are left and at least `L` is
known. -/
structure GrammarLock (T : Tails) (k : Nat) (g g' : Grammar) (L : Facts := .nothing) : Prop where
  full : L.same → g' = .full
  whole : L.same → L.whole
  exprAt : ∀ {K : Facts} [K.Extends L] {line : Bool} {P : Nat → ParseState → Prop} {least : Nat}, 1 ≤ least →
    Lax T K line k P Expr.bare (g.exprAt least) (g'.exprAt least)
  withClause : ∀ {K : Facts} [K.Extends L] {line : Bool},
    Lax T K line k (At (.keyword .WITH)) WithClause.bare g.withClause g'.withClause
  query : ∀ {K : Facts} [K.Extends L] {line : Bool} {P : Nat → ParseState → Prop} {ctes ctes' : Option WithClause}
    [Same K ctes ctes'] [Whole K ctes],
    ctes.map WithClause.bare = ctes'.map WithClause.bare →
      Lax T K line k P Query.bare (g.query ctes) (g'.query ctes')
  selectBody : ∀ {K : Facts} [K.Extends L] {line : Bool} {P : Nat → ParseState → Prop},
    Lax T K line k P SelectBody.bare g.selectBody g'.selectBody
  table : ∀ {K : Facts} [K.Extends L] {line : Bool} {P : Nat → ParseState → Prop},
    Lax T K line k P TableRef.bare g.table g'.table
  stmt : ∀ {K : Facts} [K.Extends L] {line : Bool} {P : Nat → ParseState → Prop},
    Lockstep T K line k P (fun _ s => s.failed = false) Stmt.bare g.stmt g'.stmt

namespace GrammarLock

variable {T : Tails} {L K : Facts} [K.Extends L] {line : Bool} {j k : Nat} {P : Nat → ParseState → Prop} {g g' : Grammar}

theorem mono (h : GrammarLock T k g g' L) (le : j ≤ k) : GrammarLock T j g g' L where
  full := h.full
  whole := h.whole
  exprAt least := (h.exprAt least).mono le
  withClause := h.withClause.mono le
  query same := (h.query same).mono le
  selectBody := h.selectBody.mono le
  table := h.table.mono le
  stmt := h.stmt.mono le

theorem expr (h : GrammarLock T k g g' L) : Lax T K line k P Expr.bare g.expr g'.expr := h.exprAt (Nat.le_refl 1)

theorem innerQuery (h : GrammarLock T k g g' L) : Lax T K line k P Query.bare g.innerQuery g'.innerQuery :=
  .sees (.bind h.withClause fun _ _ same => h.query (by simp [same])) (h.query rfl)

end GrammarLock

namespace Parse

theorem Test.nextIsKeyword {T : Tails} {line : Bool} : Test T line 1 2 fun s => s.next.kind.isKeyword :=
  .next (p := fun t => t.kind.isKeyword) ⟨fun alike => by rw [alike.kind], fun {t} ends => by
    rcases (TokenKind.endsBatch_iff _).mp ends with kind | kind <;> simp [kind, TokenKind.isKeyword]⟩

/-- How tightly a kind of token binds as an operator, given the kind behind it. -/
def operatorLevelOf (kind next : TokenKind) : Nat :=
  match BinaryOp.ofToken? kind with
  | some op => op.level
  | none =>
    if kind == Keyword.IS || startsPredicate kind then Level.comparison
    else if kind == Keyword.NOT && startsPredicate next then Level.comparison
    else if kind == Keyword.COLLATE then Level.collation
    else 0

theorem operatorLevel_eq : operatorLevel = fun s => (operatorLevelOf s.current.kind s.next.kind, s) := by
  funext s
  unfold operatorLevelOf
  show (match BinaryOp.ofToken? s.current.kind with | some _ => _ | none => _ : Parse Nat) s = _
  cases BinaryOp.ofToken? s.current.kind with
  | some op => rfl
  | none =>
    dsimp only
    split
    · rfl
    · show (if (s.current.kind == Keyword.NOT && startsPredicate s.next.kind) = true then _ else _ : Parse Nat) s = _
      split
      · rfl
      · split <;> rfl

theorem operatorLevelOf_agree {T : Tails} {line : Bool} {n : Nat} {s s' : ParseState} (step : InStep T line n s s') :
    operatorLevelOf s.current.kind s.next.kind = operatorLevelOf s'.current.kind s'.next.kind := by
  have starts : Token.Sign fun t => startsPredicate t.kind :=
    ⟨fun alike => by rw [alike.kind], fun {t} ends => by
      rcases (TokenKind.endsBatch_iff _).mp ends with kind | kind <;> rw [kind] <;> rfl⟩
  have negated := ((Test.kind Keyword.NOT).and (.next starts)).agree (Nat.zero_le n) step
  rcases step.current_cases with ⟨alike, _⟩ | ⟨ends, ends'⟩
  · rw [alike.kind] at negated ⊢
    unfold operatorLevelOf
    rw [negated]
  · rcases (TokenKind.endsBatch_iff _).mp ends with kind | kind <;>
      rcases (TokenKind.endsBatch_iff _).mp ends' with kind' | kind' <;> rw [kind, kind'] <;> rfl

theorem within_of_operatorLevelOf {kind next : TokenKind} (pos : 1 ≤ operatorLevelOf kind next) :
    kind.endsBatch = false := by
  cases ends : kind.endsBatch with
  | false => rfl
  | true =>
    rcases (TokenKind.endsBatch_iff _).mp ends with rfl | rfl <;> exact absurd pos (Nat.not_succ_le_zero 0)

/-- A token that binds is an operator between two operands, or one of those with a form of their own. -/
theorem operatorLevelOf_none {kind next : TokenKind} (binary : BinaryOp.ofToken? kind = none) (is : kind ≠ Keyword.IS)
    (collate : kind ≠ Keyword.COLLATE) (not : kind ≠ Keyword.NOT) (starts : startsPredicate kind = false) :
    operatorLevelOf kind next = 0 := by
  simp [operatorLevelOf, binary, is, collate, not, starts]

namespace Lockstep

variable {T : Tails} {L K : Facts} [K.Extends L] {line : Bool} {j k : Nat} {P : Nat → ParseState → Prop} {g g' : Grammar}

/-! ### Parts without the grammar -/

protected theorem literal (kind : LiteralKind) : Lax T K line k P Expr.bare (literal kind) (literal kind) :=
  token fun _ _ alike => by simp [alike.literal]

/-- A method call keeps the first argument and the place; the rest comes from the call. -/
theorem methodCall_bare {fn fn' : FuncCall} {base base' : Expr} (span span' : Text.Span) (same : fn.bare = fn'.bare)
    (sameBase : base.bare = base'.bare) :
    (FuncCall.bare { fn with args := base :: fn.args, span }) = FuncCall.bare { fn' with args := base' :: fn'.args, span := span' } := by
  cases fn
  cases fn'
  simp_all

protected theorem chain : Lax T K line k P id chain chain := by
  refine repeats ⟨.cutOff _, .cutOff _⟩ fun {i i' j} le ih => ?_
  refine sees ?_ (.pure rfl)
  refine iteElse (.nextKind _) ?_ <| iteElse (.nextKind _) ?_ <|
    iteIn (.or (.nextKind _) .nextIsKeyword) ?_ (.pure rfl)
  · exact .andThen .advance (.andThen .advance (.pure rfl))
  · exact advanceIn (j := j - 1) (by omega) id <| .bindEq ih fun _ => .pure rfl
  · exact advanceIn (j := j - 1) (by omega) id <| .bindEq .takeLiteral fun _ => .bindEq ih fun _ => .pure rfl

protected theorem noExpr : Lax T K line k P Expr.bare noExpr noExpr := .look fun _ _ => blame (.pure rfl)

/-! ### Lists -/

variable (hg : GrammarLock T k g g' L)

include hg

protected theorem exprList : Lax T K line k P (List.map Expr.bare) (exprList g) (exprList g') := .separated hg.expr

protected theorem orderItem : Lax T K line k P OrderItem.bare (orderItem g) (orderItem g') :=
  .bind hg.expr fun _ _ same => take (.kind _) (.pure (by simp [OrderItem.bare, same]))
    (.accepted (.pure (by simp [OrderItem.bare, same])))

protected theorem orderBy : Lax T K line k P (List.map OrderItem.bare) (orderBy g) (orderBy g') :=
  .required (.required (.separated (.orderItem hg)))

theorem orderByFirst : Lax T K line (k + 1) (At (.keyword .ORDER)) (List.map OrderItem.bare) (orderBy g) (orderBy g') :=
  .requireFirst (.required (.separated (.orderItem hg)))

/-! ### Holes -/

section Holes

omit hg

variable {α γ : Type} [HasHoles α] {must : α → ParseState → Prop} {e : α → γ} {y y' z z' : Parse α} {a a' : Expr}

/-- A hole comes with a fault. -/
theorem ofHole [filled : Whole K a] (hole : a.isMissing = true) (h : Lockstep T K.faulty line k P must e y y') :
    Lockstep T K line k P must e y y' :=
  have : Given K (a.isMissing = false) := ⟨fun known => (filled.holds known).isMissing⟩
  h.refuted (a.isMissing = false) (by simp [hole])

theorem ifHole [Whole K a] (same : a.bare = a'.bare) (yes : Lockstep T K.faulty line k P must e y y')
    (no : Lockstep T K line k P must e z z') :
    Lockstep T K line k P must e (if a.isMissing then y else z) (if a'.isMissing then y' else z') := by
  cases hole : a.isMissing with
  | true => rw [if_pos rfl, if_pos ((Expr.isMissing_congr same).mp hole)]; exact ofHole hole yes
  | false => rw [if_neg Bool.false_ne_true, if_neg (mt (Expr.isMissing_congr same).mpr (by simp [hole]))]; exact no

end Holes

/-! ### Literals and calls -/

protected theorem funcArg (isDatePart : Bool) :
    Lax T K line k P Expr.bare (funcArg g isDatePart) (funcArg g' isDatePart) := by
  refine iteJoin Expr.bare (.and (.and (.const _) (.kind _)) (.or (.nextKind _) (.nextKind _)))
    (fun rest => .bind (.literal _) rest) hg.expr fun arg arg' same => ?_
  refine takeThen (.kind _) (fun rest => .andThen (.discard .dataType) ?_) (.pure same)
  exact takeThen (.word _) (fun rest => .andThen (.discard hg.expr) rest) rest

protected theorem moreFuncArgs : Lax T K line k P (List.map Expr.bare) (moreFuncArgs g) (moreFuncArgs g') :=
  .collect (take (.kind _) (.bind (.funcArg hg false) fun _ _ same => .pure (by simp [same])) .nothing)

protected theorem funcArgs (fn : FuncCall) [Whole K fn] :
    Lax T K line k P FuncCall.bare (funcArgs g fn) (funcArgs g' fn) := by
  refine .required <| take (.kind _) (.pure rfl) ?_
  refine ite (.and (.kind _) (.nextKind _)) (.andThen .advance (.andThen .advance (.pure rfl))) ?_
  refine .bindEq (Lockstep.accept _).lax fun distinct => ?_
  refine ifThen Iff.rfl (fun rest => .accepted rest) ?_
  refine .bind (.funcArg hg _) fun first first' same => .bind (.moreFuncArgs hg) fun more more' sames => ?_
  exact .required (.pure (by simp [same, sames]))

protected theorem windowSpec : Lax T K line k P WindowSpec.bare (windowSpec g) (windowSpec g') := by
  refine .required <| take (.kind _) (.pure rfl) <| .required ?_
  refine takeJoin (List.map Expr.bare) (.kind _)
    (fun rest => .required (.bind (.exprList hg) rest)) (.pure rfl) fun parts parts' sameParts => ?_
  refine iteOr (.kind _) (.orderBy hg) fun items items' sameItems => ?_
  refine iteThen (.or (.word _) (.word _)) (fun rest => .andThen (.discard (scanKind ?_ ?_)) rest) ?_
  · exact fun _ h => by simp only [h]
  · exact fun _ h => by simp [h]
  · exact .required (.pure (by simp [WindowSpec.bare, sameParts, sameItems]))

protected theorem funcSuffix {fn fn' : FuncCall} [Same K fn fn'] [Whole K fn] (same : fn.bare = fn'.bare) :
    Lax T K line k P FuncCall.bare (funcSuffix g fn) (funcSuffix g' fn') := by
  refine iteJoin (List.map OrderItem.bare) (.and (.word _) (.nextKind _)) (fun rest => ?_) (.pure rfl)
    fun items items' sameItems => ?_
  · exact .andThen .advance <| .andThen .advance <| .required <| .bind (.orderBy hg) fun items items' h =>
      .required (.resume rest h)
  refine iteOr (.kind _) (.some (.windowSpec hg)) fun window window' sameWindow => ?_
  exact .pure (by cases fn; cases fn'; simp_all)

protected theorem methodCalls {start start' : Text.Position} {base base' : Expr} [Same K start start'] [Same K base base']
    [Whole K base] (same : base.bare = base'.bare) :
    Lax T K line (k + 1) P Expr.bare (methodCalls g start base) (methodCalls g' start' base') := by
  refine ifThenElse (Expr.isMissing_congr same) (.pure same) ?_
  refine loop Expr.bare (methodCalls.go g start) (methodCalls.go g' start') (fun _ _ => ⟨.cutOff _, .cutOff _⟩) ?_ _ _ same
  intro i i' j le ih base base' same
  have hg := hg.mono (show j - 1 ≤ k by omega)
  refine ite (.and (.and (.kind _) (.nextKind _)) (.afterNextKind _)) ?_ (.pure same)
  refine advanceIn (j := j - 1) (by omega) id <| .bindEq .takeLiteral fun name => ?_
  refine .bind (.funcArgs hg _) fun fn fn' sameFn => .spanFrom fun _ _ => (ih _ _ ?_).weaken
  rw [Expr.bare, Expr.bare]
  exact congrArg _ (methodCall_bare _ _ sameFn same)

/-! ### Special forms -/

section Forms

variable {must : Expr → ParseState → Prop}

protected theorem caseExpr :
    Lockstep T K line (k + 1) (At (.keyword .CASE)) must Expr.bare (caseExpr g) (caseExpr g') := by
  refine .position fun _ _ => requireFirst ?_
  refine iteJoin (Option.map Expr.bare) (.kind _) (fun rest => .bind (.pure rfl) rest) (.some hg.expr)
    fun operand operand' sameOperand => ?_
  refine .bind (e := List.map WhenClause.bare) (.collect (take (.kind _) ?_ .nothing)) fun whens whens' sameWhens => ?_
  · refine .bind hg.expr fun _ _ same => .required <| .bind hg.expr fun _ _ same' => ?_
    exact .pure (by simp [WhenClause.bare, same, same'])
  refine ifBlame (isEmpty_congr sameWhens) ?_
  refine takeOr (.kind _) (.some hg.expr) fun otherwise otherwise' sameOtherwise => ?_
  exact .required <| .spanned (by simp [sameOperand, sameWhens, sameOtherwise])

protected theorem castExpr [Inside T P] (lenient : Bool) :
    Lockstep T K line (k + 1) P must Expr.bare (castExpr g lenient) (castExpr g' lenient) := by
  refine .position fun _ _ => advanceFirst <| .required <| .bind hg.expr fun _ _ same => ?_
  refine .required <| .bindEq .dataType fun typeName => .required ?_
  exact .spanned (by simp [same])

protected theorem convertExpr :
    Lockstep T K line (k + 1) (At .ident) must Expr.bare (convertExpr g) (convertExpr g') := by
  refine .position fun _ _ => ?_
  refine lookEq (f := fun s => s.current.isWord "TRY_CONVERT") (fun step _ => (Test.word _).agree (Nat.zero_le _) step)
    fun lenient => .starting ?_ fun _ _ p => p.1
  refine advanceFirst <| .required <| .bindEq .dataType fun typeName => .required ?_
  refine .bind hg.expr fun operand operand' same => ?_
  refine takeOr (.kind _) (.some hg.expr) fun style style' sameStyle => ?_
  exact .required <| .spanned (by simp [same, sameStyle])

protected theorem coalesceExpr [Inside T P] :
    Lockstep T K line (k + 1) P must Expr.bare (coalesceExpr g) (coalesceExpr g') := by
  refine .position fun _ _ => advanceFirst <| .required <| .bind (.exprList hg) fun _ _ same => ?_
  exact .required <| .spanned (by simp [same])

protected theorem nullIfExpr [Inside T P] :
    Lockstep T K line (k + 1) P must Expr.bare (nullIfExpr g) (nullIfExpr g') := by
  refine .position fun _ _ => advanceFirst <| .required <| .bind hg.expr fun _ _ same => ?_
  refine .required <| .bind hg.expr fun _ _ same' => .required ?_
  exact .spanned (by simp [same, same'])

protected theorem iifExpr [Inside T P] : Lockstep T K line (k + 1) P must Expr.bare (iifExpr g) (iifExpr g') := by
  refine .position fun _ _ => advanceFirst <| .required <| .bind hg.expr fun _ _ same => ?_
  refine .required <| .bind hg.expr fun _ _ yes => .required ?_
  refine .bind hg.expr fun _ _ no => .required ?_
  exact .spanned (by simp [same, yes, no])

protected theorem existsExpr :
    Lockstep T K line (k + 1) (At (.keyword .EXISTS)) must Expr.bare (existsExpr g) (existsExpr g') := by
  refine .position fun _ _ => requireFirst <| .required <| .bind hg.innerQuery fun _ _ same => ?_
  exact .required <| .spanned (by simp [same])

protected theorem parenExpr :
    Lockstep T K line (k + 1) (At (.symbol .lparen)) must Expr.bare (parenExpr g) (parenExpr g') := by
  refine .position fun _ _ => requireFirst ?_
  refine ite (j := 0) ?_ ?_ ?_
  · exact .or ((Test.kind _).or (.kind _) |>.weaken (Nat.zero_le 1))
      ((Test.kind _).and ((Test.nextKind _).or (.nextKind _)) |>.weaken (Nat.zero_le 2))
  · refine .bind hg.innerQuery fun _ _ same => .required ?_
    exact .spanned (by simp [same])
  · refine .bind hg.expr fun inner inner' same => ?_
    refine ifHole same (.pure rfl) ?_
    exact .required <| .spanned (by simp [same])

protected theorem nextValueExpr [Inside T P] :
    Lockstep T K line (k + 1) P must Expr.bare (nextValueExpr g) (nextValueExpr g') := by
  refine .position fun _ _ => advanceFirst <| .andThen .advance <| .required ?_
  refine .bind .objectName fun sequence sequence' same => ?_
  refine iteOr (.kind _) (.some (.windowSpec hg)) fun window window' sameWindow => .spanFrom fun _ _ => .pure ?_
  cases sequence
  cases sequence'
  simp_all [FuncCall.named, ObjectName.bare]

/-! ### Dotted names -/

protected theorem identExpr [Inside T P] : Lockstep T K line (k + 1) P must Expr.bare (identExpr g) (identExpr g') := by
  refine .position fun _ _ => tokenFirst ?_
  rintro ⟨⟩ ⟨⟩ ⟨rfl, rfl, rfl⟩
  refine .bindEq .chain fun (more, star) => ifThenElse Iff.rfl (.spanned rfl) ?_
  refine sees (ifThenElse Iff.rfl ?_ ?_) <| ifThenElse Iff.rfl ?_ ?_
  · refine .spanFrom fun _ _ => .bind (.funcArgs hg _) fun fn fn' same => .spanFrom fun _ _ => .pure ?_
    rw [Expr.bare, Expr.bare]
    exact congrArg _ (methodCall_bare _ _ same rfl)
  · refine .bind (.funcArgs hg _) fun fn fn' same => .bind (.funcSuffix hg same) fun fn fn' same => ?_
    refine .spanned ?_
    cases fn
    cases fn'
    simp_all
  · exact .spanned rfl
  · exact .spanned rfl

protected theorem wordExpr : Lockstep T K line (k + 1) (At .ident) must Expr.bare (wordExpr g) (wordExpr g') := by
  refine currentIn ?_
  rintro ⟨⟩ ⟨⟩ ⟨rfl, rfl, rfl⟩
  refine iteIn (.and (.and (.const _) (.nextWord _)) (.afterNextKind _)) (.nextValueExpr hg) ?_
  refine iteIn (.nextKind _) ?_ (.identExpr hg)
  dsimp only
  split
  · exact .castExpr hg true
  · exact .convertExpr hg
  · exact .convertExpr hg
  · exact .coalesceExpr hg
  · exact .nullIfExpr hg
  · exact .iifExpr hg
  · exact .identExpr hg

protected theorem keywordCall [Inside T P] :
    Lockstep T K line (k + 1) P must Expr.bare (keywordCall g) (keywordCall g') := by
  refine .position fun _ _ => takeFirst fun literal => .bind (.funcArgs hg _) fun fn fn' same => ?_
  refine .spanned ?_
  cases fn
  cases fn'
  simp_all

end Forms

/-! ### Operands -/

protected theorem primary : Lax T K line (k + 1) P Expr.bare (primary g) (primary g') := by
  refine current ?_ ?_
  · rintro ⟨⟩ ⟨⟩ ⟨rfl, rfl, rfl⟩ _
    dsimp only
    split
    · exact .literal _
    · exact .literal _
    · exact .andThen .advance <| .spanFrom fun _ _ => .methodCalls hg (by simp)
    · exact ifThenElse Iff.rfl (.identExpr hg) (.wordExpr hg)
    · exact .bind (.parenExpr hg) fun _ _ same => .methodCalls hg same
    · exact .andThen .advance <| .spanned rfl
    · exact .literal _
    · exact .literal _
    · exact .caseExpr hg
    · exact .castExpr hg false
    · exact .existsExpr hg
    iterate 3 exact iteIn (.nextKind _) (.keywordCall hg) .noExpr
    · exact .noExpr
  · rintro t t' (kind | kind) (kind' | kind') <;> simp only [kind, kind'] <;> exact .noExpr

/-! ### Operators -/

protected theorem signedExpr : Lax T K line (k + 1) P Expr.bare (signedExpr g) (signedExpr g') := by
  have applied : ∀ {K : Facts} [K.Extends L] {P : Nat → ParseState → Prop} [Inside T P] start start' [Same K start start']
      op {level}, 1 ≤ level → Lax T K line (k + 1) P Expr.bare (signedExpr.applied g start op level)
        (signedExpr.applied g' start' op level) := fun start start' _ op level le =>
    advanceFirst <| .bind (hg.exprAt le) fun _ _ same => .spanned (by simp [same])
  refine .position fun start start' => current ?_ ?_
  · rintro ⟨⟩ ⟨⟩ ⟨rfl, rfl, rfl⟩ _
    dsimp only
    split
    iterate 4 exact applied _ _ _ (by decide)
    · exact .primary hg
  · rintro t t' (kind | kind) (kind' | kind') <;> simp only [kind, kind'] <;> exact .primary hg

/-- An operator that lacks its predicate reads nothing and yields a hole. -/
protected theorem predicate {start start' : Text.Position} {operand operand' : Expr} [Same K start start']
    [Same K operand operand'] [Whole K operand] (same : operand.bare = operand'.bare) (negated : Bool) :
    Lockstep T K line (k + 1) P (fun e _ => (!e.isMissing) = true) Expr.bare (predicate g start operand negated)
      (predicate g' start' operand' negated) := by
  refine takeRead (.kind _) ?_ <| takeRead (.kind _) ?_ <| takeRead (.kind _) ?_ ?_
  · refine .required <| ite (.or (.kind _) (.kind _)) ?_ ?_
    · refine .bind hg.innerQuery fun _ _ sameQuery => .required ?_
      exact .spanned (by simp [same, sameQuery])
    · refine .bind (.exprList hg) fun _ _ sameValues => .required ?_
      exact .spanned (by simp [same, sameValues])
  · refine .bind (hg.exprAt (by decide)) fun _ _ low => .required ?_
    refine .bind (hg.exprAt (by decide)) fun _ _ high => .spanned ?_
    simp [same, low, high]
  · refine .bind (hg.exprAt (by decide)) fun _ _ pattern => ?_
    refine takeOr (.word _) (.some ((Lockstep.primary hg).mono ?_)) fun _ _ escape => .spanned (by simp [same, pattern, escape])
    exact Nat.le_succ k
  · exact blame (pureFree rfl fun _ => by simp [Expr.isMissing])

protected theorem operatorExpr [Inside T P] {left left' : Expr} [Same K left left'] [Whole K left]
    (same : left.bare = left'.bare) {level : Nat} (pos : 1 ≤ level)
    (binds : ∀ n s, P n s → operatorLevelOf s.current.kind s.next.kind = level) :
    Lockstep T K line (k + 1) P (fun e _ => (!e.isMissing) = true) Expr.bare (operatorExpr g left level)
      (operatorExpr g' left' level) := by
  refine currentAt ?_
  rintro ⟨kind⟩ ⟨⟩ ⟨rfl, rfl, rfl⟩
  dsimp only
  split
  · refine advanceFirst <| .bindEq (Lockstep.accept _).lax fun negated => .required ?_
    exact .spanned (by simp [same])
  · refine advanceFirst <| .bindEq .ident fun collation => ?_
    exact .spanned (by simp [same])
  iterate 4 exact .bindEq (Lockstep.accept _).lax fun negated => .predicate hg same negated
  · rename_i is collate not isIn between like
    refine .knowing (∃ next, operatorLevelOf kind next = level) (fun n s p => ⟨s.next.kind, ?_⟩) ?_
    · rw [← binds n s p.1, p.2]
    refine advanceFirst <| iteJoin Expr.bare
      (.and (.const _) (.and (.or (.or (.kind _) (.word _)) (.word _)) (.nextKind _))) (fun rest => ?_)
      (hg.exprAt (Nat.le_add_left 1 level)) fun right right' sameRight => ?_
    · exact .andThen .advance <| .bind ((Lockstep.primary hg).mono (Nat.le_succ k)) rest
    split
    · refine ifHole sameRight (.look fun _ _ => .andThen (.report _ _) (.pure rfl)) ?_
      exact .spanned (by simp [same, sameRight])
    · rename_i binary
      refine .refuted (∃ next, operatorLevelOf kind next = level) ?_ (.pure rfl)
      rintro ⟨next, rfl⟩
      rw [operatorLevelOf_none binary is collate not (by simp [startsPredicate]; exact ⟨⟨isIn, between⟩, like⟩)] at pos
      exact absurd pos (Nat.not_succ_le_zero 0)

/-- The operators of one level and tighter, which follow an operand. -/
protected theorem operators {least : Nat} (pos : 1 ≤ least) {left left' : Expr} [Same K left left'] [Whole K left]
    (same : left.bare = left'.bare) :
    Lax T K line (k + 1) P Expr.bare (operators g least left) (operators g' least left') := by
  refine loop Expr.bare (operators.go g least) (operators.go g' least) (fun _ _ => ⟨.cutOff _, .cutOff _⟩) ?_ _ _ same
  intro i i' j le ih left left' same
  unfold operators.go
  rw [operatorLevel_eq]
  refine lookEq (fun step _ => operatorLevelOf_agree step) fun level => ?_
  by_cases low : level < least
  · rw [if_pos low, if_pos low]
    exact .pure same
  rw [if_neg low, if_neg low]
  have hg := hg.mono (show j - 1 ≤ k by omega)
  have first : Lockstep T (K.learn left left') line (j - 1 + 1)
      (fun n s => Within n s ∧ operatorLevelOf s.current.kind s.next.kind = level) _ _ _ _ :=
    .operatorExpr hg same (by omega) fun _ _ p => p.2
  refine ((first.mono (by omega)).starting ?_).bindIf (j := j - 1) (fun e => !e.isMissing) (by omega) ?_ ?_
  · rintro n s ⟨_, rfl⟩
    exact ⟨within_of_operatorLevelOf (Nat.le_trans pos (Nat.le_of_not_lt low)), rfl⟩
  · intro combined combined' same found
    have found : combined.isMissing = false := by simpa using found
    rw [if_neg (by simp [found]), if_neg (by simp [found, ← Expr.isMissing_congr same])]
    exact (ih combined combined' same).weaken
  · intro combined combined' same hole
    have hole : combined.isMissing = true := by simpa using hole
    rw [if_pos hole, if_pos ((Expr.isMissing_congr same).mp hole)]
    exact ofHole hole (.pure rfl)

protected theorem exprAt {least : Nat} (pos : 1 ≤ least) :
    Lax T K line (k + 1) P Expr.bare (exprAt g least) (exprAt g' least) :=
  .nested rfl <| .bind (.signedExpr hg) fun _ _ same =>
    ifHole same (.pure rfl) (.operators hg pos same)

end Lockstep

end Parse

end ColumnFlow
