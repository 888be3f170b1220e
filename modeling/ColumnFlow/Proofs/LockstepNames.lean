import ColumnFlow.Proofs.Bare
import ColumnFlow.Proofs.LockstepRules

/-!
# Names, types and skipped text in lockstep
-/

namespace ColumnFlow

namespace Parse

theorem Test.implicitAlias {T : Tails} {line : Bool} : Test T line 0 1 fun s => s.current.isImplicitAlias :=
  .current ⟨fun alike => by simp [Token.isImplicitAlias, alike.kind, alike.literal, alike.quoted],
    fun {t} ends => by
      have := (Token.Sign.kind (show TokenKind.ident.endsBatch = false from rfl)).ends ends
      simp_all [Token.isImplicitAlias]⟩

namespace Lockstep

variable {T : Tails} {K : Facts} {line : Bool} {k : Nat} {P : Nat → ParseState → Prop}

/-! ### Skipped text -/

protected theorem skipParens : Lax T K line k P (fun _ => ()) skipParens skipParens :=
  take (.kind _) (.discard (scanKind (fun a h => by simp only [h]) fun a h => by simp [h])) (.pure rfl)

/-- A group that is known to start here. -/
theorem skipParensFirst {must : Unit → ParseState → Prop} :
    Lockstep T K line k (At (.symbol .lparen)) must (fun _ => ()) skipParens skipParens := by
  unfold skipParens
  rw [accept_eq, taken_bind]
  refine known (.kind _) (fun p => by simpa [At] using p) ?_ ⟨.pure _, .pure _⟩
  exact advanceIn (Nat.le_succ k) id (.discard (scanKind (fun a h => by simp only [h]) fun a h => by simp [h]))

protected theorem skipElement : Lax T K line k P (fun _ => ()) skipElement skipElement :=
  .discard (scanKind (fun a h => by simp only [h]) fun a h => by simp [h, TokenKind.endsBatch])

/-- Where the runs agree on line ends. -/
protected theorem skipStatement : Lax T K true k P (fun _ => ()) skipStatement skipStatement := by
  refine .discard (.scan id (fun a a' same step => ?_) (fun a a' same kind kind' => ?_) (fun a kind => ?_) fun _ => id)
  · obtain rfl : a = a' := same
    have word := (Token.Sign.isWord "THROW").alike step.alike
    have lines := step.sameLine rfl (Nat.succ_pos _)
    have next := (Test.nextKind Symbol.lparen).agree (Nat.succ_pos _) step
    simp only [step.alike.kind, word, lines, next]
  · obtain rfl : a = a' := same
    simp [kind, kind', TokenKind.endsBatch]
  · simp [kind, TokenKind.endsBatch]

/-! ### Names -/

protected theorem ident : Lax T K line k P id ident ident :=
  sees .takeLiteral (.andThen .expectedIdentifier (.pure rfl))

protected theorem identList : Lax T K line k P id identList identList :=
  .required <| .bind (.separated .ident) fun _ _ same =>
    .required (.pure (by simpa using same))

protected theorem namePart : Lax T K line k P id namePart namePart :=
  ite (.or (.kind .ident) (.kindIn TokenKind.isKeyword ⟨rfl, rfl⟩)) .takeLiteral (.andThen .expectedIdentifier (.pure rfl))

protected theorem dottedParts : Lax T K line k P id dottedParts dottedParts := by
  have parts : Lax T K line k P (List.map id) dottedParts dottedParts :=
    .collect (take (.kind _) (sees (.pure rfl) (.bindEq .namePart fun _ => .pure rfl)) .nothing)
  simpa using parts

protected theorem objectName : Lax T K line k P ObjectName.bare objectName objectName := by
  refine .position fun _ _ => sees ?_ (.andThen .expectedIdentifier (.pure rfl))
  refine .bindEq .takeLiteral fun first => .bindEq .dottedParts fun more => ?_
  exact ifThen Iff.rfl (fun rest => .andThen (.report _ _) rest) (.spanned rfl)

/-- A name that is known to start here. -/
theorem objectNameFirst {must : ObjectName → ParseState → Prop} :
    Lockstep T K line (k + 1) (At .ident) must ObjectName.bare objectName objectName := by
  refine .position fun _ _ => seesAt ?_ ⟨.bind (.report _) fun _ => .pure _, .bind (.report _) fun _ => .pure _⟩
  refine takeFirst fun first => .bindEq .dottedParts fun more => ?_
  exact ifThen Iff.rfl (fun rest => .andThen (.report _ _) rest) (.spanned rfl)

protected theorem targetName : Lax T K line k P ObjectName.bare targetName targetName :=
  sees (.position fun _ _ => .bindEq .takeLiteral fun _ => .spanned rfl) .objectName

protected theorem aliasAfterAs : Lax T K line k P id aliasAfterAs aliasAfterAs :=
  ite (.or (.kind _) (.kind _)) .takeLiteral (.andThen .expectedIdentifier (.pure rfl))

protected theorem tableAlias : Lax T K line k P id tableAlias tableAlias :=
  take (.kind _) .aliasAfterAs (ite .implicitAlias .takeLiteral (.pure rfl))

protected theorem derivedAlias : Lax T K line k P id derivedAlias derivedAlias :=
  .bindEq .tableAlias fun _ => ite (.and (.const _) (.kind _)) (.bindEq .identList fun _ => .pure rfl) (.pure rfl)

/-! ### Types -/

theorem typeArgs_loose : Loose T K line k id typeArgs typeArgs := by
  have stop : ∀ first, Tame (typeArgs.go 0 first) := fun first => by
    unfold typeArgs.go
    exact .cutOff _
  refine .loopBind (.loop id typeArgs.go typeArgs.go (fun _ _ => ⟨stop _, stop _⟩) ?_ true true rfl)
    fun args args' same => .ofLockstep (.pure (congrArg String.join (same : id args = id args')))
  rintro i i' j _ ih first _ rfl
  have arg : ∀ before, Loose T K line j id (typeArgs.arg i before) (typeArgs.arg i' before) := by
    intro before
    unfold typeArgs.arg
    refine .readIf (j := j - 1) (by omega) (.or (.kind _) (.word _)) (fun literal => ?_)
      (.ofLockstep (.andThen (.unexpected _) (.pure rfl)))
    refine .bind (ih false false rfl).weaken ?_
    rintro more _ rfl
    exact .ofLockstep (.pure rfl)
  rw [typeArgs.go, typeArgs.go]
  refine .weaken (K := K) (.unlessClosed (.ofLockstep (.pure rfl)) ?_)
  cases first with
  | true => exact arg []
  | false =>
    simp only [id, Bool.false_eq_true, if_false]
    rw [expect_bind, expect_bind]
    exact .advanceIf (by omega) (.kind _) (arg _) (.ofLockstep (.andThen (.unexpected _) (.pure rfl)))

protected theorem dataType : Lax T K line k P id dataType dataType := by
  refine sees ?_ (.andThen (.unexpected _) (.pure rfl))
  refine .bindEq .takeLiteral fun base => ?_
  refine iteJoin id (.and (.kind _) (.nextKind _)) (fun rest => ?_) (.pure rfl) ?_
  · exact .andThen .advance (.bindEq .takeLiteral fun _ => .bind (.pure rfl) rest)
  rintro qualified _ rfl
  refine iteJoin id (.or (.word _) (.word _)) (fun rest => ?_) (.pure rfl) ?_
  · exact .bindEq .takeLiteral fun _ => .bind (.pure rfl) rest
  rintro named _ rfl
  exact take (.kind _) (typeArgs_loose.close fun _ _ same => .pure (by simpa using same)) (.pure rfl)

end Lockstep

end Parse

end ColumnFlow
