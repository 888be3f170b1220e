import ColumnFlow.Proofs.StatementRounds

/-!
# Statement lists and definitions in lockstep

A fault costs only the statement it is in. Runs that part because of a fault at the very end of the common tokens
are in step again once the list has dropped the statement.
-/

namespace ColumnFlow

/-- A token that has been read stands before the current one. -/
theorem ParseState.offset_lt {s s₁ : ParseState} (sorted : s.tokens.Pairwise fun t u => t.start.offset < u.start.offset)
    (suffix : s₁.tokens <:+ s.tokens) (read : s₁.tokens.length < s.tokens.length) :
    s.current.start.offset < s₁.current.start.offset := by
  have rest : s₁.tokens <:+ s.ahead := by
    rcases List.suffix_cons_iff.mp suffix with same | rest
    · exact absurd (congrArg List.length same) (Nat.ne_of_lt read)
    · exact rest
  exact (List.pairwise_cons.mp sorted).1 s₁.current (rest.mem (List.mem_cons_self ..))

namespace Parse

variable {α γ : Type} {T : Tails} {L K : Facts} [K.Extends L] {line : Bool} {k : Nat} {P : Nat → ParseState → Prop}
  {g g' : Grammar}

/-! ### Lists of statements -/

theorem Tame.apart {m : Parse α} (h : Tame m) : Tame (apart m) where
  suffix s := h.suffix { s with failed := false }
  depth s := h.depth { s with failed := false }
  failed _ failed := failed
  inline s := h.inline { s with failed := false }
  onward s := (h.onward { s with failed := false }).between ⟨rfl, rfl⟩ ⟨rfl, rfl⟩

theorem Tame.marked {m : Parse α} (h : Tame m) : Tame fun s =>
    ((m { s with inlineFunction := true }).1, { (m { s with inlineFunction := true }).2 with inlineFunction := false }) where
  suffix s := h.suffix { s with inlineFunction := true }
  depth s := h.depth { s with inlineFunction := true }
  failed s := h.failed { s with inlineFunction := true }
  inline _ _ := rfl
  onward s := (h.onward { s with inlineFunction := true }).between ⟨rfl, rfl⟩ ⟨rfl, rfl⟩

theorem recovered_value (start : Token) (stmt : Stmt) (s : ParseState) :
    (recovered start stmt s).1 = if s.failed || stmt.isMissing then none else some stmt := by
  rw [recovered_eq]
  cases failed : s.failed with
  | true => rw [either_pos failed]; rfl
  | false => rw [either_neg failed]; rfl

theorem Tame.skipToStatement : Tame skipToStatement := .bind (.scan _ _) fun _ => .pure _

theorem Tame.recovered (start : Token) (stmt : Stmt) : Tame (recovered start stmt) := by
  rw [recovered_eq, synchronize_eq]
  refine .either (.bind (.either (.bind .advance fun _ => .skipToStatement) .skipToStatement) fun _ => .pure _) ?_
  exact .bind (.bind (.either (.bind .advance fun _ => .pure _) (.pure _)) fun _ => .pure _) fun _ => .pure _

/-- The faults of a part that is kept apart do not matter to what follows, so that runs which are stuck in it are in
step again if they yield the same. -/
theorem PairOutcome.apart [HasHoles α] {n : Nat} {b b' : Bool} {e : α → γ} {must : α → ParseState → Prop}
    {s s' : ParseState} {x x' : α × ParseState}
    (h : PairOutcome T .nothing line n (fun _ _ => True) e s s' x x' ∧ (¬T.Passed x.2 x'.2 → e x.1 = e x'.1)) (pos : 0 < n)
    (failed : b = b') (depth : x.2.depth = x'.2.depth)
    (sorted : x.2.tokens.Pairwise fun t u => t.start.offset < u.start.offset)
    (sorted' : x'.2.tokens.Pairwise fun t u => t.start.offset < u.start.offset) :
    PairOutcome T .nothing line n must e s s' (x.1, { x.2 with failed := b }) (x'.1, { x'.2 with failed := b' }) := by
  obtain ⟨outcome, value⟩ := h
  cases outcome with
  | passed passed => exact .passed passed
  | inStep i le step same read =>
    exact .inStep i le { step with failed := failed } same (fun _ => read trivial) False.elim
  | stuck unlike stuck =>
    by_cases passed : T.Passed x.2 x'.2
    · exact .passed passed
    refine .inStep 0 (Nat.zero_le n) ⟨⟨[], [], .nil, rfl, stuck.left, stuck.right⟩, sorted, sorted', failed, depth, ?_, ?_⟩
      (value passed) (fun _ => pos) False.elim
    · exact fun inside => absurd inside (Nat.lt_irrefl 0)
    · exact fun _ inside => absurd inside (Nat.lt_irrefl 0)

namespace Lockstep

protected theorem skipToStatement : Lax T K line k P (fun _ => ()) skipToStatement skipToStatement :=
  .discard (scanKind (fun _ h => by simp only [h]) fun _ h => by simp [h, TokenKind.endsBatch])

/-- After a statement with a fault, both runs skip, and at least one token has been read since the statement began. -/
theorem synchronize_sim {i n : Nat} {s s' s₁ s₁' : ParseState} (step : InStep T line n s s') (within : Within n s)
    (suffix : s₁.tokens <:+ s.tokens) (suffix' : s₁'.tokens <:+ s'.tokens) (after : InStep T line i s₁ s₁') (le : i ≤ n) :
    PairOutcome T .nothing line n (fun _ _ => True) (fun _ => ()) s s' (synchronize s.current s₁)
      (synchronize s'.current s₁') := by
  have skip : Lax T .nothing line (n + 1) Anywhere (fun _ => ()) skipToStatement skipToStatement := .skipToStatement
  obtain ⟨length, length'⟩ := step.length
  obtain ⟨length₁, length₁'⟩ := after.length
  rw [synchronize_eq, synchronize_eq]
  rcases Nat.lt_or_eq_of_le le with lt | rfl
  · have before := ParseState.offset_lt step.sorted suffix (by omega)
    have before' := ParseState.offset_lt step.sorted' suffix' (by omega)
    rw [either_neg (by simp [Nat.ne_of_gt before]), either_neg (by simp [Nat.ne_of_gt before'])]
    exact ((skip.sim (by omega) after trivial).read lt id).silent
  · have same : s₁.current = s.current :=
      (List.cons.inj (suffix.eq_of_length (by omega) : s₁.tokens = s.tokens)).1
    have same' : s₁'.current = s'.current :=
      (List.cons.inj (suffix'.eq_of_length (by omega) : s₁'.tokens = s'.tokens)).1
    have within : s.current.kind.endsBatch = false := within
    have within' : s'.current.kind.endsBatch = false := by
      rcases step.current_cases with ⟨alike, _⟩ | ⟨ends, _⟩
      · rwa [← alike.kind]
      · simp [within] at ends
    have inside : Within i s₁ := by
      unfold Within
      rwa [same]
    rw [either_pos (by simp [same, within]), either_pos (by simp [same', within'])]
    have first : Lockstep T .nothing line (i + 1) Within (fun _ _ => True) (fun _ => ())
      (Parse.advance >>= fun _ => skipToStatement)
      (Parse.advance >>= fun _ => skipToStatement) := advanceIn (Nat.le_succ _) id skip
    exact (first.sim (Nat.lt_succ_self i) after inside).silent

theorem recovered_sim {i n : Nat} {s s' s₁ s₁' : ParseState} {stmt stmt' : Stmt} (step : InStep T line n s s')
    (within : Within n s) (suffix : s₁.tokens <:+ s.tokens) (suffix' : s₁'.tokens <:+ s'.tokens)
    (after : InStep T line i s₁ s₁') (le : i ≤ n) (read : s₁.failed = false → i < n) (same : stmt.bare = stmt'.bare) :
    PairOutcome T .nothing line n (fun _ _ => True) (Option.map Stmt.bare) s s' (recovered s.current stmt s₁)
      (recovered s'.current stmt' s₁') := by
  rw [recovered_eq, recovered_eq]
  cases failed : s₁.failed with
  | true =>
    rw [either_pos failed, either_pos (after.failed ▸ failed)]
    cases synchronize_sim step within suffix suffix' after le with
    | passed passed => exact .passed passed
    | stuck unlike stuck => exact .stuck unlike stuck
    | inStep l le step _ read => exact .inStep l le step rfl read False.elim
  | false =>
    rw [either_neg failed, either_neg (after.failed ▸ failed)]
    have rest : Lax T .nothing line (n + 1) Anywhere (Option.map Stmt.bare)
        (discard (Parse.accept Symbol.semicolon) >>= fun _ => pure (if stmt.isMissing then none else some stmt))
        (discard (Parse.accept Symbol.semicolon) >>= fun _ => pure (if stmt'.isMissing then none else some stmt')) := by
      refine .accepted (.pure ?_)
      rw [← Stmt.isMissing_bare stmt, ← Stmt.isMissing_bare stmt', same]
      split <;> simp [same]
    exact ((rest.sim (by omega) after trivial).read (read failed) id).silent

/-- Whatever came of the statement, the runs yield the same unless they have read into the tails. -/
theorem recovering_sim {n : Nat} {s s' s₁ s₁' : ParseState} {x x' : Stmt × ParseState} (step : InStep T line n s s')
    (within : Within n s) (suffix : x.2.tokens <:+ s.tokens) (suffix' : x'.2.tokens <:+ s'.tokens)
    (outcome : PairOutcome T .nothing line n (fun _ s => s.failed = false) Stmt.bare s₁ s₁' x x') :
    PairOutcome T .nothing line n (fun _ _ => True) (Option.map Stmt.bare) s s' (recovered s.current x.1 x.2)
      (recovered s'.current x'.1 x'.2) ∧
      (¬T.Passed (recovered s.current x.1 x.2).2 (recovered s'.current x'.1 x'.2).2 →
        (recovered s.current x.1 x.2).1.map Stmt.bare = (recovered s'.current x'.1 x'.2).1.map Stmt.bare) := by
  rw [recovered_value, recovered_value]
  cases outcome with
  | passed passed =>
    have passed := passed.run (.recovered s.current x.1) (.recovered s'.current x'.1)
    exact ⟨.passed passed, fun still => absurd passed still⟩
  | inStep i le after same read =>
    refine ⟨recovered_sim step within suffix suffix' after le read same, fun _ => ?_⟩
    rw [← Stmt.isMissing_bare, same, Stmt.isMissing_bare, after.failed]
    split <;> simp [same]
  | stuck unlike stuck =>
    exact ⟨stuck.run unlike (.recovered ..) (.recovered ..), fun _ => by simp [stuck.failed, stuck.failed']⟩

/-! ### Parts without the grammar -/

variable {must : Stmt → ParseState → Prop}

protected theorem skipModuleOption : Lockstep T K line k P (fun b _ => b = true) id skipModuleOption skipModuleOption := by
  refine take (.kind _) (.required <| .andThen .advance (.pure rfl)) <| take (.word _) ?_ ?_
  · refine .andThen (.discard (.scan (fun _ => ()) ?_ ?_ ?_ fun _ => id)) (.andThen .advance (.pure rfl))
    · intro n s s' _ _ _ step
      rw [step.alike.kind, (Token.Sign.isWord _).alike step.alike]
    · intro s s' _ _ _ kind kind'
      have ends : s.current.kind.endsBatch = true := by simp [kind, TokenKind.endsBatch]
      have ends' : s'.current.kind.endsBatch = true := by simp [kind', TokenKind.endsBatch]
      rw [kind, kind', (Token.Sign.isWord _).ends ends, (Token.Sign.isWord _).ends ends']
    · intro s _ kind
      simp [kind]
  · refine ite (.and (.kind _) (.nextKind _)) ?_ <| take (.kind _) (.pure rfl) (.andThen (.unexpected _) .refused)
    exact advanceIn (Nat.le_succ k) id <| .andThen .advance <| .andThen .advance (.pure rfl)

protected theorem skipModuleOptions : Lax T K line k P (fun _ => ()) skipModuleOptions skipModuleOptions :=
  .skipWhile (stepIte .skipModuleOption (Lockstep.accept _).lax .refused)

protected theorem optionalModuleOptions : Lax T K line k P (fun _ => ()) optionalModuleOptions optionalModuleOptions :=
  take (.kind _) .skipModuleOptions (.pure rfl)

theorem constraint_test : Test T line 0 1 fun s =>
    s.current.kind == .ident && !s.current.quoted && constraintWords.contains (Text.upper s.current.literal) := by
  refine .current (p := fun t => t.kind == .ident && !t.quoted && constraintWords.contains (Text.upper t.literal))
    ⟨fun alike => by rw [alike.kind, alike.quoted, alike.literal], fun ends => ?_⟩
  rw [(Token.Sign.kind (show TokenKind.ident.endsBatch = false from rfl)).ends ends, Bool.false_and, Bool.false_and]

/-- What is compared of the result of a function. -/
def returnsBare (result : Returns) : Returns := { result with columns := result.columns.map ColumnDef.bare }

protected theorem triggerEvent [Inside T P] : Lockstep T K line k P (fun _ _ => True) id triggerEvent triggerEvent := by
  refine take (.kind _) (.pure rfl) <| ite (.and (.kind _) (.nextWord _)) ?_ <| ite (.and (.kind _) (.nextKind _)) ?_ ?_
  · exact advanceIn (Nat.le_succ k) id <| .andThen .advance (.pure rfl)
  · exact advanceIn (Nat.le_succ k) id <| .andThen .advance <| .andThen .advance (.pure rfl)
  · exact (takeFirst fun literal => .pure rfl).mono (Nat.le_succ k)

protected theorem triggerEvents : Lax T K line k P id triggerEvents triggerEvents := by
  refine .bind (e := List.map (Option.map id)) (.collect (current ?_ ?_)) fun _ _ same => .pure ?_
  · rintro ⟨kind⟩ ⟨⟩ ⟨rfl, rfl, rfl⟩ more
    have : Inside T (At kind) := inside_at more
    refine ifThenElse Iff.rfl .nothing <| .readBind (Nat.le_succ k) .triggerEvent ?_
    rintro event _ rfl
    exact .pure rfl
  · rintro t t' (kind | kind) (kind' | kind') <;> simp only [kind, kind', TokenKind.endsBatch, Bool.or_true, if_true] <;>
      exact .nothing
  · simpa using filterMap_congr same

theorem statementEnd_test : Test T line 0 0 fun s => s.current.kind.endsStatement := .anyKind _ rfl

protected theorem dropNames : Lax T K line k P (List.map ObjectName.bare) dropNames dropNames :=
  .repeats ⟨.cutOff _, .cutOff _⟩ fun _ ih => sees (.commaRound .objectName ih) (.pure rfl)

protected theorem drop : Lockstep T K line (k + 1) (At (.keyword .DROP)) must Stmt.bare drop drop := by
  refine .position fun _ _ => requireFirst <| tokenPast ?_
  rintro ⟨⟩ ⟨⟩ ⟨rfl, rfl, rfl⟩
  refine iteThen (.and (.kind _) (.nextKind _)) (fun rest => .andThen .advance <| .andThen .advance rest) ?_
  refine .bind .dropNames fun _ _ same => ?_
  refine iteThen statementEnd_test.not (fun rest => .andThen .skipStatement rest) <| .spanned ?_
  simp [same]

protected theorem truncate : Lockstep T K line (k + 1) (At (.keyword .TRUNCATE)) must Stmt.bare truncate truncate := by
  refine .position fun _ _ => requireFirst <| .required <| .bind .objectName fun _ _ same => ?_
  refine iteThen (.and (.kind _) (.nextKind _)) (fun rest => .andThen .advance <| .andThen .skipParens rest) ?_
  exact .spanned (by simp [same])

/-! ### Parts of definitions -/

variable (hg : GrammarLock T k g g' L)

include hg

protected theorem listItem :
    Lockstep T .nothing line k Within (fun _ _ => True) (Option.map Stmt.bare) (listItem g) (listItem g') := by
  have lock : Lockstep T .nothing line k Anywhere (fun _ s => s.failed = false) Stmt.bare g.stmt g'.stmt := hg.stmt
  refine take (.kind _) (.pure rfl) ⟨?_, ?_, fun {n s s'} lt step within => ?_⟩
  · exact .bind (.look _) fun start => .apart (lock.left.bind fun stmt => .recovered start stmt)
  · exact .bind (.look _) fun start => .apart (lock.right.bind fun stmt => .recovered start stmt)
  have pos := Inside.pos step within
  have fresh : InStep T line n { s with failed := false } { s' with failed := false } := { step with failed := rfl }
  have tame := lock.left.bind fun stmt => .recovered s.current stmt
  have tame' := lock.right.bind fun stmt => .recovered s'.current stmt
  show PairOutcome T .nothing line n _ _ s s' (apart (g.stmt >>= recovered s.current) s)
    (apart (g'.stmt >>= recovered s'.current) s')
  rw [apart_apply, apart_apply]
  refine PairOutcome.apart ?_ pos step.failed ?_ ?_ ?_
  · exact recovering_sim step within (lock.left.suffix _) (lock.right.suffix _) (lock.sim lt fresh trivial)
  · rw [tame.depth, tame'.depth, step.depth]
  · exact step.sorted.sublist (tame.suffix _).sublist
  · exact step.sorted'.sublist (tame'.suffix _).sublist

protected theorem stmtList (stop : TokenKind → Bool) :
    Lax T K line k P (List.map Stmt.bare) (stmtList g stop) (stmtList g' stop) := by
  refine .alone (.bind (e := List.map (Option.map Stmt.bare)) (.collect (current ?_ ?_)) fun _ _ same =>
    .pure (filterMap_congr same)) ?_
  · rintro ⟨⟩ ⟨⟩ ⟨rfl, rfl, rfl⟩ more
    refine ifThenElse Iff.rfl .nothing ?_
    refine .readBind (Nat.le_succ k) ((Lockstep.listItem hg).weaken.starting ?_) fun _ _ same => .pure (by simp [same])
    rintro n s rfl
    exact more
  · rintro t t' (kind | kind) (kind' | kind') <;> simp only [kind, kind', TokenKind.endsBatch, Bool.true_or, if_true] <;>
      exact .nothing
  · intro n s lt step closed _ known
    have sole := step.sole closed
    have length := sole.length.1.symm.trans step.length.1
    exact stmtList_run hg (Facts.Extends.same known) closed stop sole (by omega)

protected theorem moduleBody : Lax T K line k P (List.map Stmt.bare) (moduleBody g) (moduleBody g') := .stmtList hg _

protected theorem blockBody : Lax T K line k P (List.map Stmt.bare) (blockBody g) (blockBody g') := .stmtList hg _

protected theorem paramDef : Lax T K line k P ParamDef.bare (paramDef g) (paramDef g') := by
  refine .bindEq .takeLiteral fun name => .accepted ?_
  refine takeJoin id (.kind _) (fun rest => .bind (.pure rfl) rest) .dataType ?_
  rintro typeName _ rfl
  refine .andThen (.discard (.acceptWord _)) ?_
  refine takeOr (.kind _) (.some hg.expr)
    fun default default' same => .bindEq .isOutput fun output => .bindEq (Lockstep.acceptWord _).lax fun readOnly => ?_
  exact .pure (by simp [ParamDef.bare, same])

protected theorem paramDefs : Lax T K line k P (List.map ParamDef.bare) (paramDefs g) (paramDefs g') :=
  .repeats ⟨.cutOff _, .cutOff _⟩ fun le ih => sees (.commaRound (.paramDef (hg.mono le)) ih) (.pure rfl)

protected theorem columnDef : Lax T K line k P (Option.map ColumnDef.bare) (columnDef g) (columnDef g') := by
  refine ite constraint_test (.andThen .skipElement (.pure rfl)) <| .bindEq .ident fun name => take (.kind _) ?_ ?_
  · exact .bind hg.expr fun _ _ same => .andThen .skipElement (.pure (by simp [ColumnDef.bare, same]))
  · exact .bindEq .dataType fun typeName => .andThen .skipElement (.pure rfl)

protected theorem columnDefs : Lax T K line k P (List.map ColumnDef.bare) (columnDefs g) (columnDefs g') := by
  refine .required <| Loose.closeLoop (e := List.map (Option.map ColumnDef.bare))
    (.repeats ⟨.cutOff _, .cutOff _⟩ fun {i i' j} le ih => ?_) fun _ _ same => .pure (filterMap_congr same)
  refine .unlessClosed (.ofLockstep (.pure rfl)) <| .bind (.ofLockstep (.columnDef (hg.mono le))) fun _ _ same => ?_
  refine .takeIn (j := j - 1) (by omega) (.kind _) ?_ (.ofLockstep (.pure (by simp [same])))
  exact .bind ih.weaken fun _ _ more => .ofLockstep (.pure (by simp [same, more]))

/-! ### Definitions -/

variable {start start' : Text.Position} [Same K start start']

protected theorem createProc (alter : Bool) :
    Lax T K line k P Stmt.bare (createProc g start alter) (createProc g' start' alter) := by
  refine .required <| .bind .objectName fun name name' sameName => ?_
  refine iteThen (.and (.kind _) (.nextKind _)) (fun rest => .andThen .advance <| .andThen .advance rest) ?_
  refine takeJoin (List.map ParamDef.bare) (.kind _) (fun rest => ?_) (.paramDefs hg) fun params params' sameParams => ?_
  · exact .bind (.paramDefs hg) fun _ _ same => .required <| .resume rest same
  refine .andThen .optionalModuleOptions ?_
  refine iteThen (.and (.kind _) (.nextWord _)) (fun rest => .andThen .advance <| .andThen .advance rest) ?_
  refine expect (.bind (.moduleBody hg) fun _ _ sameBody => .spanned ?_) (.pure rfl)
  simp [sameName, sameParams, sameBody]

protected theorem createView (alter : Bool) :
    Lax T K line k P Stmt.bare (createView g start alter) (createView g' start' alter) := by
  refine .required <| .bind .objectName fun name name' sameName => ?_
  refine iteOr (.kind _) .identList ?_
  rintro columns _ rfl
  refine .andThen .optionalModuleOptions <| expect (.bind hg.innerQuery fun _ _ same => ?_) (.pure rfl)
  refine iteThen (.and (.and (.kind _) (.nextWord _)) (.afterNextKind _))
    (fun rest => .andThen .advance <| .andThen .advance <| .andThen .advance rest) <| .spanned ?_
  simp [sameName, same]

/-- The body of an inline function is read with its own mark, which both runs set and clear. -/
protected theorem functionBody (inline : Bool) :
    Lax T K line k P (List.map Stmt.bare) (functionBody g inline) (functionBody g' inline) := by
  have body : Lax T K line k Anywhere (List.map Stmt.bare) (moduleBody g) (moduleBody g') := .moduleBody hg
  refine ifThenElse Iff.rfl ⟨?_, ?_, fun {n s s'} lt step _ => ?_⟩ (body.starting fun _ _ _ => trivial)
  · exact .marked body.left
  · exact .marked body.right
  have marked : InStep T line n { s with inlineFunction := true } { s' with inlineFunction := true } :=
    { step with inline := fun _ => rfl }
  show PairOutcome T K line n _ _ s s'
    ((moduleBody g _).1, { (moduleBody g { s with inlineFunction := true }).2 with inlineFunction := false })
    ((moduleBody g' _).1, { (moduleBody g' { s' with inlineFunction := true }).2 with inlineFunction := false })
  cases body.sim lt marked trivial with
  | passed passed => exact .passed passed
  | stuck unlike stuck => exact .stuck unlike { stuck with }
  | inStep i le step same _ one =>
    refine .inStep i le { step with inline := fun _ => rfl } same False.elim fun known alone => ?_
    have run := one known ⟨by rw [alone.same], alone.closed⟩
    exact run.framed ⟨List.suffix_rfl, rfl, rfl, rfl⟩ ⟨List.suffix_rfl, rfl, rfl, rfl⟩ (by rw [run.same])

protected theorem returns : Lax T K line k P returnsBare (returns g) (returns g') := by
  refine .andThen (.requireWord _) <| sees ?_ <| take (.kind _) (.pure rfl) (.bindEq .dataType fun _ => .pure rfl)
  refine .bindEq .takeLiteral fun table => .required <| .bind (.columnDefs hg) fun _ _ same => .pure ?_
  simp [returnsBare, same]

protected theorem createFunction (alter : Bool) :
    Lax T K line k P Stmt.bare (createFunction g start alter) (createFunction g' start' alter) := by
  refine .required <| .bind .objectName fun name name' sameName => .required ?_
  refine iteJoin (List.map ParamDef.bare) (.kind _) (fun rest => .bind (.pure rfl) rest) (.paramDefs hg)
    fun params params' sameParams => .required <| .bind (.returns hg) ?_
  rintro ⟨type, table, columns, inline⟩ ⟨_, _, columns', _⟩ same
  simp only [returnsBare, Returns.mk.injEq] at same
  obtain ⟨rfl, rfl, sameColumns, rfl⟩ := same
  refine .andThen .optionalModuleOptions <| .accepted <| .bind (.functionBody hg inline) ?_
  refine fun _ _ sameBody => .spanned ?_
  simp [FunctionHeader.bare, sameName, sameParams, sameColumns, sameBody]

protected theorem createTrigger (alter : Bool) :
    Lax T K line k P Stmt.bare (createTrigger g start alter) (createTrigger g' start' alter) := by
  refine .required <| .bind .objectName fun name name' sameName => .required ?_
  refine iteJoin (Option.map ObjectName.bare) (.or (.kind _) (.word _)) (fun rest => ?_) (.some .objectName)
    fun table table' sameTable => ?_
  · exact .accepted <| .andThen .advance <| .bind (.pure rfl) rest
  let _ : HasHoles Bool := ⟨(· = true)⟩
  have yes {K : Facts} : Whole K true := ⟨fun _ => rfl⟩
  have announced {K : Facts} : Lax T K line k Anywhere id createTrigger.announced createTrigger.announced :=
    take (.kind _) (.pure rfl) <| take (.word _) (.pure rfl) <|
      take (.word _) (.andThen (.requireWord _) (.pure rfl)) (blame (.pure rfl))
  refine .andThen .optionalModuleOptions <| .bind announced ?_
  rintro (_ | _) _ rfl
  · have : Given (((K.learn name name').learn table table').learn false (id false)) (false = true) := ⟨And.right⟩
    exact .refuted (false = true) Bool.false_ne_true (.pure rfl)
  refine .bindEq .triggerEvents fun events => ?_
  refine expect (.bind (.moduleBody hg) fun _ _ sameBody => .spanned ?_) (.pure rfl)
  simp [sameName, sameTable, sameBody]

protected theorem createTable : Lax T K true k P Stmt.bare (createTable g start) (createTable g' start') := by
  refine .required <| .bind .objectName fun name name' sameName => ite (.or (.kind _) (.word _)) ?_ ?_
  · exact .andThen .skipStatement <| .spanned (by simp [sameName])
  · refine .bind (.columnDefs hg) fun _ _ same => ?_
    refine iteThen statementEnd_test.not (fun rest => .andThen .skipStatement rest) <| .spanned ?_
    simp [sameName, same]

protected theorem create [Inside T P] : Lockstep T K line (k + 1) P must Stmt.bare (create g) (create g') := by
  have skipped : ∀ {K : Facts} {P : Nat → ParseState → Prop} start start' [Same K start start'] keyword,
      Lax T K true k P Stmt.bare
      (create.skipped start keyword) (create.skipped start' keyword) := fun _ _ _ _ =>
    .andThen .skipStatement <| .spanned rfl
  refine .position fun start start' => currentIn ?_
  rintro ⟨⟩ ⟨⟩ ⟨rfl, rfl, rfl⟩
  refine lookEq (fun step _ => (Test.kind Keyword.ALTER).agree (Nat.zero_le _) step) fun isAlter => ?_
  refine .starting (advanceFirst ?_) fun _ _ p => p.1
  refine ifJoin id Iff.rfl (fun _ rest => .bind (.pure rfl) rest) (Lockstep.accept _).lax ?_
  rintro orAlter _ rfl
  refine ifThen Iff.rfl (fun rest => .required rest) <| current ?_ ?_
  · rintro ⟨⟩ ⟨⟩ ⟨rfl, rfl, rfl⟩ _
    dsimp only
    split
    · exact .createProc hg _
    · exact .createView hg _
    · exact .createFunction hg _
    · exact .createTrigger hg _
    · exact ifThenElse Iff.rfl (.createTable hg) (skipped _ _ _)
    · exact skipped _ _ _
  · rintro t t' (kind | kind) (kind' | kind') <;> simp only [kind, kind'] <;> exact skipped _ _ _

/-! ### Declarations -/

protected theorem varDecl : Lax T K line k P VarDecl.bare (varDecl g) (varDecl g') := by
  refine .position fun _ _ => .bindEq .takeLiteral fun name => .accepted ?_
  refine take (.kind _) ?_ <| take (.kind _) (.spanned rfl) <| .bindEq .dataType fun typeName => ?_
  · exact .bind (.columnDefs hg) fun _ _ same => .spanned (by simp [VarDecl.bare, same])
  · exact takeOr (.kind _) (.some hg.expr) fun value value' same => .spanned (by simp [VarDecl.bare, same])

protected theorem varDecls : Lax T K line k P (List.map VarDecl.bare) (varDecls g) (varDecls g') :=
  .repeats ⟨.cutOff _, .cutOff _⟩ fun le ih => sees (.commaRound (.varDecl (hg.mono le)) ih) (blame (.pure rfl))

protected theorem declareCursor : Lax T K line k P Stmt.bare (declareCursor g start) (declareCursor g' start') := by
  refine .bindEq .ident fun name => .andThen (.discard (scanKind (fun _ h => ?_) fun _ h => ?_)) ?_
  · simp only [h]
  · simp [h, TokenKind.endsStatement, TokenKind.endsBranch]
  · refine .required <| .bind hg.innerQuery fun _ _ same => .spanned ?_
    simp [same]

protected theorem declare :
    Lockstep T K line (k + 1) (At (.keyword .DECLARE)) must Stmt.bare (declare g) (declare g') := by
  refine .position fun _ _ => requireFirst <| sees (.declareCursor hg) <| .bind (.varDecls hg) fun _ _ same => ?_
  exact .spanned (by simp [same])

end Lockstep

end Parse

end ColumnFlow
