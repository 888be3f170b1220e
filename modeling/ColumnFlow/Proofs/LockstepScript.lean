import ColumnFlow.Proofs.LockstepControl

/-!
# Statements in lockstep, and the whole grammar

The entry points of the grammar call each other through one another, each time with fewer common tokens left. So
the grammar that can be nested `k` deep is in lockstep where fewer than `k` common tokens are left, whatever fuel
is left beyond that in the two runs.
-/

namespace ColumnFlow

namespace Parse.Lockstep

variable {T : Tails} {L K : Facts} [K.Extends L] {line : Bool} {k : Nat} {P : Nat → ParseState → Prop} {g g' : Grammar}
  {must : Stmt → ParseState → Prop}

protected theorem withStmt (hg : GrammarLock T k g g' L) :
    Lockstep T K line (k + 1) (At (.keyword .WITH)) must Stmt.bare (withStmt g) (withStmt g') := by
  refine .readBind (Nat.le_refl _) (.withClause hg) fun ctes ctes' same => current ?_ ?_
  · have same : (some ctes).map WithClause.bare = (some ctes').map WithClause.bare := by simp [same]
    have query : ∀ {K : Facts} [K.Extends L] [Same K ctes ctes'] [Whole K ctes] {P}, Lax T K line k P
        Stmt.bare (do return .select (← query g (some ctes))) (do return .select (← query g' (some ctes'))) :=
      .bind ((Lockstep.query hg same).mono (Nat.le_succ k)) fun _ _ same => .pure (by simp [same])
    rintro ⟨⟩ ⟨⟩ ⟨rfl, rfl, rfl⟩ _
    dsimp only
    split
    · exact query
    · exact query
    · exact (Lockstep.insert hg same).mono (Nat.le_succ k)
    · exact (Lockstep.update hg same).mono (Nat.le_succ k)
    · exact (Lockstep.delete hg same).mono (Nat.le_succ k)
    · exact (Lockstep.merge hg same).mono (Nat.le_succ k)
    · exact blame (.pure rfl)
  · rintro t t' (kind | kind) (kind' | kind') <;> simp only [kind, kind'] <;> exact blame (.pure rfl)

protected theorem noStmt : Lockstep T K line k P (fun _ s => s.failed = false) Stmt.bare stmt.noStmt stmt.noStmt :=
  faulty rfl fun _ _ => id

/-- A query as a statement, which is known to start here. -/
theorem selectStmt (hg : GrammarLock T k g g' L) {kind : TokenKind} (starts : kind = Keyword.SELECT ∨ kind = Symbol.lparen) :
    Lockstep T K line (k + 1) (At kind) (fun _ s => s.failed = false) Stmt.bare (do return .select (← query g none))
      (do return .select (← query g' none)) := by
  refine (queryFirst hg rfl starts).bindWith (fun _ => .pure _) (fun _ => .pure _) fun {_ _ _ _ s _} lt le step same read => ?_
  refine .inStep _ le step (show Stmt.bare (.select _) = Stmt.bare (.select _) by simp [same]) read ?_
  exact fun known alone => ⟨by rw [known.2, alone.same], .quiet (quiet_refl s), fun whole _ => .select whole.2⟩

/-- A statement without a fault has read a token. -/
protected theorem stmt (hg : GrammarLock T k g g' L) :
    Lockstep T K line (k + 1) P (fun _ s => s.failed = false) Stmt.bare (stmt g) (stmt g') := by
  refine current ?_ ?_
  · rintro ⟨⟩ ⟨⟩ ⟨rfl, rfl, rfl⟩ more
    dsimp only
    split
    · exact selectStmt hg (.inr rfl)
    · split
      · exact selectStmt hg (.inl rfl)
      · exact .withStmt hg
      · exact .insert hg rfl
      · exact .update hg rfl
      · exact .delete hg rfl
      · exact .merge hg rfl
      · exact .readBind (Nat.le_refl _) (.exec hg) fun _ _ same => .pure (by simp [same])
      · exact .declare hg
      · exact .set hg
      · exact .ifElse hg
      · exact whileLoop hg
      · exact .begins hg
      · exact .transaction
      · exact .transaction
      · exact .transaction
      · exact .returnStmt hg
      · exact .print hg
      · exact .raise hg
      · exact .create hg
      · exact .create hg
      · exact .drop
      · exact .truncate
      · exact .cursor hg
      · exact .cursor hg
      · exact .cursor hg
      · exact .cursor hg
      · exact .jump
      · exact .jump
      · exact .goto
      · exact .useDatabase
      · exact .other
      · exact .other
      · exact .noStmt
    · exact ifThenElse Iff.rfl (.raise hg) <| iteIn (.and (.const _) (.nextKind _)) .label .other
    · exact .noStmt
  · rintro t t' (kind | kind) (kind' | kind') <;> simp only [kind, kind'] <;> exact .noStmt

end Parse.Lockstep

/-- The grammar whose productions call the entry points of another one. -/
def Grammar.next (g : Grammar) : Grammar where
  exprAt least s := Parse.exprAt g least s
  withClause s := Parse.withClause g s
  query ctes s := Parse.query g ctes s
  selectBody s := Parse.selectBody g s
  table s := Parse.tableRef g s
  stmt s := Parse.stmt g s

/-- Every entry point of the grammar is tame. -/
structure Grammar.Tame (g : Grammar) : Prop where
  exprAt : ∀ {least : Nat}, 1 ≤ least → (g.exprAt least).Tame
  withClause : g.withClause.Tame
  query : ∀ ctes, (g.query ctes).Tame
  selectBody : g.selectBody.Tame
  table : g.table.Tame
  stmt : g.stmt.Tame

namespace GrammarLock

open Parse

variable {T : Tails} {L : Facts} {j k f f' : Nat} {g g' : Grammar}

/-- Where no common token is left, nothing is claimed of two runs together. -/
theorem ofTame (left : g.Tame) (right : g'.Tame) (full : L.same → g' = .full) (whole : L.same → L.whole) :
    GrammarLock T 0 g g' L where
  full
  whole
  exprAt pos := .of_tame (left.exprAt pos) (right.exprAt pos)
  withClause := .of_tame left.withClause right.withClause
  query _ := .of_tame (left.query _) (right.query _)
  selectBody := .of_tame left.selectBody right.selectBody
  table := .of_tame left.table right.table
  stmt := .of_tame left.stmt right.stmt

theorem tame (h : GrammarLock T k g g' L) : g.Tame where
  exprAt pos := (h.exprAt pos : Lax T .nothing true k Anywhere Expr.bare _ _).left
  withClause := (h.withClause : Lax T .nothing true k _ WithClause.bare _ _).left
  query _ := (h.query rfl : Lax T .nothing true k Anywhere Query.bare _ _).left
  selectBody := (h.selectBody : Lax T .nothing true k Anywhere SelectBody.bare _ _).left
  table := (h.table : Lax T .nothing true k Anywhere TableRef.bare _ _).left
  stmt := (h.stmt : Lockstep T .nothing true k Anywhere _ Stmt.bare _ _).left

/-- The productions over two grammars are in lockstep for one token more. -/
theorem close (h : GrammarLock T k g g') : GrammarLock T (k + 1) g.next g'.next where
  full := False.elim
  whole := False.elim
  exprAt pos := .exprAt h pos
  withClause := .withClause h
  query same := .query h same
  selectBody := .selectBody h
  table := .tableRef h
  stmt := .stmt h

end GrammarLock

/-- The tail of a text that ends. -/
def Tail.ofEnd (t : Token) (eof : t.kind = .eof) (literal : t.literal = "") (quoted : t.quoted = false) : Tail where
  first := t
  rest := []
  ends := by rw [eof]; rfl
  last _ := ⟨rfl, literal, quoted⟩
  more separator := by simp [eof] at separator

/-- Nothing stands behind the end of the text. -/
def Parse.endTails : Tails := ⟨.ofEnd { kind := .eof } rfl rfl rfl, .ofEnd { kind := .eof } rfl rfl rfl⟩

/-- The entry points of the grammar can be nested `k` deep, whatever they do below that. -/
inductive Grammar.Deep : Nat → Grammar → Prop
  | any {g} : g.Tame → Deep 0 g
  | next {k g} : Deep k g → Deep (k + 1) g.next

namespace Grammar.Deep

open Parse

variable {T : Tails} {j k f : Nat} {g g' : Grammar}

theorem tame (h : Deep k g) : g.Tame := by
  induction h with
  | any tame => exact tame
  | next _ ih => exact (GrammarLock.close (.ofTame (T := endTails) ih ih False.elim False.elim)).tame

theorem mono (h : Deep k g) (le : j ≤ k) : Deep j g := by
  induction h generalizing j with
  | any tame => exact Nat.le_zero.mp le ▸ .any tame
  | next h ih =>
    cases j with
    | zero => exact .any h.next.tame
    | succ j => exact .next (ih (Nat.le_of_succ_le_succ le))

protected theorem ofDepth : ∀ f, Deep f (.ofDepth f)
  | 0 => .any ⟨fun _ => .pure _, .pure _, fun _ => .pure _, .pure _, .pure _, .pure _⟩
  | f + 1 => .next (.ofDepth f)

/-- Two grammars that are deep enough do the same. -/
theorem lock (h : Deep k g) (h' : Deep k g') : GrammarLock T k g g' := by
  induction h generalizing g' with
  | any tame => exact .ofTame tame h'.tame False.elim False.elim
  | next _ ih =>
    cases h' with
    | next h' => exact .close (ih h')

end Grammar.Deep

theorem GrammarLock.ofDepth {T : Tails} {k f f' : Nat} (le : k ≤ f) (le' : k ≤ f') :
    GrammarLock T k (.ofDepth f) (.ofDepth f') :=
  ((Grammar.Deep.ofDepth f).mono le).lock ((Grammar.Deep.ofDepth f').mono le')

/-! ### The full grammar -/

/-- Runs are one, and their values have no holes. -/
def Facts.one : Facts := ⟨True, True⟩

namespace Parse

/-- A parser that is chosen by the state it starts in. -/
theorem Tame.along {α : Type} {m : ParseState → Parse α} (h : ∀ s, Tame (m s)) : Tame fun s => m s s :=
  ⟨fun s => (h s).suffix s, fun s => (h s).depth s, fun s => (h s).failed s, fun s => (h s).inline s,
    fun s => (h s).onward s⟩

variable {α γ : Type} [HasHoles α] {T : Tails} {K : Facts} {line : Bool} {k : Nat} {P : Nat → ParseState → Prop}
  {must : α → ParseState → Prop} {e : α → γ} {g : Grammar}

/-- An entry point of a grammar that is deep enough does what the one of the full grammar does, if the production
behind it is in lockstep for one token more than the grammar it is run with. -/
theorem Lockstep.close {p q : Grammar → Parse α} (same : K.same → p = q)
    (alike : ∀ {k g g'}, GrammarLock T k g g' → Lockstep T .nothing line (k + 1) P must e (p g) (q g'))
    (one : ∀ {k g}, GrammarLock T k g .full .one → Lockstep T K true (k + 1) P must e (p g) (q .full))
    (deep : g.Deep k) (below : ∀ j ≤ k, GrammarLock T j (.ofDepth (j + 1)) .full .one)
    (hg : GrammarLock T k g .full .one) :
    Lockstep T K line (k + 1) P must e (p g) fun s => q (.ofDepth (s.ahead.length + 1)) s where
  left := (one hg).left
  right := .along fun s => (alike (.ofTame deep.tame (Grammar.Deep.ofDepth _).tame False.elim False.elim)).right
  sim {n s s'} lt step start := by
    have lock : GrammarLock T n g (.ofDepth (s'.ahead.length + 1)) :=
      (deep.mono (Nat.le_of_lt_succ lt)).lock (.mono (.ofDepth _) (Nat.le_succ_of_le step.le_ahead.2))
    refine ((alike lock).sim (Nat.lt_succ_self n) step start).telling fun _ known alone => ?_
    obtain ⟨rfl, closed⟩ := alone
    have sole := step.sole closed
    have length : s.ahead.length = n := Nat.add_right_cancel (sole.length.1.symm.trans step.length.1)
    subst length
    have run := ((one hg).sole known closed sole lt start).2.2
    have short := ((one (below _ (Nat.le_of_lt_succ lt))).sole known closed sole (Nat.lt_succ_self _) start).2.2
    rw [← same known, short.same]
    exact run

end Parse

namespace GrammarLock

open Parse

variable {T : Tails} {k : Nat} {g : Grammar}

theorem next (deep : g.Deep k) (below : ∀ j ≤ k, GrammarLock T j (.ofDepth (j + 1)) .full .one)
    (hg : GrammarLock T k g .full .one) : GrammarLock T (k + 1) g.next .full .one where
  full _ := rfl
  whole _ := trivial
  exprAt {_ _ _ _ least} pos :=
    .close (p := (Parse.exprAt · least)) (fun _ => rfl) (.exprAt · pos) (.exprAt · pos) deep below hg
  withClause := .close (p := Parse.withClause) (fun _ => rfl) (.withClause ·) (.withClause ·) deep below hg
  query {_ _ _ _ ctes ctes' together _} same :=
    .close (p := (Parse.query · ctes)) (q := (Parse.query · ctes')) (fun known => together.eq known ▸ rfl)
      (.query · same) (.query · same) deep below hg
  selectBody := .close (p := Parse.selectBody) (fun _ => rfl) .selectBody .selectBody deep below hg
  table := .close (p := Parse.tableRef) (fun _ => rfl) .tableRef .tableRef deep below hg
  stmt := .close (p := Parse.stmt) (fun _ => rfl) .stmt .stmt deep below hg

end GrammarLock

theorem Grammar.full_tame : Grammar.full.Tame :=
  have tame {α : Type} {p : Grammar → Parse α} (entry : ∀ {g : Grammar}, g.Tame → (p g).Tame) :
      Parse.Tame fun s => p (.ofDepth (s.ahead.length + 2)) s :=
    .along fun s => entry (Deep.ofDepth (s.ahead.length + 2)).tame
  ⟨fun pos => tame (·.exprAt pos), tame (·.withClause), fun ctes => tame (·.query ctes), tame (·.selectBody),
    tame (·.table), tame (·.stmt)⟩

/-- A bound on the depth of recursion is never felt if it exceeds the number of tokens that are ahead. -/
theorem Grammar.Deep.full {T : Tails} {k : Nat} {g : Grammar} (deep : g.Deep k) : GrammarLock T k g .full .one := by
  induction k using Nat.strongRecOn generalizing g with
  | ind k ih =>
    cases deep with
    | any tame => exact .ofTame tame Grammar.full_tame (fun _ => rfl) fun _ => trivial
    | @next k g deep =>
      have below : ∀ j ≤ k, GrammarLock T j (.ofDepth (j + 1)) .full .one := fun j le =>
        ih j (Nat.lt_succ_of_le le) (.mono (.ofDepth (j + 1)) (Nat.le_succ j))
      exact .next deep below (ih k (Nat.lt_succ_self k) deep)

end ColumnFlow
