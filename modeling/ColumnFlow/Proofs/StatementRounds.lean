import ColumnFlow.Proofs.LockstepModify

/-!
# Rounds of statement lists

One round of a list ends in one of two ways. Either it keeps a complete statement and no fault has been accepted on
the level of that statement, or it keeps nothing and exactly one fault has been accepted there. In both it reads at
least one token, so that a list only ends where it is meant to.
-/

namespace ColumnFlow

namespace Parse

/-! ### What a list of statements leaves as it was -/

theorem bind_apply {α β : Type} (m : Parse α) (f : α → Parse β) (s : ParseState) : (m >>= f) s = f (m s).1 (m s).2 := rfl

/-- A collection ends where its step says so. -/
theorem collect_go_none {α : Type} {x : Parse (Option α)} {s s' : ParseState} (h : x s = (none, s')) (n : Nat) :
    collect.go x (n + 1) s = ([], s') := by
  rw [collect.go, bind_apply, h]
  rfl

theorem collect_go_some {α : Type} {x : Parse (Option α)} {s s' : ParseState} {a : α} (h : x s = (some a, s')) (n : Nat) :
    collect.go x (n + 1) s = (a :: (collect.go x n s').1, (collect.go x n s').2) := by
  rw [collect.go, bind_apply, h]
  rfl

/-- If no round changes the mark of a fault, the collection does not. -/
theorem collect_failed {α : Type} {x : Parse (Option α)} (step : ∀ s, (x s).2.failed = s.failed)
    (s : ParseState) : (collect x s).2.failed = s.failed := by
  have rounds : ∀ i s, (collect.go x i s).2.failed = s.failed := by
    intro i
    induction i with
    | zero => exact fun s => rfl
    | succ i ih =>
      intro s
      have kept := step s
      rcases found : x s with ⟨_ | a, s'⟩ <;> rw [found] at kept
      · rw [collect_go_none found, kept]
      · rw [collect_go_some found, ih s', kept]
  exact rounds _ s

theorem listItem_failed (g : Grammar) (s : ParseState) : (listItem g s).2.failed = s.failed := by
  show ((taken _ >>= fun b => if b = true then pure none else _) s).2.failed = _
  rw [taken_bind]
  rcases either_cases _ _ _ s with h | h <;> rw [h]
  · exact ParseState.failed_advance s
  · rfl

/-- A list of statements keeps to itself whether it met a fault. -/
theorem stmtList_failed (g : Grammar) (stop : TokenKind → Bool) (s : ParseState) :
    (stmtList g stop s).2.failed = s.failed := by
  unfold stmtList
  rw [bind_apply]
  refine collect_failed (fun s => ?_) s
  show ((if s.current.kind.endsBatch || stop s.current.kind then pure none else _ : Parse (Option (Option Stmt))) s).2.failed
    = _
  split
  · rfl
  · exact listItem_failed g s

end Parse

namespace OwnLevel

variable {g : Grammar} {s s' : ParseState} {own : List ParseError}

/-- Once a fault is reported no other one is accepted. -/
theorem nil_of_failed (h : OwnLevel g s own s') (failed : s.failed = true) : own = [] ∧ s'.failed = true := by
  induction h with
  | quiet quiet => exact ⟨rfl, quiet.failed.trans failed⟩
  | report fault clean => simp [failed] at clean
  | list stop s => exact ⟨rfl, (Parse.stmtList_failed g stop s).trans failed⟩
  | trans _ _ ih ih' =>
    obtain ⟨rfl, failed'⟩ := ih failed
    obtain ⟨rfl, failed''⟩ := ih' failed'
    exact ⟨rfl, failed''⟩

/-- A level has a fault exactly if one report was accepted on it. -/
theorem accepted (h : OwnLevel g s own s') (clean : s.failed = false) :
    (own = [] ∧ s'.failed = false) ∨ (∃ e, own = [e]) ∧ s'.failed = true := by
  induction h with
  | quiet quiet => exact .inl ⟨rfl, quiet.failed.trans clean⟩
  | report fault => exact .inr ⟨⟨_, rfl⟩, ParseState.failed_report _ fault⟩
  | list stop s => exact .inl ⟨rfl, (Parse.stmtList_failed g stop s).trans clean⟩
  | trans _ second ih ih' =>
    rcases ih clean with ⟨rfl, clean'⟩ | ⟨⟨e, rfl⟩, failed⟩
    · exact ih' clean'
    · obtain ⟨rfl, failed'⟩ := second.nil_of_failed failed
      exact .inr ⟨⟨e, rfl⟩, failed'⟩

end OwnLevel

namespace Parse

variable {T : Tails} {L K : Facts} {k : Nat} {g g' : Grammar} {s s₁ : ParseState}

/-- Where a statement list neither ends with the batch nor at a token it stops at. -/
def Continues (stop : TokenKind → Bool) (s : ParseState) : Prop :=
  (s.current.kind.endsBatch || stop s.current.kind) = false

/-- What is told of a run that is in step with itself. -/
theorem Lockstep.sole {α γ : Type} [HasHoles α] {P : Nat → ParseState → Prop} {must : α → ParseState → Prop} {e : α → γ}
    {m m' : Parse α} (h : Lockstep T K true k P must e m m') (known : K.same) (closed : T.Closed)
    (sole : s.Sole T) (lt : s.ahead.length < k) (start : P s.ahead.length s) :
    (m s).2.Sole T ∧ (must (m s).1 (m s).2 → (m s).2.ahead.length < s.ahead.length) ∧ OneRun K s (m s) (m' s) := by
  cases h.sim lt sole start with
  | passed passed =>
    rcases passed.1 with left | right
    · exact absurd left (Tail.not_passed closed.eof _)
    · exact absurd right (Tail.not_passed (closed.same ▸ closed.eof) _)
  | stuck unlike _ => exact absurd (Tails.alike_of_eof closed.eof (closed.same ▸ closed.eof)) unlike
  | inStep i le step _ read one =>
    have run := one known ⟨rfl, closed⟩
    have after := sole.suffix closed run.own.suffix
    have length : (m s).2.ahead.length = i :=
      (Nat.add_right_cancel (step.length.1.symm.trans after.length.1)).symm
    exact ⟨after, fun must => length ▸ read must, run⟩

/-! ### Parts of a round -/

theorem apart_apply {α : Type} (m : Parse α) (s : ParseState) :
    apart m s = ((m { s with failed := false }).1, { (m { s with failed := false }).2 with failed := s.failed }) := rfl

theorem synchronize_eq (start : Token) :
    synchronize start = either (fun s => s.current.start.offset == start.start.offset && !s.current.kind.endsBatch)
      (advance >>= fun _ => skipToStatement) skipToStatement := rfl

theorem recovered_eq (start : Token) (stmt : Stmt) :
    recovered start stmt = either (·.failed) (synchronize start >>= fun _ => pure none)
      (discard (accept Symbol.semicolon) >>= fun _ => pure (if stmt.isMissing then none else some stmt)) := rfl

/-! ### One round -/

/-- The outcome of a round that began with the statement at `s`. The level of the statement is entered without a fault
and left with the mark of the level around it. A fault that was accepted on it satisfies `place`. -/
inductive Accounted (place : ParseError → Prop) (s : ParseState) : Option Stmt × ParseState → Prop
  | kept {stmt after} : stmt.Complete → OwnLevel .full { s with failed := false } [] after →
      Accounted place s (some stmt, { after with failed := s.failed })
  | dropped {e after} : OwnLevel .full { s with failed := false } [e] after → place e →
      Accounted place s (none, { after with failed := s.failed })

theorem Accounted.imp {place place' : ParseError → Prop} {x : Option Stmt × ParseState} (h : Accounted place s x)
    (each : ∀ e, place e → place' e) : Accounted place' s x := by
  cases h with
  | kept complete level => exact .kept complete level
  | dropped level placed => exact .dropped level (each _ placed)

/-- What one round of a list does. -/
structure Round (s : ParseState) (x : Option Stmt × ParseState) : Prop where
  suffix : x.2.tokens <:+ s.tokens
  cutOff : x.2.cutOff = s.cutOff
  read : x.2.ahead.length < s.ahead.length
  accounted : s.current.kind ≠ Symbol.semicolon → Accounted (fun e => ∃ t ∈ s.tokens, e.position = t.start) s x
  skipped : s.current.kind = Symbol.semicolon → x = (none, s.advance)

theorem Round.complete {x : Option Stmt × ParseState} (h : Round s x) : ∀ stmt ∈ x.1, stmt.Complete := by
  by_cases semicolon : s.current.kind = Symbol.semicolon
  · simp [h.skipped semicolon]
  · cases h.accounted semicolon with
    | kept complete _ => exact fun _ mem => Option.mem_some.mp mem ▸ complete
    | dropped _ _ => exact fun _ mem => absurd mem (Option.not_mem_none _)

theorem discard_state {α : Type} (m : Parse α) (s : ParseState) : (discard m s).2 = (m s).2 := rfl

theorem quiet_skipToStatement (closed : T.Closed) (sole : s.Sole T) : Quiet s (skipToStatement s).2 := by
  unfold skipToStatement
  rw [discard_state]
  refine (quiet_scan (I := fun _ => True) (fun _ eof => ?_) (fun _ => id) trivial closed sole).1
  simp [eof, TokenKind.endsBatch]

theorem quiet_either {α : Type} {v : ParseState → Bool} {yes no : Parse α} (hy : Quiet s (yes s).2)
    (hn : Quiet s (no s).2) : Quiet s (either v yes no s).2 := by
  rcases either_cases v yes no s with same | same <;> rwa [same]

theorem quiet_synchronize (closed : T.Closed) (sole : s.Sole T) (start : Token) : Quiet s (synchronize start s).2 := by
  have after := quiet_skipToStatement closed (sole.suffix closed (ParseState.tokens_advance_suffix s))
  exact synchronize_eq start ▸ quiet_either ((quiet_advance s).trans after) (quiet_skipToStatement closed sole)

/-- Behind a fault at least the token at which the statement began is skipped. -/
theorem synchronize_reads (closed : T.Closed) (sole : s.Sole T) (within : s.current.kind.endsBatch = false)
    (suffix : s₁.tokens <:+ s.tokens) :
    (synchronize s.current s₁).2.ahead.length < s.ahead.length := by
  have le := ParseState.ahead_length_le suffix
  have sole₁ := sole.suffix closed suffix
  by_cases read : s₁.ahead.length < s.ahead.length
  · exact Nat.lt_of_le_of_lt (ParseState.ahead_length_le (quiet_synchronize closed sole₁ s.current).suffix) read
  have same : s₁.tokens = s.tokens := suffix.eq_of_length (by simp only [ParseState.tokens, List.length_cons]; omega)
  obtain ⟨current, ahead⟩ := List.cons.inj (same : s₁.current :: s₁.ahead = s.current :: s.ahead)
  have notEof : s.current.kind ≠ .eof := fun eof => by simp [eof, TokenKind.endsBatch] at within
  have advances := ParseState.ahead_length_advance (s := s₁) (ahead ▸ sole.ahead_ne_nil closed notEof)
  rw [synchronize_eq, either_pos (by simp [current, within])]
  have after := sole₁.suffix closed (ParseState.tokens_advance_suffix s₁)
  have skips := ParseState.ahead_length_le (quiet_skipToStatement closed after).suffix
  rw [ahead] at advances
  exact Nat.lt_of_le_of_lt skips advances

/-- Only a semicolon may be read behind a statement without a fault. -/
theorem quiet_accept (kind : TokenKind) (s : ParseState) : Quiet s (discard (accept kind) s).2 := by
  rw [discard_state]
  show Quiet s (either (·.current.kind == kind) (advance >>= fun _ => pure true) (pure false) s).2
  exact quiet_either (quiet_advance s) (quiet_refl s)

/-- How a statement that was read from the start of its level ends its round. -/
theorem recovered_round (closed : T.Closed) (sole : s.Sole T) (within : s.current.kind.endsBatch = false)
    (notSemicolon : s.current.kind ≠ Symbol.semicolon) {x : Stmt × ParseState}
    (reports : Reports { s with failed := false } x.2) (complete : x.2.failed = false → x.1.Complete)
    (read : x.2.failed = false → x.2.ahead.length < s.ahead.length) :
    Round s ((recovered s.current x.1 x.2).1, { (recovered s.current x.1 x.2).2 with failed := s.failed }) := by
  obtain ⟨suffix, cutOff, own, level, places⟩ := reports
  rw [recovered_eq]
  rcases level.accepted rfl with ⟨rfl, clean⟩ | ⟨⟨e, rfl⟩, failed⟩
  · have complete := complete clean
    have quiet := quiet_accept Symbol.semicolon x.2
    rw [either_neg clean, bind_apply, complete.isMissing]
    refine ⟨quiet.suffix.trans suffix, quiet.cutOff.trans cutOff, ?_, fun _ => .kept complete ?_,
      fun stands => absurd stands notSemicolon⟩
    · exact Nat.lt_of_le_of_lt (ParseState.ahead_length_le quiet.suffix) (read clean)
    · exact level.trans (.quiet quiet)
  · have quiet := quiet_synchronize closed (sole.suffix closed suffix) s.current
    rw [either_pos failed, bind_apply]
    refine ⟨quiet.suffix.trans suffix, quiet.cutOff.trans cutOff, synchronize_reads closed sole within suffix,
      fun _ => ?_, fun stands => absurd stands notSemicolon⟩
    exact .dropped (level.trans (.quiet quiet)) (places e List.mem_cons_self)

theorem listItem_eq (g : Grammar) :
    listItem g = either (fun s => s.current.kind == Symbol.semicolon) (advance >>= fun _ => pure none)
      (current >>= fun start => apart (g.stmt >>= recovered start)) := taken_bind _ _ _

/-! ### Whole lists -/

/-- One step of a list: nothing where the list ends, or else a round. -/
def listStep (g : Grammar) (stop : TokenKind → Bool) : Parse (Option (Option Stmt)) := do
  let kind := (← current).kind
  if kind.endsBatch || stop kind then return none
  else return some (← listItem g)

theorem listStep_stop {stop : TokenKind → Bool} (h : ¬Continues stop s) : listStep g stop s = (none, s) := by
  have ends : (s.current.kind.endsBatch || stop s.current.kind) = true := by
    rwa [Continues, Bool.not_eq_false] at h
  show (if (s.current.kind.endsBatch || stop s.current.kind) = true then pure none else _ : Parse _) s = _
  rw [if_pos ends]
  rfl

theorem listStep_round {stop : TokenKind → Bool} (h : Continues stop s) :
    listStep g stop s = (some (listItem g s).1, (listItem g s).2) := by
  show (if (s.current.kind.endsBatch || stop s.current.kind) = true then pure none else _ : Parse _) s = _
  rw [if_neg (by rw [h]; simp)]
  rfl

theorem Continues.within {stop : TokenKind → Bool} (h : Continues stop s) : s.current.kind.endsBatch = false :=
  (Bool.or_eq_false_iff.mp h).1

theorem stmtList_eq (g : Grammar) (stop : TokenKind → Bool) :
    stmtList g stop = collect (listStep g stop) >>= fun found => pure (found.filterMap id) := rfl

/-- The rounds of a list from one state to another, with what each of them keeps; `R` tells of every round. -/
inductive Rounds (R : ParseState → Option Stmt × ParseState → Prop) (stop : TokenKind → Bool) :
    ParseState → List (Option Stmt) → ParseState → Prop
  | done {s : ParseState} : ¬Continues stop s → Rounds R stop s [] s
  | round {s s' : ParseState} {items : List (Option Stmt)} : Continues stop s → R s (listItem .full s) →
      Rounds R stop (listItem .full s).2 items s' → Rounds R stop s ((listItem .full s).1 :: items) s'

namespace Rounds

variable {R R' : ParseState → Option Stmt × ParseState → Prop} {stop : TokenKind → Bool} {s' : ParseState}
  {items : List (Option Stmt)}

theorem suffix (h : Rounds R stop s items s') (each : ∀ {s x}, R s x → x.2.tokens <:+ s.tokens) :
    s'.tokens <:+ s.tokens := by
  induction h with
  | done _ => exact List.suffix_rfl
  | round _ round _ ih => exact ih.trans (each round)

theorem cutOff (h : Rounds R stop s items s') (each : ∀ {s x}, R s x → x.2.cutOff = s.cutOff) :
    s'.cutOff = s.cutOff := by
  induction h with
  | done _ => rfl
  | round _ round _ ih => exact ih.trans (each round)

/-- The statements of a list are complete if those of each round are. -/
theorem complete (h : Rounds R stop s items s') (each : ∀ {s x}, R s x → ∀ stmt ∈ x.1, stmt.Complete) :
    ∀ stmt ∈ items.filterMap id, stmt.Complete := by
  induction h with
  | done _ => simp
  | round _ round _ ih =>
    intro stmt mem
    obtain ⟨item, mem, kept⟩ := List.mem_filterMap.mp mem
    rcases List.mem_cons.mp mem with rfl | mem
    · exact each round stmt kept
    · exact ih stmt (List.mem_filterMap.mpr ⟨item, mem, kept⟩)

/-- A list goes on until it has to end. -/
theorem stops (h : Rounds R stop s items s') : ¬Continues stop s' := by
  induction h with
  | done stops => exact stops
  | round _ _ _ ih => exact ih

/-- What is told of the rounds of a list can rely on what every round leaves of the tokens. -/
theorem imp {T : List Token} (h : Rounds R stop s items s') (start : s.tokens <:+ T)
    (each : ∀ {s x}, s.tokens <:+ T → Continues stop s → R s x → x.2.tokens <:+ s.tokens ∧ R' s x) :
    Rounds R' stop s items s' := by
  induction h with
  | done stops => exact .done stops
  | round continues round _ ih =>
    obtain ⟨suffix, other⟩ := each start continues round
    exact .round continues other (ih (suffix.trans start))

end Rounds

section Lists

variable (hg : GrammarLock T k g g' L) (known : L.same) (closed : T.Closed)

include hg known closed

/-- One round does the same under any grammar that is deep enough, and is accounted for. -/
theorem listItem_round (sole : s.Sole T) (lt : s.ahead.length < k) (within : s.current.kind.endsBatch = false) :
    listItem g s = listItem .full s ∧ Round s (listItem .full s) := by
  have notEof : s.current.kind ≠ .eof := fun eof => by simp [eof, TokenKind.endsBatch] at within
  rw [listItem_eq, listItem_eq]
  by_cases semicolon : (s.current.kind == Symbol.semicolon) = true
  · rw [either_pos semicolon, either_pos semicolon]
    have more := ParseState.ahead_length_advance (sole.ahead_ne_nil closed notEof)
    refine ⟨rfl, ParseState.tokens_advance_suffix s, ParseState.cutOff_advance s, more, ?_, fun _ => rfl⟩
    exact fun not => absurd (beq_iff_eq.mp semicolon) not
  · have lock : Lockstep T L true k Anywhere (fun _ s => s.failed = false) Stmt.bare g.stmt g'.stmt := hg.stmt
    have fresh : ({ s with failed := false } : ParseState).Sole T := { sole with failed := rfl }
    obtain ⟨after, read, run⟩ := lock.sole known closed fresh lt trivial
    have not := Bool.eq_false_iff.mpr semicolon
    rw [either_neg not, either_neg not, bind_apply, bind_apply]
    show apart (g.stmt >>= recovered s.current) s = apart (Grammar.full.stmt >>= recovered s.current) s ∧
      Round s (apart (Grammar.full.stmt >>= recovered s.current) s)
    rw [apart_apply, apart_apply, bind_apply, bind_apply, ← hg.full known, ← run.same]
    refine ⟨rfl, recovered_round closed sole within (fun stands => ?_) run.own (run.whole (hg.whole known)) read⟩
    simp [stands] at semicolon

/-- The rounds of a list, by induction on the bound, which is more than the tokens that are left. -/
theorem collect_rounds (stop : TokenKind → Bool) (n : Nat) :
    ∀ {s : ParseState}, s.Sole T → s.ahead.length < k → s.ahead.length < n →
      collect.go (listStep g stop) n s = collect.go (listStep .full stop) n s ∧
        Rounds Round stop s (collect.go (listStep .full stop) n s).1 (collect.go (listStep .full stop) n s).2 := by
  induction n with
  | zero => exact fun _ _ lt => absurd lt (Nat.not_lt_zero _)
  | succ n ih =>
    intro s sole lt fuel
    by_cases continues : Continues stop s
    · obtain ⟨same, round⟩ := listItem_round hg known closed sole lt continues.within
      have read := round.read
      obtain ⟨rest, rounds⟩ := ih (sole.suffix closed round.suffix) (by omega) (by omega)
      rw [collect_go_some (listStep_round continues), collect_go_some (listStep_round continues), same, rest]
      exact ⟨rfl, .round continues round rounds⟩
    · rw [collect_go_none (listStep_stop continues), collect_go_none (listStep_stop continues)]
      exact ⟨rfl, .done continues⟩

/-- A list is the statements its rounds have kept. -/
theorem stmtList_rounds (stop : TokenKind → Bool) (sole : s.Sole T) (lt : s.ahead.length < k) :
    stmtList g stop s = stmtList .full stop s ∧ ∃ items, Rounds Round stop s items (stmtList .full stop s).2 ∧
      (stmtList .full stop s).1 = items.filterMap id := by
  obtain ⟨same, rounds⟩ := collect_rounds hg known closed stop (s.ahead.length + 1) sole lt (Nat.lt_succ_self _)
  refine ⟨?_, _, rounds, rfl⟩
  have found : collect (listStep g stop) s = collect (listStep .full stop) s := same
  rw [stmtList_eq, stmtList_eq, bind_apply, bind_apply, found]

/-- What is told of a list as a part of a run. -/
theorem stmtList_run (stop : TokenKind → Bool) (sole : s.Sole T) (lt : s.ahead.length < k) :
    OneRun K s (stmtList g stop s) (stmtList g' stop s) := by
  obtain ⟨same, items, rounds, kept⟩ := stmtList_rounds hg known closed stop sole lt
  rw [hg.full known, same]
  refine ⟨rfl, ⟨rounds.suffix Round.suffix, rounds.cutOff Round.cutOff, [], .list stop s, by simp⟩, fun _ _ => ?_⟩
  rw [kept]
  exact rounds.complete Round.complete

end Lists

end Parse

end ColumnFlow
