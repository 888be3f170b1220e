import ColumnFlow.Proofs.Lockstep

/-!
# Rules for reading in lockstep
-/

namespace ColumnFlow

/-- A property of tokens that does not depend on places and that no end of a batch has. -/
structure Token.Sign (p : Token → Bool) : Prop where
  alike : ∀ {t t' : Token}, t.Alike t' → p t = p t'
  ends : ∀ {t : Token}, t.kind.endsBatch = true → p t = false

namespace Token.Sign

theorem kind {kind : TokenKind} (h : kind.endsBatch = false) : Sign (fun t => t.kind == kind) where
  alike same := by rw [same.kind]
  ends {t} ends := by
    apply beq_false_of_ne
    rintro rfl
    simp [ends] at h

theorem isWord (word : String) : Sign (·.isWord word) where
  alike same := by simp [Token.isWord, same.kind, same.literal, same.quoted]
  ends {t} ends := by
    have := (kind (show TokenKind.ident.endsBatch = false from rfl)).ends ends
    simp_all [Token.isWord]

end Token.Sign

/-- The kinds of tokens that stand inside a batch. -/
class TokenKind.Inner (kind : TokenKind) : Prop where
  inside : kind.endsBatch = false

namespace TokenKind

instance {k : Keyword} : Inner (.keyword k) := ⟨rfl⟩
instance {c : Symbol} : Inner (.symbol c) := ⟨rfl⟩
instance : Inner .ident := ⟨rfl⟩
instance : Inner .variableName := ⟨rfl⟩
instance : Inner .number := ⟨rfl⟩
instance : Inner .string := ⟨rfl⟩

end TokenKind

namespace Parse

/-! ### Tests -/

/-- A test that comes out the same in both runs where at least `i` common tokens are left; if it holds, at least
`j` are left. -/
structure Test (T : Tails) (line : Bool) (i j : Nat) (v : ParseState → Bool) : Prop where
  agree : ∀ {n : Nat} {s s' : ParseState}, i ≤ n → InStep T line n s s' → v s = v s'
  reach : ∀ {n : Nat} {s s' : ParseState}, i ≤ n → InStep T line n s s' → v s = true → j ≤ n

namespace Test

variable {T : Tails} {line : Bool} {i j l : Nat} {p : Token → Bool} {v w : ParseState → Bool}

theorem weaken (h : Test T line i j v) (le : l ≤ j) : Test T line i l v :=
  ⟨h.agree, fun at_least step holds => Nat.le_trans le (h.reach at_least step holds)⟩

theorem raise (h : Test T line i j v) (le : i ≤ l) : Test T line l j v :=
  ⟨fun at_least => h.agree (Nat.le_trans le at_least), fun at_least => h.reach (Nat.le_trans le at_least)⟩

/-- A test of a token further on says the same in both runs where that token is common, and fails at their tails. -/
theorem ahead (sign : Token.Sign p) (look : ParseState → Token)
    (sees : ∀ {s : ParseState} {t : Token}, s.tokens[i]? = some t → look s = t) :
    Test T line i (i + 1) fun s => p (look s) where
  agree {n s s'} le step := by
    rcases step.token_at le with ⟨_, t, t', token, token', alike⟩ | ⟨_, token, token'⟩
    · rw [sees token, sees token', sign.alike alike]
    · rw [sees token, sees token', sign.ends T.left.ends, sign.ends T.right.ends]
  reach {n s s'} le step holds := by
    rcases step.token_at le with ⟨lt, _⟩ | ⟨_, token, _⟩
    · exact lt
    · rw [sees token, sign.ends T.left.ends] at holds
      exact absurd holds (by decide)

theorem current (sign : Token.Sign p) : Test T line 0 1 fun s => p s.current := ahead sign _ ParseState.current_eq

theorem next (sign : Token.Sign p) : Test T line 1 2 fun s => p s.next := ahead sign _ ParseState.next_eq

theorem afterNext (sign : Token.Sign p) : Test T line 2 3 fun s => p s.afterNext := ahead sign _ ParseState.afterNext_eq

theorem kind (kind : TokenKind) [inner : kind.Inner] :
    Test T line 0 1 fun s => s.current.kind == kind := current (.kind inner.inside)

theorem word (word : String) : Test T line 0 1 fun s => s.current.isWord word := current (.isWord word)

theorem nextKind (kind : TokenKind) [inner : kind.Inner] :
    Test T line 1 2 fun s => s.next.kind == kind := next (.kind inner.inside)

theorem nextWord (word : String) : Test T line 1 2 fun s => s.next.isWord word := next (.isWord word)

theorem afterNextKind (kind : TokenKind) [inner : kind.Inner] :
    Test T line 2 3 fun s => s.afterNext.kind == kind := afterNext (.kind inner.inside)

theorem words (words : List String) : Test T line 0 1 fun s => words.any s.current.isWord :=
  current (p := fun t => words.any t.isWord)
    ⟨fun alike => congrArg (words.any ·) (funext fun word => (Token.Sign.isWord word).alike alike),
      fun ends => List.any_eq_false.mpr fun word _ => by simp [(Token.Sign.isWord word).ends ends]⟩

/-- Tests of the current kind that fail at the end of a batch. -/
theorem kindIn (p : TokenKind → Bool) (h : p .eof = false ∧ p .separator = false) :
    Test T line 0 1 fun s => p s.current.kind :=
  current (p := fun t => p t.kind) ⟨fun alike => by rw [alike.kind], fun {t} ends => by
    rcases (TokenKind.endsBatch_iff _).mp ends with kind | kind <;> simp [kind, h]⟩

/-- Tests of the current kind that do not tell the ends of a batch apart. -/
theorem anyKind (p : TokenKind → Bool) (same : p .separator = p .eof) : Test T line 0 0 fun s => p s.current.kind where
  agree {n s s'} le step := by
    rcases step.token_at le with ⟨_, t, t', token, token', alike⟩ | ⟨_, token, token'⟩
    · rw [ParseState.current_eq token, ParseState.current_eq token', alike.kind]
    · rw [ParseState.current_eq token, ParseState.current_eq token']
      rcases T.left.kind_cases with kind | kind <;> rcases T.right.kind_cases with kind' | kind' <;>
        simp [kind, kind', same]
  reach le _ _ := le

theorem const (b : Bool) : Test T line i i fun _ => b := ⟨fun _ _ => rfl, fun le _ _ => le⟩

theorem failed : Test T line 0 0 (·.failed) := ⟨fun _ step => step.failed, fun le _ _ => le⟩

theorem inlineFunction : Test T line 1 1 (·.inlineFunction) := ⟨fun le step => step.inline le, fun le _ _ => le⟩

theorem sameLine : Test T true 1 1 (·.sameLine) := ⟨fun le step => step.sameLine rfl le, fun le _ _ => le⟩

/-- The second test is only made where the first one holds. -/
theorem and (hv : Test T line i j v) (hw : Test T line j l w) : Test T line i l fun s => v s && w s where
  agree {n s s'} le step := by
    have agree := hv.agree le step
    cases holds : v s with
    | false => simp [← agree, holds]
    | true => simp [← agree, holds, hw.agree (hv.reach le step holds) step]
  reach {n s s'} le step holds := by
    simp only [Bool.and_eq_true] at holds
    exact hw.reach (hv.reach le step holds.1) step holds.2

theorem or (hv : Test T line i j v) (hw : Test T line i j w) : Test T line i j fun s => v s || w s where
  agree le step := by rw [hv.agree le step, hw.agree le step]
  reach le step holds := by
    simp only [Bool.or_eq_true] at holds
    exact holds.elim (hv.reach le step) (hw.reach le step)

theorem not (hv : Test T line i j v) : Test T line i i fun s => !v s :=
  ⟨fun le step => by rw [hv.agree le step], fun le _ _ => le⟩

end Test

/-! ### Looking -/

/-- Where `P` holds, a common token is left. -/
class Inside (T : Tails) (P : Nat → ParseState → Prop) : Prop where
  pos : ∀ {line : Bool} {n : Nat} {s s' : ParseState}, InStep T line n s s' → P n s → 1 ≤ n

instance {T : Tails} {i : Nat} : Inside T (Before (i + 1)) := ⟨fun _ le => Nat.le_trans (Nat.le_add_left 1 i) le⟩

theorem inside_at {T : Tails} {kind : TokenKind} (h : kind.endsBatch = false) : Inside T (At kind) :=
  have : kind.Inner := ⟨h⟩
  ⟨fun step holds => (Test.kind kind).reach (Nat.zero_le _) step (by simpa [At] using holds)⟩

/-- Runs start where no batch ends. -/
def Within : Nat → ParseState → Prop := fun _ s => s.current.kind.endsBatch = false

instance {T : Tails} : Inside T Within where
  pos {_ n s s'} step within := by
    rcases step.token_at (Nat.zero_le n) with ⟨lt, _⟩ | ⟨_, token, _⟩
    · exact lt
    · simp [Within, ParseState.current_eq token, T.left.ends] at within

instance {T : Tails} {P Q : Nat → ParseState → Prop} [inside : Inside T P] : Inside T fun n s => P n s ∧ Q n s :=
  ⟨fun step p => inside.pos step p.1⟩

instance {T : Tails} {k : Keyword} : Inside T (At (.keyword k)) := inside_at rfl
instance {T : Tails} {c : Symbol} : Inside T (At (.symbol c)) := inside_at rfl
instance {T : Tails} : Inside T (At .ident) := inside_at rfl
instance {T : Tails} : Inside T (At .variableName) := inside_at rfl

/-- `yes` where `v` holds of the state, else `no`. -/
def either {α : Type} (v : ParseState → Bool) (yes no : Parse α) : Parse α := fun s => (if v s then yes else no) s

variable {α : Type} {s : ParseState} (v : ParseState → Bool) (kind : TokenKind) (yes no : Parse α)

theorem either_pos {v : ParseState → Bool} (h : v s = true) (yes no : Parse α) : either v yes no s = yes s := by
  unfold either
  rw [if_pos h]

theorem either_neg {v : ParseState → Bool} (h : v s = false) (yes no : Parse α) : either v yes no s = no s := by
  unfold either
  rw [h]
  rfl

theorem either_else (yes : Parse α) (no : ParseState → Parse α) :
    (fun s => (if v s then yes else no s) s) = either v yes fun s => no s s := by
  funext s
  unfold either
  split <;> rfl

theorem either_cases (s : ParseState) : either v yes no s = yes s ∨ either v yes no s = no s := by
  cases h : v s with
  | true => exact .inl (either_pos h yes no)
  | false => exact .inr (either_neg h yes no)

theorem Tame.either {α : Type} {v : ParseState → Bool} {yes no : Parse α} (hy : Tame yes) (hn : Tame no) :
    Tame (either v yes no) := by
  refine show Tame ((fun s => (v s, s) : Parse Bool) >>= fun b => if b then yes else no) from .bind (.look v) fun b => ?_
  cases b with
  | true => exact hy
  | false => exact hn

/-- The current token is read if `v` holds of the state. -/
def taken (v : ParseState → Bool) : Parse Bool := either v (do advance; return true) (pure false)

theorem sees_bind (f : Bool → Parse α) (s : ParseState) : (sees kind >>= f) s = f (s.current.kind == kind) s := rfl

theorem accept_eq : accept kind = taken (·.current.kind == kind) := rfl

theorem either_bind {α β : Type} (yes no : Parse α) (f : α → Parse β) :
    (either v yes no >>= f) = either v (yes >>= f) (no >>= f) := by
  funext s
  show (match either v yes no s with | (a, s) => f a s) = _
  unfold either
  cases v s <;> rfl

/-- What is done after a yes and after a no. -/
abbrev fork {α : Type} (test : Parse Bool) (yes no : Parse α) : Parse α :=
  test >>= fun b => if b = true then yes else no

theorem taken_bind : (taken v >>= fun b => if b = true then yes else no) = either v (advance >>= fun _ => yes) no := by
  unfold taken
  rw [either_bind]
  simp

theorem expect_bind : (expect kind >>= fun b => if b = true then yes else no) =
      either (·.current.kind == kind) (advance >>= fun _ => yes) (unexpected kind.text >>= fun _ => no) := by
  unfold expect
  rw [accept_eq, taken_bind, either_bind]
  simp

theorem discard_apply (x : Parse α) (s : ParseState) : discard x s = ((), (x s).2) := rfl

theorem require_eq : require kind = either (·.current.kind == kind) advance (unexpected kind.text) := by
  funext s
  unfold require expect
  rw [accept_eq, taken_bind, discard_apply]
  unfold either
  split <;> rfl

/-- `m`, unless the limit of nesting is passed. -/
def limited {α : Type} (fallback : α) (m : Parse α) : Parse α :=
  either (fun s => decide (maxDepth < s.depth)) (report .tooDeep >>= fun _ => pure fallback) m

theorem nested_apply (fallback : α) (m : Parse α) (s : ParseState) : nested fallback m s =
      let result := limited fallback m { s with depth := s.depth + 1 }
      (result.1, { result.2 with depth := result.2.depth - 1 }) := by
  unfold limited either
  by_cases deep : maxDepth < s.depth + 1
  · simp only [deep, decide_true, if_true]
    show (if maxDepth < s.depth + 1 then _ else _ : Parse α) _ = _
    rw [if_pos deep]
    rfl
  · simp only [deep, decide_false, Bool.false_eq_true, if_false]
    show (if maxDepth < s.depth + 1 then _ else _ : Parse α) _ = _
    rw [if_neg deep]
    rfl

theorem Tame.nested {α : Type} {fallback : α} {m : Parse α} (h : Tame (limited fallback m)) :
    Tame (nested fallback m) where
  suffix s := nested_apply fallback m s ▸ h.suffix { s with depth := s.depth + 1 }
  depth s := by simp [nested_apply, h.depth]
  failed s := nested_apply fallback m s ▸ h.failed { s with depth := s.depth + 1 }
  inline s := nested_apply fallback m s ▸ h.inline { s with depth := s.depth + 1 }
  onward s := nested_apply fallback m s ▸ (h.onward { s with depth := s.depth + 1 }).between ⟨rfl, rfl⟩ ⟨rfl, rfl⟩

theorem scan_go_succ {σ : Type} (next : σ → ParseState → Option σ) (i : Nat) (a : σ) (s : ParseState) :
    scan.go next (i + 1) a s =
      match next a s with
      | none => (a, s)
      | some b => scan.go next i b s.advance := by
  show (match next a s with | none => _ | some _ => _ : Parse σ) s = _
  cases next a s <;> rfl

/-- Nothing that is required is found at the end of a batch. -/
theorem require_bind_end {kind : TokenKind} (ends : s.current.kind.endsBatch = true)
    (h : kind.endsBatch = false) (f : Unit → Parse α) :
    (require kind >>= f) s = f () (s.report (.unexpected s.current.describe kind.text)) := by
  rw [require_eq, either_bind, either_neg]
  · rfl
  · exact (Token.Sign.kind h).ends ends

theorem Tame.advance : Tame Parse.advance where
  suffix := ParseState.tokens_advance_suffix
  depth := ParseState.depth_advance
  failed s h := (ParseState.failed_advance s).trans h
  inline s h := (ParseState.inlineFunction_advance s).trans h
  onward := .read

/-- One round of skipping, from what is known of the rounds behind it. -/
theorem tame_scan_succ {σ : Type} {next : σ → ParseState → Option σ} {i : Nat} (h : ∀ b, Tame (scan.go next i b))
    (a : σ) : Tame (scan.go next (i + 1) a) := by
  have turns : scan.go next (i + 1) a = ((fun s => (next a s, s) : Parse (Option σ)) >>= fun found =>
      found.elim (pure a) fun b => Parse.advance >>= fun _ => scan.go next i b) := by
    funext s
    show scan.go next (i + 1) a s =
      ((next a s).elim (pure a) fun b => Parse.advance >>= fun _ => scan.go next i b : Parse σ) s
    rw [scan_go_succ]
    cases next a s <;> rfl
  rw [turns]
  refine .bind (.look _) fun found => ?_
  cases found with
  | none => exact .pure a
  | some b => exact .bind .advance fun _ => h b

theorem Tame.cutOff {α : Type} (a : α) : Tame (cutOff a) :=
  ⟨fun _ => List.suffix_rfl, fun _ => rfl, fun _ h => h, fun _ h => h, fun _ => .stay rfl rfl⟩

theorem Tame.scan {σ : Type} (a : σ) (next : σ → ParseState → Option σ) : Tame (scan a next) := by
  refine .bind (.look _) fun i => ?_
  induction i generalizing a with
  | zero => exact .cutOff a
  | succ i ih => exact tame_scan_succ ih a

/-- Skipping that ends with the text reports nothing, is not cut off and keeps what holds of the values on the way. -/
theorem quiet_scan {σ : Type} {next : σ → ParseState → Option σ} {I : σ → Prop}
    (eof : ∀ {s : ParseState} a, s.current.kind = .eof → next a s = none)
    (keeps : ∀ {s a b}, next a s = some b → I a → I b) {a : σ} (start : I a) {T : Tails} (closed : T.Closed)
    {s : ParseState} (sole : s.Sole T) : Quiet s (scan a next s).2 ∧ I (scan a next s).1 := by
  have rounds : ∀ i a {s : ParseState}, s.Sole T → s.ahead.length < i → I a →
      Quiet s (scan.go next i a s).2 ∧ I (scan.go next i a s).1 := by
    intro i
    induction i with
    | zero => exact fun _ _ _ lt => absurd lt (Nat.not_lt_zero _)
    | succ i ih =>
      intro a s sole lt h
      rw [scan_go_succ]
      cases found : next a s with
      | none => exact ⟨quiet_refl s, h⟩
      | some b =>
        have notEof : s.current.kind ≠ .eof := fun stands => by simp [eof a stands] at found
        have read := ParseState.ahead_length_advance (sole.ahead_ne_nil closed notEof)
        have after := sole.suffix closed (ParseState.tokens_advance_suffix s)
        exact (ih b after (by omega) (keeps found h)).imp_left (quiet_advance s).trans
  exact rounds _ a sole (Nat.lt_succ_self _) start

theorem Tame.takeLiteral : Tame Parse.takeLiteral := .bind (.look _) fun _ => .bind .advance fun _ => .pure _

theorem Tame.report (fault : ParseState → SyntaxFault) : Tame (fun s => ((), s.report (fault s)) : Parse Unit) where
  suffix s := by simp
  depth s := by simp
  failed s _ := by simp
  inline s h := by simpa using h
  onward s := .stay (by simp) (by simp)

namespace Lockstep

variable {α β γ δ : Type} [HasHoles α] {T : Tails} {K : Facts} {line : Bool} {k j : Nat}
  {P Q : Nat → ParseState → Prop} {must : α → ParseState → Prop} {e : α → γ} {v : ParseState → Bool}
  {y y' z z' : Parse α}

/-- What is looked up without being compared. -/
theorem look [HasHoles β] [Solid β] {f g : ParseState → β} [value : Same K f g] {F F' : β → Parse α}
    (rest : ∀ b b', Lockstep T (K.learn b b') line k P must e (F b) (F' b')) :
    Lockstep T K line k P must e ((fun s => (f s, s) : Parse β) >>= F) ((fun s => (g s, s) : Parse β) >>= F') where
  left := (Tame.look f).bind fun b => (rest b b).left
  right := (Tame.look g).bind fun b => (rest b b).right
  sim lt step p := .seen value.eq ((rest _ _).sim lt step p)

theorem position {F F' : Text.Position → Parse α}
    (rest : ∀ p p', Lockstep T (K.learn p p') line k P must e (F p) (F' p')) :
    Lockstep T K line k P must e (Parse.position >>= F) (Parse.position >>= F') := look rest

theorem spanFrom {p p' : Text.Position} [value : Same K p p'] {F F' : Text.Span → Parse α}
    (rest : ∀ q q', Lockstep T (K.learn q q') line k P must e (F q) (F' q')) :
    Lockstep T K line k P must e (Parse.spanFrom p >>= F) (Parse.spanFrom p' >>= F') :=
  let span (p : Text.Position) (s : ParseState) : Text.Span := ⟨p, s.lastStop⟩
  look (f := span p) (g := span p') rest

/-- A value that is complete with a span. -/
theorem spanned {p p' : Text.Position} [Same K p p'] {F F' : Text.Span → α} [∀ q q', Same (K.learn q q') (F q) (F' q')]
    [∀ q q', Whole (K.learn q q') (F q)] (same : ∀ {q q'}, e (F q) = e (F' q')) : Lax T K line k P e
      (Parse.spanFrom p >>= fun q => pure (F q)) (Parse.spanFrom p' >>= fun q => pure (F' q)) :=
  spanFrom fun _ _ => .pure same

/-- What is looked up and comes out the same in both runs. -/
theorem lookEq {f : ParseState → β} {F F' : β → Parse α} (agree : ∀ {n s s'}, InStep T line n s s' → P n s → f s = f s')
    (rest : ∀ b, Lockstep T K line k (fun n s => P n s ∧ f s = b) must e (F b) (F' b)) :
    Lockstep T K line k P must e ((fun s => (f s, s) : Parse β) >>= F) ((fun s => (f s, s) : Parse β) >>= F') where
  left := (Tame.look f).bind fun b => (rest b).left
  right := (Tame.look f).bind fun b => (rest b).right
  sim {n s s'} lt step p := by
    show PairOutcome T K line n must e s s' (F (f s) s) (F' (f s') s')
    rw [← agree step p]
    exact (rest (f s)).sim lt step ⟨p, rfl⟩

/-- The branches of a test that comes out the same in both runs. -/
theorem branch (agree : ∀ {n s s'}, InStep T line n s s' → P n s → v s = v s')
    (yes : Lockstep T K line k (fun n s => P n s ∧ v s = true) must e y y')
    (no : Lockstep T K line k (fun n s => P n s ∧ v s = false) must e z z') :
    Lockstep T K line k P must e (either v y z) (either v y' z') where
  left := yes.left.either no.left
  right := yes.right.either no.right
  sim {n s s'} lt step p := by
    have same := agree step p
    cases holds : v s with
    | true =>
      rw [either_pos holds, either_pos (same ▸ holds)]
      exact yes.sim lt step ⟨p, holds⟩
    | false =>
      rw [either_neg holds, either_neg (same ▸ holds)]
      exact no.sim lt step ⟨p, holds⟩

theorem ite (test : Test T line 0 j v) (yes : Lockstep T K line k (Before j) must e y y')
    (no : Lockstep T K line k P must e z z') : Lockstep T K line k P must e (either v y z) (either v y' z') := by
  refine branch (fun step _ => test.agree (Nat.zero_le _) step) ⟨yes.left, yes.right, ?_⟩ (no.starting fun _ _ p => p.1)
  exact fun lt step p => yes.sim lt step (test.reach (Nat.zero_le _) step p.2)

/-- A test that looks behind the current token, which is a common one. -/
theorem iteIn [inside : Inside T P] (test : Test T line 1 j v) (yes : Lockstep T K line k P must e y y')
    (no : Lockstep T K line k P must e z z') : Lockstep T K line k P must e (either v y z) (either v y' z') :=
  branch (fun step p => test.agree (inside.pos step p) step) (yes.starting fun _ _ p => p.1) (no.starting fun _ _ p => p.1)

variable {kind : TokenKind} {f f' : Unit → Parse α} {F F' : Token → Parse α} {x x' : Parse β} {c c' : Prop}
  [HasHoles β] {g g' : β → Parse α} {absent : β}
  (e₁ : β → δ) [inner : kind.Inner]

theorem sees (yes : Lockstep T K line k (At kind) must e y y')
    (no : Lockstep T K line k P must e z z') :
    Lockstep T K line k P must e ((Parse.sees kind).fork y z) ((Parse.sees kind).fork y' z') :=
  branch (v := fun s => s.current.kind == kind) (fun step _ => (Test.kind kind).agree (Nat.zero_le _) step)
    (yes.starting fun _ s p => by simpa [At] using p.2) (no.starting fun _ _ p => p.1)

/-- A test that is known to hold. -/
theorem known (test : Test T line 0 j v) (holds : ∀ {n s}, P n s → v s = true) (yes : Lockstep T K line k P must e y y')
    (no : Tame z ∧ Tame z') : Lockstep T K line k P must e (either v y z) (either v y' z') where
  left := yes.left.either no.1
  right := yes.right.either no.2
  sim {n s s'} lt step p := by
    rw [either_pos (holds p), either_pos (test.agree (Nat.zero_le n) step ▸ holds p)]
    exact yes.sim lt step p

theorem seesAt (yes : Lockstep T K line k (At kind) must e y y') (no : Tame z ∧ Tame z') :
    Lockstep T K line k (At kind) must e ((Parse.sees kind).fork y z) ((Parse.sees kind).fork y' z') :=
  known (v := fun s => s.current.kind == kind) (.kind kind) (fun p => by simpa [At] using p) yes no

/-- A test that holds at the end of a batch. -/
theorem unlessEnd (ends : ∀ {s : ParseState}, s.current.kind.endsBatch = true → v s = true) (test : Test T line 1 j v)
    (yes : Lockstep T K line k P must e y y') (no : Lockstep T K line k Within must e z z') :
    Lockstep T K line k P must e (either v y z) (either v y' z') := by
  refine branch (fun {n s s'} step _ => ?_) (yes.starting fun _ _ p => p.1) (no.starting fun _ s p => ?_)
  · cases n with
    | zero =>
      obtain ⟨left, right⟩ := step.tokens_end
      rw [ends (Tail.ends_of_tokens left), ends (Tail.ends_of_tokens right)]
    | succ n => exact test.agree (Nat.le_add_left 1 n) step
  · unfold Within
    cases more : s.current.kind.endsBatch with
    | false => rfl
    | true => simp [ends more] at p

/-- A list that ends at a token of the kind or at the end of the text, and at a separator goes on by reading it. -/
theorem unlessClosed (yes : Lockstep T K line k P must e y y')
    (no : Lockstep T K line k (fun _ s => s.current.kind ≠ .eof) must e z z')
    (reads : ∀ {t : Tail} {s : ParseState}, s.tokens = t.tokens → t.first.kind = .separator →
      t.Passed (z s).2 ∧ t.Passed (z' s).2) :
    Lockstep T K line k P must e (either (fun s => s.current.kind == kind || s.current.kind == .eof) y z)
      (either (fun s => s.current.kind == kind || s.current.kind == .eof) y' z') where
  left := yes.left.either no.left
  right := yes.right.either no.right
  sim {n s s'} lt step p := by
    by_cases same : s.current.kind = s'.current.kind
    · cases closed : s.current.kind == kind || s.current.kind == .eof with
      | true =>
        rw [either_pos closed, either_pos (same ▸ closed)]
        exact yes.sim lt step p
      | false =>
        rw [either_neg closed, either_neg (same ▸ closed)]
        exact no.sim lt step fun eof => by simp [eof] at closed
    obtain ⟨unlike, tokens, tokens'⟩ := step.kind_eq_or_end.resolve_left same
    have inside := inner.inside
    have goesOn : ∀ {t : Tail} {s : ParseState}, s.tokens = t.tokens → t.first.kind = .separator →
        (s.current.kind == kind || s.current.kind == .eof) = false := by
      intro t s tokens separator
      simp only [Tail.current_of_tokens tokens, separator, Bool.or_eq_false_iff, beq_eq_false_iff_ne]
      refine ⟨fun other => ?_, nofun⟩
      simp [TokenKind.endsBatch, ← other] at inside
    refine .passed (.of_unlike unlike ((Tails.separator_of_unlike unlike).imp (fun left => ?_) fun right => ?_))
    · rw [either_neg (goesOn tokens left)]
      exact (reads tokens left).1
    · rw [either_neg (goesOn tokens' right)]
      exact (reads tokens' right).2

/-! A branch that ends where the other one goes on from: what follows both is proved once. -/

theorem iteThen (test : Test T line 0 j v)
    (yes : Lockstep T K line k Anywhere must e z z' → Lockstep T K line k (Before j) must e y y')
    (rest : Lockstep T K line k Anywhere must e z z') : Lockstep T K line k P must e (either v y z) (either v y' z') :=
  ite test (yes rest) (rest.starting fun _ _ _ => trivial)

theorem iteJoin (test : Test T line 0 j v)
    (yes : Follows T K line k must e₁ e g g' → Lockstep T K line k (Before j) must e y y')
    (no : Lax T K line k P e₁ x x') (rest : Follows T K line k must e₁ e g g') :
    Lockstep T K line k P must e (either v y (x >>= g)) (either v y' (x' >>= g')) := ite test (yes rest) (.bind no rest)

/-- A part that may be left out, which then has a value of its own. -/
theorem iteOr {e₁ : β → δ} [Whole K absent] (test : Test T line 0 j v)
    (yes : Lax T K line k (Before j) e₁ x x') (rest : Follows T K line k must e₁ e g g') :
    Lockstep T K line k P must e (either v (x >>= g) (pure absent >>= g)) (either v (x' >>= g') (pure absent >>= g')) :=
  iteJoin e₁ test (.bind yes) (.pure rfl) rest

theorem seesJoin (yes : Follows T K line k must e₁ e g g' → Lockstep T K line k (At kind) must e y y')
    (no : Lax T K line k P e₁ x x') (rest : Follows T K line k must e₁ e g g') :
    Lockstep T K line k P must e ((Parse.sees kind).fork y (x >>= g)) ((Parse.sees kind).fork y' (x' >>= g')) :=
  sees (yes rest) (.bind no rest)

/-- Branches of a condition that is not about the state. -/
theorem ifThenElse [Decidable c] [Decidable c'] (same : c ↔ c')
    (yes : Lockstep T K line k P must e y y') (no : Lockstep T K line k P must e z z') :
    Lockstep T K line k P must e (if c then y else z) (if c' then y' else z') := by
  by_cases h : c
  · rwa [if_pos h, if_pos (same.mp h)]
  · rwa [if_neg h, if_neg (mt same.mpr h)]

theorem ifThen [Decidable c] [Decidable c'] (same : c ↔ c')
    (yes : Lockstep T K line k Anywhere must e z z' → Lockstep T K line k P must e y y')
    (rest : Lockstep T K line k Anywhere must e z z') :
    Lockstep T K line k P must e (if c then y else z) (if c' then y' else z') :=
  ifThenElse same (yes rest) (rest.starting fun _ _ _ => trivial)

theorem ifJoin [Decidable c] [Decidable c'] (same : c ↔ c')
    (yes : c → Follows T K line k must e₁ e g g' → Lockstep T K line k P must e y y')
    (no : Lax T K line k P e₁ x x') (rest : Follows T K line k must e₁ e g g') :
    Lockstep T K line k P must e (if c then y else x >>= g) (if c' then y' else x' >>= g') := by
  by_cases h : c
  · rw [if_pos h, if_pos (same.mp h)]
    exact yes h rest
  · rw [if_neg h, if_neg (mt same.mpr h)]
    exact .bind no rest

/-- The current token, in the middle of a batch and at its end. -/
theorem current
    (inside : ∀ t t', t.Alike t' → t.kind.endsBatch = false →
      Lockstep T (K.learn t t') line k (At t.kind) must e (F t) (F' t'))
    (ends : ∀ t t', t.kind = .eof ∨ t.kind = .separator → t'.kind = .eof ∨ t'.kind = .separator →
      Lockstep T (K.learn t t') line k P must e (F t) (F' t')) :
    Lockstep T K line k P must e (Parse.current >>= F) (Parse.current >>= F') := by
  have tame : ∀ t, Tame (F t) ∧ Tame (F' t) := by
    intro t
    cases h : t.kind.endsBatch with
    | false => exact ⟨(inside t t ⟨rfl, rfl, rfl⟩ h).left, (inside t t ⟨rfl, rfl, rfl⟩ h).right⟩
    | true =>
      have kind := (TokenKind.endsBatch_iff _).mp h
      exact ⟨(ends t t kind kind).left, (ends t t kind kind).right⟩
  refine ⟨(Tame.look _).bind fun t => (tame t).1, (Tame.look _).bind fun t => (tame t).2, ?_⟩
  intro n s s' lt step p
  rcases step.current_cases with ⟨alike, more⟩ | ⟨end_, end_'⟩
  · exact .seen (f := (·.current)) (fun _ => rfl) ((inside _ _ alike more).sim lt step rfl)
  · refine .seen (f := (·.current)) (fun _ => rfl) ((ends _ _ ?_ ?_).sim lt step p)
    · exact (TokenKind.endsBatch_iff _).mp end_
    · exact (TokenKind.endsBatch_iff _).mp end_'

/-- The current token, which is a common one. -/
theorem currentAt [inside : Inside T P]
    (rest : ∀ t t', t.Alike t' →
      Lockstep T (K.learn t t') line k (fun n s => P n s ∧ s.current = t) must e (F t) (F' t')) :
    Lockstep T K line k P must e (Parse.current >>= F) (Parse.current >>= F') where
  left := (Tame.look _).bind fun t => (rest t t ⟨rfl, rfl, rfl⟩).left
  right := (Tame.look _).bind fun t => (rest t t ⟨rfl, rfl, rfl⟩).right
  sim {n s s'} lt step p := by
    obtain ⟨n, rfl⟩ : ∃ i, n = i + 1 := ⟨n - 1, by have := inside.pos step p; omega⟩
    exact .seen (f := (·.current)) (fun _ => rfl) ((rest _ _ step.alike).sim lt step ⟨p, rfl⟩)

theorem currentIn [Inside T P] (rest : ∀ t t', t.Alike t' → Lockstep T (K.learn t t') line k P must e (F t) (F' t')) :
    Lockstep T K line k P must e (Parse.current >>= F) (Parse.current >>= F') :=
  currentAt fun t t' alike => (rest t t' alike).starting fun _ _ p => p.1

/-- A test whose other branch goes on with what has been looked up. -/
theorem iteElse [inside : Inside T P] {z z' : ParseState → Parse α} (test : Test T line 1 j v)
    (yes : Lockstep T K line k P must e y y')
    (no : Lockstep T K line k P must e (fun s => z s s) (fun s => z' s s)) :
    Lockstep T K line k P must e (fun s => (if v s then y else z s) s) (fun s => (if v s then y' else z' s) s) := by
  rw [either_else, either_else]
  exact iteIn test yes no

/-! ### Reading -/

/-- A token is read, after which the runs agree on lines again. -/
theorem advanceIn [inside : Inside T P] {line' : Bool} (le : k ≤ j + 1)
    (up : line = true → line' = true) (rest : Lax T K line' j Anywhere e (f ()) (f' ())) :
    Lockstep T K line k P must e (Parse.advance >>= f) (Parse.advance >>= f') where
  left := Tame.advance.bind fun _ => rest.left
  right := Tame.advance.bind fun _ => rest.right
  sim {n s s'} lt step p := by
    obtain ⟨n, rfl⟩ : ∃ i, n = i + 1 := ⟨n - 1, by have := inside.pos step p; omega⟩
    have next := rest.sim (by omega) (step.advance.weaken fun _ => rfl) trivial
    exact .advanced (next.read (Nat.lt_succ_self n) up)

/-- Reading keeps the runs in step, or takes both into tails that begin with a separator. -/
protected theorem advance : Lax T K line k P (fun _ => ()) Parse.advance Parse.advance where
  left := .advance
  right := .advance
  sim {n s s'} _ step _ := by
    refine .advanced ?_
    have one : K.same → Alone T s.advance s'.advance → OneRun K s.advance ((), s.advance) ((), s'.advance) :=
      fun _ alone => alone.same ▸ .quiet (quiet_refl _) fun _ => trivial
    cases n with
    | succ n => exact .inStep n (Nat.le_succ n) (step.advance.weaken fun _ => rfl) rfl False.elim one
    | zero =>
      rcases step.advance_end with passed | ⟨_, _, step⟩
      · exact .passed passed
      · exact .inStep 0 (Nat.le_refl 0) step rfl False.elim one

/-- A token that is not the end of the text. -/
theorem advancePast (rest : Lax T K line k Anywhere e (f ()) (f' ())) :
    Lockstep T K line k (fun _ s => s.current.kind ≠ .eof) must e (Parse.advance >>= f) (Parse.advance >>= f') where
  left := Tame.advance.bind fun _ => rest.left
  right := Tame.advance.bind fun _ => rest.right
  sim {n s s'} lt step notEof := by
    show PairOutcome T K line n must e s s' (f () s.advance) (f' () s'.advance)
    refine .advanced ?_
    cases n with
    | succ n => exact (rest.sim (by omega) (step.advance.weaken fun _ => rfl) trivial).read (Nat.lt_succ_self n) id
    | zero =>
      rcases step.advance_end with passed | ⟨eof, _, _⟩
      · exact .passed (passed.run rest.left rest.right)
      · exact absurd eof notEof

/-- The current token, where at a separator some token is read. -/
theorem currentPast (rest : ∀ t t', t.Alike t' → Lockstep T (K.learn t t') line k P must e (F t) (F' t'))
    (reads : ∀ {t : Tail} {s : ParseState}, s.tokens = t.tokens → t.first.kind = .separator →
      t.Passed (F s.current s).2 ∧ t.Passed (F' s.current s).2) :
    Lockstep T K line k P must e (Parse.current >>= F) (Parse.current >>= F') where
  left := (Tame.look _).bind fun t => (rest t t ⟨rfl, rfl, rfl⟩).left
  right := (Tame.look _).bind fun t => (rest t t ⟨rfl, rfl, rfl⟩).right
  sim {n s s'} lt step p := by
    cases n with
    | succ n => exact .seen (f := (·.current)) (fun _ => rfl) ((rest _ _ step.alike).sim lt step p)
    | zero =>
      obtain ⟨tokens, tokens'⟩ := step.tokens_end
      by_cases alike : T.Alike
      · refine .seen (f := (·.current)) (fun _ => rfl) ((rest s.current s'.current ?_).sim lt step p)
        rwa [Tail.current_of_tokens tokens, Tail.current_of_tokens tokens']
      · exact .passed (.of_unlike alike ((Tails.separator_of_unlike alike).imp (fun left => (reads tokens left).1)
          fun right => (reads tokens' right).2))

/-- A token that is read and kept. -/
theorem tokenPast {f f' : Token → Parse α}
    (rest : ∀ t t', t.Alike t' → Lax T (K.learn t t') line k Anywhere e (f t) (f' t')) :
    Lax T K line k P e (Parse.current >>= fun t => Parse.advance >>= fun _ => f t)
      (Parse.current >>= fun t => Parse.advance >>= fun _ => f' t) := by
  refine currentPast (fun t t' alike => .andThen .advance (rest t t' alike)) fun {t s} tokens separator => ?_
  have passed := Tail.passed_advance tokens separator
  have tame := rest s.current s.current ⟨rfl, rfl, rfl⟩
  exact ⟨passed.run tame.left, passed.run tame.right⟩

theorem token {f f' : Token → α} [Same K f f'] [∀ t t', Whole (K.learn t t') (f t)]
    (same : ∀ t t', t.Alike t' → e (f t) = e (f' t')) :
    Lax T K line k P e (Parse.current >>= fun t => Parse.advance >>= fun _ => pure (f t))
      (Parse.current >>= fun t => Parse.advance >>= fun _ => pure (f' t)) :=
  tokenPast fun t t' alike => .pure (same t t' alike)

protected theorem takeLiteral : Lax T K line k P id Parse.takeLiteral Parse.takeLiteral :=
  token fun _ _ alike => alike.literal

/-- The first token of a production: from here on the runs agree on line ends. -/
theorem advanceFirst [Inside T P] (rest : Lax T K true k Anywhere e (f ()) (f' ())) :
    Lockstep T K line (k + 1) P must e (Parse.advance >>= f) (Parse.advance >>= f') :=
  advanceIn (Nat.le_refl _) (fun _ => rfl) rest

/-- The first token of a production, which is kept. -/
theorem tokenFirst [Inside T P] {f f' : Token → Parse α}
    (rest : ∀ t t', t.Alike t' → Lax T (K.learn t t') true k Anywhere e (f t) (f' t')) :
    Lockstep T K line (k + 1) P must e (Parse.current >>= fun t => Parse.advance >>= fun _ => f t)
      (Parse.current >>= fun t => Parse.advance >>= fun _ => f' t) :=
  currentIn fun t t' alike => advanceFirst (rest t t' alike)

theorem takeFirst [Inside T P] {f f' : String → Parse α}
    (rest : ∀ literal, Lax T K true k Anywhere e (f literal) (f' literal)) :
    Lockstep T K line (k + 1) P must e (Parse.takeLiteral >>= f) (Parse.takeLiteral >>= f') :=
  tokenFirst (K := K) (f := fun t => f t.literal) fun t t' alike => by
    rw [alike.literal]
    exact (rest t'.literal).weaken

/-- A report is accepted by both runs or by neither, since they agree on whether there was one before. -/
theorem reporting (fault fault' : ParseState → SyntaxFault) [value : Same K fault fault'] :
    Lax T K line k P (fun _ => ()) (fun s => ((), s.report (fault s))) (fun s => ((), s.report (fault' s))) where
  left := .report fault
  right := .report fault'
  sim {n s s'} _ step _ := .inStep n (Nat.le_refl n) (step.report _ _) rfl False.elim fun known alone => by
    obtain ⟨rfl, _⟩ := alone
    rw [value.eq known]
    exact ⟨rfl, .report s _, fun _ _ => trivial⟩

protected theorem report (fault fault' : SyntaxFault) [Same K fault fault'] :
    Lax T K line k P (fun _ => ()) (Parse.report fault) (Parse.report fault') :=
  reporting (Function.const _ fault) (Function.const _ fault')

protected theorem unexpected (expected : String) :
    Lax T K line k P (fun _ => ()) (Parse.unexpected expected) (Parse.unexpected expected) := reporting _ _

protected theorem expectedIdentifier :
    Lax T K line k P (fun _ => ()) Parse.expectedIdentifier Parse.expectedIdentifier := reporting _ _

/-- After a report nothing has to be known of holes. -/
theorem blame {fault fault' : ParseState → SyntaxFault} [value : Same K fault fault']
    (rest : Lockstep T K.faulty line k Anywhere must e (f ()) (f' ())) :
    Lockstep T K line k P must e ((fun s => ((), s.report (fault s)) : Parse Unit) >>= f)
      ((fun s => ((), s.report (fault' s)) : Parse Unit) >>= f') where
  left := .bind (.report _) fun _ => rest.left
  right := .bind (.report _) fun _ => rest.right
  sim {n s s'} lt step p := by
    refine (rest.sim lt (step.report _ _) trivial).telling fun told known alone => ?_
    have run := told known ⟨by rw [value.eq known, alone.same], alone.closed⟩
    refine ⟨run.same, (Reports.report s _).trans run.own, fun _ clean => ?_⟩
    have failed := (ParseState.failed_report s _).symm.trans (rest.left.clean clean)
    exact absurd failed.symm Bool.false_ne_true

/-- A report under a condition: what follows may rely on the condition not being met. -/
theorem ifBlame [Decidable c] [Decidable c'] {fault fault' : ParseState → SyntaxFault} [Same K fault fault'] (same : c ↔ c')
    (rest : Lockstep T (K.given ¬c) line k Anywhere must e (f ()) (f' ())) :
    Lockstep T K line k P must e (if c then (fun s => ((), s.report (fault s)) : Parse Unit) >>= f else f ())
      (if c' then (fun s => ((), s.report (fault' s)) : Parse Unit) >>= f' else f' ()) := by
  by_cases h : c
  · rw [if_pos h, if_pos (same.mp h)]
    exact blame rest.weaken
  · have : Given K ¬c := ⟨fun _ => h⟩
    rw [if_neg h, if_neg (mt same.mpr h)]
    exact rest.weaken.starting fun _ _ _ => trivial

/-! ### Optional tokens -/

/-- A token is read if the test holds. -/
theorem takeIn (le : k ≤ j + 1) (test : Test T line 0 1 v) (yes : Lax T K line j Anywhere e y y')
    (no : Lockstep T K line k P must e z z') :
    Lockstep T K line k P must e ((Parse.taken v).fork y z) ((Parse.taken v).fork y' z') := by
  simp only [Parse.fork, taken_bind]
  exact ite test (advanceIn le id yes) no

theorem take (test : Test T line 0 1 v) (yes : Lax T K line k Anywhere e y y')
    (no : Lockstep T K line k P must e z z') :
    Lockstep T K line k P must e ((Parse.taken v).fork y z) ((Parse.taken v).fork y' z') :=
  takeIn (Nat.le_succ k) test yes no

theorem takeRead (test : Test T line 0 1 v) (yes : Lax T K line k Anywhere e y y')
    (no : Lockstep T K line (k + 1) P must e z z') :
    Lockstep T K line (k + 1) P must e ((Parse.taken v).fork y z) ((Parse.taken v).fork y' z') :=
  takeIn (Nat.le_refl _) test yes no

theorem takeThen (test : Test T line 0 1 v)
    (yes : Lax T K line k Anywhere e z z' → Lax T K line k Anywhere e y y')
    (rest : Lockstep T K line k Anywhere must e z z') :
    Lockstep T K line k P must e ((Parse.taken v).fork y z) ((Parse.taken v).fork y' z') :=
  take test (yes rest.lax) (rest.starting fun _ _ _ => trivial)

theorem takeJoin (test : Test T line 0 1 v)
    (yes : Follows T K line k Never e₁ e g g' → Lax T K line k Anywhere e y y')
    (no : Lax T K line k P e₁ x x') (rest : Follows T K line k must e₁ e g g') :
    Lockstep T K line k P must e ((Parse.taken v).fork y (x >>= g)) ((Parse.taken v).fork y' (x' >>= g')) :=
  take test (yes fun a a' same => (rest a a' same).lax) (.bind no rest)

theorem takeOr {e₁ : β → δ} [Whole K absent] (test : Test T line 0 1 v)
    (yes : Lax T K line k Anywhere e₁ x x') (rest : Follows T K line k must e₁ e g g') :
    Lockstep T K line k P must e ((Parse.taken v).fork (x >>= g) (pure absent >>= g))
      ((Parse.taken v).fork (x' >>= g') (pure absent >>= g')) :=
  takeJoin e₁ test (.bind yes) (.pure rfl) rest

/-- Nothing found, and nothing read for it. -/
theorem nothing : Lockstep T K line k P (fun o _ => o.isSome = true) (Option.map e) (pure none) (pure none) :=
  pureFree rfl fun _ => nofun

theorem refused : Lockstep T K line k P (fun b _ => b = true) id (pure false) (pure false) :=
  pureFree rfl fun _ => nofun

protected theorem taken (test : Test T line 0 1 v) :
    Lockstep T K line k P (fun b _ => b = true) id (Parse.taken v) (Parse.taken v) :=
  ite test (advanceIn (Nat.le_succ k) id (.pure rfl)) refused

/-- Whether a token was read is used further on, at a level that depends on it. -/
theorem takenBind {F F' : Bool → Parse α} (test : Test T line 0 1 v)
    (rest : ∀ b l, l ≤ k + 1 → (b = true → l ≤ k) → Lax T K line l Anywhere e (F b) (F' b)) :
    Lax T K line (k + 1) P e (Parse.taken v >>= F) (Parse.taken v >>= F') := by
  refine (Lockstep.taken test).bindIf id (Nat.le_refl _) (fun b b' same use => ?_) (fun b b' same use => ?_)
  · obtain rfl : b = b' := same
    exact (rest b k (Nat.le_succ k) fun _ => Nat.le_refl k).weaken
  · obtain rfl : b = b' := same
    exact (rest b (k + 1) (Nat.le_refl _) fun read => by simp_all).weaken

protected theorem accept (kind : TokenKind) [inner : kind.Inner] :
    Lockstep T K line k P (fun b _ => b = true) id (Parse.accept kind) (Parse.accept kind) := .taken (.kind kind)

protected theorem acceptWord (word : String) :
    Lockstep T K line k P (fun b _ => b = true) id (Parse.acceptWord word) (Parse.acceptWord word) :=
  .taken (.word word)

/-! ### Required tokens -/

theorem expectIn (le : k ≤ j + 1) (yes : Lax T K line j Anywhere e y y')
    (no : Lockstep T K.faulty line k Anywhere must e z z') :
    Lockstep T K line k P must e ((Parse.expect kind).fork y z) ((Parse.expect kind).fork y' z') := by
  simp only [Parse.fork, expect_bind]
  exact ite (.kind kind) (advanceIn le id yes) (blame no)

theorem expect (yes : Lax T K line k Anywhere e y y')
    (no : Lockstep T K.faulty line k Anywhere must e z z') :
    Lockstep T K line k P must e ((Parse.expect kind).fork y z) ((Parse.expect kind).fork y' z') :=
  expectIn (Nat.le_succ k) yes no

theorem expectRead (yes : Lax T K line k Anywhere e y y')
    (no : Lockstep T K.faulty line (k + 1) Anywhere must e z z') :
    Lockstep T K line (k + 1) P must e ((Parse.expect kind).fork y z) ((Parse.expect kind).fork y' z') :=
  expectIn (Nat.le_refl _) yes no

protected theorem require (kind : TokenKind) [inner : kind.Inner] :
    Lax T K line k P (fun _ => ()) (Parse.require kind) (Parse.require kind) := by
  rw [require_eq]
  exact ite (.kind kind) .advance (.unexpected _)

/-- A required token and what follows it. -/
theorem required (rest : Lockstep T K line k Anywhere must e (f ()) (f' ())) :
    Lockstep T K line k P must e (Parse.require kind >>= f) (Parse.require kind >>= f') := .andThen (.require kind) rest

protected theorem requireWord (word : String) :
    Lax T K line k P (fun _ => ()) (Parse.requireWord word) (Parse.requireWord word) :=
  take (.word word) (.pure rfl) (.unexpected word)

/-- A required first token that is there. -/
theorem requireFirst (rest : Lax T K true k Anywhere e (f ()) (f' ())) :
    Lockstep T K line (k + 1) (At kind) must e (Parse.require kind >>= f) (Parse.require kind >>= f') := by
  have : Inside T (At kind) := inside_at inner.inside
  rw [require_eq, either_bind, either_bind]
  refine known (.kind kind) (fun p => by simpa [At] using p) (advanceFirst rest) ?_
  exact ⟨.bind (.report _) fun _ => rest.left, .bind (.report _) fun _ => rest.right⟩

/-- A required first token that is there. -/
theorem expectFirst (yes : Lax T K line k Anywhere e y y') (no : Tame z ∧ Tame z') :
    Lockstep T K line (k + 1) (At kind) must e ((Parse.expect kind).fork y z) ((Parse.expect kind).fork y' z') := by
  have : Inside T (At kind) := inside_at inner.inside
  simp only [Parse.fork, expect_bind]
  refine known (.kind kind) (fun p => by simpa [At] using p) (advanceIn (Nat.le_refl _) id yes) ?_
  exact ⟨.bind (.report _) fun _ => no.1, .bind (.report _) fun _ => no.2⟩

/-- An optional first token that is there. -/
theorem acceptFirst (yes : Lax T K line k Anywhere e y y') (no : Tame z ∧ Tame z') :
    Lockstep T K line (k + 1) (At kind) must e ((Parse.accept kind).fork y z) ((Parse.accept kind).fork y' z') := by
  have : Inside T (At kind) := inside_at inner.inside
  simp only [Parse.fork, accept_eq, taken_bind]
  exact known (.kind kind) (fun p => by simpa [At] using p) (advanceIn (Nat.le_refl _) id yes) no

/-! ### Values that are dropped or wrapped -/

variable {m m' : Parse α}

protected theorem discard (h : Lockstep T K line k P must e m m') :
    Lax T K line k P (fun _ => ()) (discard m) (discard m') := .bind h.lax fun _ _ _ => .pure rfl

/-- A token that may be left out and what follows it. -/
theorem accepted (rest : Lockstep T K line k Anywhere must e (f ()) (f' ())) :
    Lockstep T K line k P must e (discard (Parse.accept kind) >>= f) (discard (Parse.accept kind) >>= f') :=
  .andThen (.discard (.accept kind)) rest

protected theorem some (h : Lax T K line k P e m m') : Lax T K line k P (Option.map e) (some <$> m) (some <$> m') :=
  .bind h fun a a' h => .pure (by simp [h])

/-- A test that reads a token where it says yes. -/
theorem stepIte {c c' : Parse Bool} (test : Lockstep T K line k P (fun b _ => b = true) id c c')
    (yes : Lax T K line k Anywhere e y y') (no : Lockstep T K line k Anywhere must e z z') :
    Lockstep T K line k P must e (c.fork y z) (c'.fork y' z') := by
  refine test.bindIf id (Nat.le_succ k) (fun b b' same use => ?_) (fun b b' same use => ?_)
  · obtain rfl : b = b' := same
    obtain rfl : b = true := use
    exact yes.weaken
  · obtain rfl : b = b' := same
    obtain rfl : b = false := use
    exact no.weaken

/-! ### Nesting -/

/-- After a fault nothing has to have been read. -/
theorem faulty {a a' : α} [value : Same K a a'] {fault : ParseState → SyntaxFault} (same : e a = e a')
    (weak : ∀ a s, must a s → s.failed = false) :
    Lockstep T K line k P must e ((fun s => ((), s.report (fault s)) : Parse Unit) >>= fun _ => pure a)
      ((fun s => ((), s.report (fault s)) : Parse Unit) >>= fun _ => pure a') where
  left := .bind (.report _) fun _ => .pure _
  right := .bind (.report _) fun _ => .pure _
  sim {n s s'} _ step _ := by
    have failed : (s.report (fault s)).failed ≠ false := by simp
    refine .inStep n (Nat.le_refl n) (step.report _ _) same (fun h => absurd (weak _ _ h) failed) fun known alone => ?_
    refine ⟨?_, .report s _, fun _ clean => absurd clean failed⟩
    rw [value.eq known, alone.same]

/-- What is nested too deep has a fault. -/
theorem nestedIn {a a' : α} [Same K a a'] (same : e a = e a')
    (deeper : ∀ {n : Nat} {s : ParseState} {depth : Nat}, P n s → P n { s with depth })
    (weak : ∀ a s, must a s → s.failed = false) (fixed : ∀ {a s depth}, must a { s with depth } → must a s)
    (body : Lockstep T K line k P must e m m') : Lockstep T K line k P must e (nested a m) (nested a' m') := by
  have inner : Lockstep T K line k P must e (limited a m) (limited a' m') :=
    branch (fun step _ => by rw [step.depth]) (faulty same weak) (body.starting fun _ _ p => p.1)
  refine ⟨inner.left.nested, inner.right.nested, ?_⟩
  intro n s s' lt step p
  have down : InStep T line n { s with depth := s.depth + 1 } { s' with depth := s'.depth + 1 } :=
    { step with depth := congrArg (· + 1) step.depth }
  rw [nested_apply, nested_apply]
  cases inner.sim lt down (deeper p) with
  | passed passed => exact .passed passed
  | stuck unlike stuck => exact .stuck unlike { stuck with }
  | inStep i le step same read one =>
    refine .inStep i le { step with depth := congrArg (· - 1) step.depth } same (fun h => read (fixed h)) ?_
    intro known alone
    have run := one known ⟨by rw [alone.same], alone.closed⟩
    exact run.framed ⟨List.suffix_rfl, rfl, rfl, rfl⟩ ⟨List.suffix_rfl, rfl, rfl, rfl⟩ (by rw [run.same])

protected theorem nested {a a' : α} [Same K a a'] (same : e a = e a') (body : Lax T K line k Anywhere e m m') :
    Lax T K line k P e (nested a m) (nested a' m') :=
  .starting (nestedIn same (fun _ => trivial) (fun _ _ => False.elim) id body) fun _ _ _ => trivial

/-! ### Loops -/

/-- Loops whose rounds each read a token: what holds of all runs on at most `j` common tokens follows from what one
round does if the rest of the loop runs on fewer. -/
theorem loopWith {α σ ρ : Type} (e₁ : σ → ρ) (go go' : Nat → σ → Parse α) {R : σ → σ → Nat → Parse α → Parse α → Prop}
    (tame : ∀ {a a' j m m'}, R a a' j m m' → Tame m ∧ Tame m')
    (ofTame : ∀ {a a' m m'}, Tame m → Tame m' → R a a' 0 m m') (stop : ∀ a a', Tame (go 0 a) ∧ Tame (go' 0 a'))
    (body : ∀ {i i' j : Nat}, j ≤ k → (∀ a a', e₁ a = e₁ a' → R a a' (j - 1) (go i a) (go' i' a')) →
      ∀ a a', e₁ a = e₁ a' → R a a' j (go (i + 1) a) (go' (i' + 1) a')) :
    (∀ i a, Tame (go i a) ∧ Tame (go' i a)) ∧
      ∀ {j i i' : Nat}, j ≤ k → j ≤ i → j ≤ i' → ∀ a a', e₁ a = e₁ a' → R a a' j (go i a) (go' i' a') := by
  have tames : ∀ i a, Tame (go i a) ∧ Tame (go' i a) := by
    intro i
    induction i with
    | zero => exact fun a => stop a a
    | succ i ih => exact fun a => tame (body (Nat.zero_le k) (fun a a' _ => ofTame (ih a).1 (ih a').2) a a rfl)
  refine ⟨tames, fun {j} => ?_⟩
  induction j with
  | zero => exact fun {i i'} _ _ _ a a' _ => ofTame (tames i a).1 (tames i' a').2
  | succ j ih =>
    intro i i' le lt lt'
    obtain ⟨i, rfl⟩ : ∃ l, i = l + 1 := ⟨i - 1, by omega⟩
    obtain ⟨i', rfl⟩ : ∃ l, i' = l + 1 := ⟨i' - 1, by omega⟩
    exact body le (ih (by omega) (by omega) (by omega))

/-- A loop starts with as many rounds as there are tokens, so that its bound is met by neither run. -/
theorem loop {σ ρ : Type} [HasHoles σ] (e₁ : σ → ρ) (go go' : Nat → σ → Parse α)
    (stop : ∀ a a', Tame (go 0 a) ∧ Tame (go' 0 a'))
    (body : ∀ {i i' j : Nat}, j ≤ k →
      Follows T K line (j - 1) Never e₁ e (go i) (go' i') →
      Follows T K line j Never e₁ e (go (i + 1)) (go' (i' + 1)))
    (a a' : σ) (same : e₁ a = e₁ a') [Same K a a'] [Whole K a] :
    Lax T K line k P e (Parse.rounds >>= (go · a)) (Parse.rounds >>= (go' · a')) := by
  obtain ⟨tame, enough⟩ := loopWith e₁ go go' (R := fun a a' j => Lax T (K.learn a a') line j Anywhere e)
    (fun h => ⟨h.left, h.right⟩) of_tame stop body
  refine ⟨(Tame.look _).bind fun i => (tame i a).1, (Tame.look _).bind fun i => (tame i a').2, ?_⟩
  intro n s s' lt step _
  obtain ⟨le, le'⟩ := step.le_ahead
  have run := (enough lt (Nat.succ_le_succ le) (Nat.succ_le_succ le') a a' same).weaken (L := K)
  exact .quietly (run.sim (Nat.lt_succ_self n) step trivial) id (quiet_refl s)

/-- Loops that carry nothing along. -/
theorem repeats {go go' : Nat → Parse α} (stop : Tame (go 0) ∧ Tame (go' 0))
    (body : ∀ {i i' j : Nat}, j ≤ k → Lax T K line (j - 1) Anywhere e (go i) (go' i') →
      Lax T K line j Anywhere e (go (i + 1)) (go' (i' + 1))) :
    Lax T K line k P e (Parse.rounds >>= go) (Parse.rounds >>= go') :=
  loop (fun _ : Unit => ()) (fun i _ => go i) (fun i _ => go' i) (fun _ _ => stop)
    (fun le ih _ _ _ => (body le (ih () () rfl).weaken).weaken) () () rfl

/-- What follows a loop. -/
theorem loopBind {go go' : Nat → Parse α} {f f' : α → Parse β} {must₂ : β → ParseState → Prop} {e₂ : β → δ}
    (loop : Lax T K line k P e (Parse.rounds >>= go) (Parse.rounds >>= go'))
    (rest : Follows T K line k must₂ e e₂ f f') :
    Lockstep T K line k P must₂ e₂ (Parse.rounds >>= fun i => go i >>= f) (Parse.rounds >>= fun i => go' i >>= f') :=
  loop.bind rest

/-- A collection goes on as long as its step finds something, for which it has to read a token. -/
protected theorem collect {x x' : Parse (Option α)}
    (step : Lockstep T K line k Anywhere (fun o _ => o.isSome = true) (Option.map e) x x') :
    Lax T K line k P (List.map e) (collect x) (collect x') := by
  refine repeats ⟨.cutOff _, .cutOff _⟩ fun {i i' j} le ih => ?_
  refine (step.mono le).bindIf (j := j - 1) Option.isSome (by omega) ?_ ?_
  · rintro (_ | a) (_ | a') same found <;> simp only [Option.map_some, Option.map_none, Option.some.injEq, reduceCtorEq,
      Option.isSome_none, Bool.false_eq_true] at same found
    exact .bind ih.weaken fun rest rest' more => .pure (by simp [same, more])
  · rintro (_ | a) (_ | a') same found <;> simp only [Option.map_some, Option.map_none, Option.isSome_some, reduceCtorEq,
      Bool.true_eq_false] at same found
    exact .pure rfl

omit [HasHoles α] in
theorem filterMap_congr {found found' : List (Option α)}
    (same : found.map (Option.map e) = found'.map (Option.map e)) :
    (found.filterMap id).map e = (found'.filterMap id).map e := by
  simpa [List.map_filterMap, List.filterMap_map, Function.comp_def] using congrArg (List.filterMap id) same

/-- An item of a list with commas, and the list behind it. -/
theorem commaRound {rest rest' : Parse (List α)} (item : Lax T K line k P e m m')
    (more : Lax T K line (k - 1) Anywhere (List.map e) rest rest') : Lax T K line k P (List.map e)
      (m >>= fun a => (Parse.accept Symbol.comma).fork (rest >>= fun l => pure (a :: l)) (pure [a]))
      (m' >>= fun a => (Parse.accept Symbol.comma).fork (rest' >>= fun l => pure (a :: l)) (pure [a])) := by
  refine .bind item fun a a' same => takeIn (j := k - 1) (by omega) (.kind _) ?_ (.pure (by simp [same]))
  exact .bind more.weaken fun _ _ sameRest => .pure (by simp [same, sameRest])

protected theorem separated (item : Lax T K line k Anywhere e m m') :
    Lax T K line k P (List.map e) (separated m) (separated m') :=
  repeats ⟨.cutOff _, .cutOff _⟩ fun le ih => commaRound (item.mono le) ih

/-- A list with commas has an element. -/
theorem bindSeparated {f f' : List α → Parse β} {must₂ : β → ParseState → Prop} {e₂ : β → δ}
    (item : Lax T K line k Anywhere e m m')
    (rest : ∀ l l', l.map e = l'.map e →
      Lockstep T ((K.learn l l').given (l ≠ [])) line k Anywhere must₂ e₂ (f l) (f' l')) :
    Lockstep T K line k P must₂ e₂ (separated m >>= f) (separated m' >>= f') := by
  refine .bindGiven (· ≠ []) (fun s => ?_) (.separated item) rest
  show ((accept Symbol.comma).fork _ _ (m s).2).1 ≠ []
  unfold Parse.fork
  show ((if (accept Symbol.comma (m s).2).1 = true then _ else _ : Parse (List α)) _).1 ≠ []
  split <;> exact List.cons_ne_nil _ _

protected theorem skipWhile {x x' : Parse Bool}
    (step : Lockstep T K line k Anywhere (fun b _ => b = true) id x x') :
    Lax T K line k P (fun _ => ()) (skipWhile x) (skipWhile x') :=
  .discard (.collect (e := fun _ => ()) (stepIte step (.pure rfl) nothing))

/-! ### Skipping -/

/-- Tokens are skipped in the same way if each round takes the same turn. At the end of the text skipping ends; at a
separator it may go on, into the tails. -/
protected theorem scan {σ ρ : Type} [HasHoles σ] (e₁ : σ → ρ) {next : σ → ParseState → Option σ} {a : σ}
    (inside : ∀ {n s s'} a a', e₁ a = e₁ a' → InStep T line (n + 1) s s' → (next a s).map e₁ = (next a' s').map e₁)
    (separator : ∀ {s s' : ParseState} a a', e₁ a = e₁ a' → s.current.kind = .separator →
      s'.current.kind = .separator → (next a s).map e₁ = (next a' s').map e₁)
    (eof : ∀ {s : ParseState} a, s.current.kind = .eof → next a s = none)
    (keeps : ∀ {s a b}, next a s = some b → HasHoles.whole a → HasHoles.whole b) [filled : Whole K a] :
    Lax T K line k P e₁ (scan a next) (scan a next) := by
  have alone {n s} (step : InStep T line n s s) (closed : T.Closed) : OneRun K s (Parse.scan a next s) (Parse.scan a next s) := by
    have keeps {s a b} (found : next a s = some b) (h : K.whole → HasHoles.whole a) whole := keeps found (h whole)
    obtain ⟨quiet, whole⟩ := quiet_scan eof keeps filled.holds closed (step.sole closed)
    exact .quiet quiet whole
  refine .alone (loop e₁ (scan.go next) (scan.go next) (fun _ _ => ⟨.cutOff _, .cutOff _⟩) ?_ a a rfl)
    fun _ step closed _ _ => alone step closed
  intro i i' j _ ih a a' same
  have tame := fun b => (ih b b rfl).left
  have tame' := fun b => (ih b b rfl).right
  refine ⟨tame_scan_succ tame a, tame_scan_succ tame' a', fun {n s s'} lt step _ => ?_⟩
  have stop : PairOutcome T (Facts.nothing.learn a a') line n Never e₁ s s' (a, s) (a', s') :=
    .inStep _ (Nat.le_refl _) step same False.elim fun known => known.1.elim
  rw [scan_go_succ, scan_go_succ]
  cases n with
  | succ n =>
    have turn := inside a a' same step
    match found : next a s, found' : next a' s' with
    | none, none => exact stop
    | none, some _ | some _, none => simp [found, found'] at turn
    | some b, some b' =>
      have more : e₁ b = e₁ b' := by simpa [found, found'] using turn
      have rest := (ih b b' more).sim (by omega) (step.advance.weaken fun _ => rfl) trivial
      exact (rest.mono (Nat.le_succ n)).telling fun _ known => known.1.elim
  | zero =>
    obtain ⟨left, right⟩ := step.tokens_end
    have current := Tail.current_of_tokens left
    have current' := Tail.current_of_tokens right
    rcases T.left.advance left with ⟨kind, passed⟩ | ⟨kind, _⟩ <;>
      rcases T.right.advance right with ⟨kind', passed'⟩ | ⟨kind', _⟩
    · have turn := separator a a' same (current ▸ kind) (current' ▸ kind')
      match found : next a s, found' : next a' s' with
      | none, none => exact stop
      | none, some _ | some _, none => simp [found, found'] at turn
      | some b, some b' =>
        refine .passed ⟨.inl (passed.run (tame b)), fun _ => ⟨passed.run (tame b), passed'.run (tame' b')⟩⟩
    · rw [eof a' (current' ▸ kind')]
      match next a s with
      | none => exact stop
      | some b =>
        refine .passed ⟨.inl (passed.run (tame b)), fun alike => ?_⟩
        simp [← alike.kind, kind] at kind'
    · rw [eof a (current ▸ kind)]
      match next a' s' with
      | none => exact stop
      | some b' =>
        refine .passed ⟨.inr (passed'.run (tame' b')), fun alike => ?_⟩
        simp [← alike.kind, kind] at kind'
    · rw [eof a (current ▸ kind), eof a' (current' ▸ kind')]
      exact stop

/-- Skipping that looks only at the kind of each token. -/
theorem scanKind {σ : Type} [HasHoles σ] [Solid σ] {next : σ → ParseState → Option σ} {a : σ}
    (kinds : ∀ {s s' : ParseState} a, s.current.kind = s'.current.kind → next a s = next a s')
    (eof : ∀ {s : ParseState} a, s.current.kind = .eof → next a s = none) :
    Lax T K line k P id (Parse.scan a next) (Parse.scan a next) := by
  refine .scan id (fun a a' same step => ?_) (fun a a' same kind kind' => ?_) eof fun _ _ => Solid.whole _
  · obtain rfl : a = a' := same
    rw [kinds a step.alike.kind]
  · obtain rfl : a = a' := same
    rw [kinds a (kind.trans kind'.symm)]

end Lockstep

/-! ### Lists that end with the text

Some lists end at the end of the text but go on at a separator, where nothing can be read for them. What closes such
a list is missing in both cases, so that the runs part only for a while. -/

/-- The runs have come to tails that begin differently, and may have parted there. -/
def Parted {α : Type} (T : Tails) (x x' : α × ParseState) : Prop :=
  ¬T.Alike ∧ x.2.tokens = T.left.tokens ∧ x'.2.tokens = T.right.tokens

/-- As `Lockstep`, except that runs may part at the tails. -/
structure Loose {α γ : Type} [HasHoles α] (T : Tails) (K : Facts) (line : Bool) (k : Nat) (e : α → γ) (m m' : Parse α) :
    Prop where
  left : Tame m
  right : Tame m'
  sim : ∀ {n : Nat} {s s' : ParseState}, n < k → InStep T line n s s' →
    PairOutcome T K line n Never e s s' (m s) (m' s') ∨ Parted T (m s) (m' s')

namespace Loose

variable {α β γ δ : Type} [HasHoles α] {T : Tails} {K L : Facts} {line : Bool} {k j n : Nat}
  {P : Nat → ParseState → Prop} {e : α → γ} {m m' : Parse α} {s s' t t' : ParseState} {v : ParseState → Bool}

theorem ofLockstep (h : Lax T K line k Anywhere e m m') : Loose T K line k e m m' :=
  ⟨h.left, h.right, fun lt step => .inl (h.sim lt step trivial)⟩

theorem weaken [L.Extends K] (h : Loose T K line k e m m') : Loose T L line k e m m' :=
  ⟨h.left, h.right, fun lt step => (h.sim lt step).imp_left (·.weaken)⟩

/-- Runs that have parted at their tails stay there or read into them. -/
theorem stays (unlike : ¬T.Alike) (tokens : s.tokens = T.left.tokens) (tokens' : s'.tokens = T.right.tokens)
    (left : Tame m) (right : Tame m') :
    PairOutcome T K line n Never e t t' (m s) (m' s') ∨ Parted T (m s) (m' s') := by
  rcases Tail.stays tokens left with still | passed
  · rcases Tail.stays tokens' right with still' | passed'
    · exact .inr ⟨unlike, still, still'⟩
    · exact .inl (.passed (.of_unlike unlike (.inr passed')))
  · exact .inl (.passed (.of_unlike unlike (.inl passed)))

variable [HasHoles β] {f f' : α → Parse β} {e₂ : β → δ} {go go' : Nat → Parse α} {y y' z z' : Parse α} {kind : TokenKind}

/-- What follows runs that have parted at their tails cannot bring them further apart. -/
protected theorem bind (first : Loose T K line k e m m')
    (second : ∀ a a', e a = e a' → Loose T (K.learn a a') line k e₂ (f a) (f' a')) :
    Loose T K line k e₂ (m >>= f) (m' >>= f') where
  left := first.left.bind fun a => (second a a rfl).left
  right := first.right.bind fun a => (second a a rfl).right
  sim {n s s'} lt step := by
    have left := fun a => (second a a rfl).left
    have right := fun a => (second a a rfl).right
    show PairOutcome T K line n Never e₂ s s' (f (m s).1 (m s).2) (f' (m' s').1 (m' s').2) ∨
      Parted T (f (m s).1 (m s).2) (f' (m' s').1 (m' s').2)
    rcases first.sim lt step with (passed | ⟨i, le, step, same, _, one⟩ | ⟨unlike, stuck⟩) | ⟨unlike, tokens, tokens'⟩
    · exact .inl (.passed (passed.run (left _) (right _)))
    · exact ((second _ _ same).sim (Nat.lt_of_le_of_lt le lt) step).imp_left fun h => (h.mono le).after one (left _).clean
    · exact .inl (stuck.run unlike (left _) (right _))
    · exact stays unlike tokens tokens' (left _) (right _)

/-- A token is read if the test holds. -/
theorem readIf {f f' : String → Parse α} {z z' : Parse α} (le : k ≤ j + 1) (test : Test T line 0 1 v)
    (yes : ∀ literal, Loose T K line j e (f literal) (f' literal)) (no : Loose T K line k e z z') :
    Loose T K line k e (either v (takeLiteral >>= f) z) (either v (takeLiteral >>= f') z') := by
  refine ⟨.either (.bind .takeLiteral fun l => (yes l).left) no.left,
    .either (.bind .takeLiteral fun l => (yes l).right) no.right, ?_⟩
  intro n s s' lt step
  have agree := test.agree (Nat.zero_le n) step
  cases holds : v s with
  | false =>
    rw [either_neg holds, either_neg (agree ▸ holds)]
    exact no.sim lt step
  | true =>
    obtain ⟨n, rfl⟩ : ∃ i, n = i + 1 := ⟨n - 1, by have := test.reach (Nat.zero_le n) step holds; omega⟩
    have rest := (yes s.current.literal).sim (by omega) (step.advance.weaken fun _ => rfl)
    rw [either_pos holds, either_pos (agree ▸ holds)]
    show PairOutcome T K line (n + 1) Never e s s' (f s.current.literal s.advance) (f' s'.current.literal s'.advance) ∨
      Parted T (f s.current.literal s.advance) (f' s'.current.literal s'.advance)
    rw [← step.alike.literal]
    exact rest.imp_left fun h => (h.mono (Nat.le_succ n)).advanced

theorem advanceIf (le : k ≤ j + 1) (test : Test T line 0 1 v) (yes : Loose T K line j e y y')
    (no : Loose T K line k e z z') :
    Loose T K line k e (either v (advance >>= fun _ => y) z) (either v (advance >>= fun _ => y') z') :=
  readIf le test (fun _ => yes) no

theorem takeIn (le : k ≤ j + 1) (test : Test T line 0 1 v) (yes : Loose T K line j e y y') (no : Loose T K line k e z z') :
    Loose T K line k e ((taken v).fork y z) ((taken v).fork y' z') := by
  simp only [Parse.fork, taken_bind]
  exact advanceIf le test yes no

/-- A list ends at a token of the kind or at the end of the text. -/
theorem unlessClosed (yes : Loose T K line k e y y') (no : Loose T K line k e z z') :
    Loose T K line k e (either (fun s => s.current.kind == kind || s.current.kind == .eof) y z)
      (either (fun s => s.current.kind == kind || s.current.kind == .eof) y' z') := by
  refine ⟨yes.left.either no.left, yes.right.either no.right, fun {n s s'} lt step => ?_⟩
  rcases step.kind_eq_or_end with same | ⟨unlike, tokens, tokens'⟩
  · cases closed : s.current.kind == kind || s.current.kind == .eof with
    | true =>
      rw [either_pos closed, either_pos (same ▸ closed)]
      exact yes.sim lt step
    | false =>
      rw [either_neg closed, either_neg (same ▸ closed)]
      exact no.sim lt step
  · exact stays unlike tokens tokens' (yes.left.either no.left) (yes.right.either no.right)

/-- The rule for loops, where runs may part at the tails. -/
theorem loop {σ ρ : Type} [HasHoles σ] (e₁ : σ → ρ) (go go' : Nat → σ → Parse α)
    (stop : ∀ a a', Tame (go 0 a) ∧ Tame (go' 0 a'))
    (body : ∀ {i i' j : Nat}, j ≤ k → (∀ a a', e₁ a = e₁ a' → Loose T (K.learn a a') line (j - 1) e (go i a) (go' i' a')) →
      ∀ a a', e₁ a = e₁ a' → Loose T (K.learn a a') line j e (go (i + 1) a) (go' (i' + 1) a'))
    (a a' : σ) (same : e₁ a = e₁ a') [Same K a a'] [Whole K a] :
    Loose T K line k e (rounds >>= (go · a)) (rounds >>= (go' · a')) := by
  obtain ⟨tame, enough⟩ := Lockstep.loopWith e₁ go go' (R := fun a a' j => Loose T (K.learn a a') line j e)
    (fun h => ⟨h.left, h.right⟩) (fun left right => .ofLockstep (.of_tame left right)) stop body
  refine ⟨(Tame.look _).bind fun i => (tame i a).1, (Tame.look _).bind fun i => (tame i a').2, ?_⟩
  intro n s s' lt step
  obtain ⟨le, le'⟩ := step.le_ahead
  exact (enough lt (Nat.succ_le_succ le) (Nat.succ_le_succ le') a a' same).weaken.sim (Nat.lt_succ_self n) step

theorem repeats (stop : Tame (go 0) ∧ Tame (go' 0))
    (body : ∀ {i i' j : Nat}, j ≤ k → Loose T K line (j - 1) e (go i) (go' i') →
      Loose T K line j e (go (i + 1)) (go' (i' + 1))) : Loose T K line k e (rounds >>= go) (rounds >>= go') :=
  loop (fun _ : Unit => ()) (fun i _ => go i) (fun i _ => go' i) (fun _ _ => stop)
    (fun le ih _ _ _ => (body le (ih () () rfl).weaken).weaken) () () rfl

theorem loopBind (loop : Loose T K line k e (rounds >>= go) (rounds >>= go'))
    (rest : ∀ a a', e a = e a' → Loose T (K.learn a a') line k e₂ (f a) (f' a')) :
    Loose T K line k e₂ (rounds >>= fun i => go i >>= f) (rounds >>= fun i => go' i >>= f') := loop.bind rest

/-- What closes the list is missing in both runs, if they have parted. -/
theorem close (first : Loose T K line k e m m')
    (rest : Lockstep.Follows T K line k Never e e₂ f f') [inner : kind.Inner] :
    Lax T K line k P e₂ (m >>= fun a => require kind >>= fun _ => f a)
      (m' >>= fun a => require kind >>= fun _ => f' a) := by
  have whole : ∀ a a', e a = e a' → Lax T (K.learn a a') line k Anywhere e₂ (require kind >>= fun _ => f a)
      (require kind >>= fun _ => f' a') := fun a a' same => .andThen (.require kind) (rest a a' same)
  have left := fun a => (whole a a rfl).left
  have right := fun a => (whole a a rfl).right
  refine ⟨first.left.bind left, first.right.bind right, fun {n s s'} lt step _ => ?_⟩
  show PairOutcome T K line n Never e₂ s s' ((require kind >>= fun _ => f (m s).1) (m s).2)
    ((require kind >>= fun _ => f' (m' s').1) (m' s').2)
  rcases first.sim lt step with (passed | ⟨i, le, step, same, _, one⟩ | ⟨unlike, stuck⟩) | ⟨unlike, tokens, tokens'⟩
  · exact .passed (passed.run (left _) (right _))
  · exact (((whole _ _ same).sim (Nat.lt_of_le_of_lt le lt) step trivial).mono le).after one (left _).clean
  · exact stuck.run unlike (left _) (right _)
  · have stuck : ∀ fault fault', Stuck T ((m s).2.report fault) ((m' s').2.report fault') := fun fault fault' =>
      ⟨(ParseState.tokens_report _ _).trans tokens, (ParseState.tokens_report _ _).trans tokens',
        ParseState.failed_report _ _, ParseState.failed_report _ _⟩
    have inside := inner.inside
    rw [require_bind_end (Tail.ends_of_tokens tokens) inside, require_bind_end (Tail.ends_of_tokens tokens') inside]
    exact (stuck _ _).run unlike (rest (m s).1 (m s).1 rfl).left (rest (m' s').1 (m' s').1 rfl).right

theorem closeLoop (loop : Loose T K line k e (rounds >>= go) (rounds >>= go'))
    (rest : Lockstep.Follows T K line k Never e e₂ f f') [inner : kind.Inner] :
    Lax T K line k P e₂ (rounds >>= fun i => go i >>= fun a => require kind >>= fun _ => f a)
      (rounds >>= fun i => go' i >>= fun a => require kind >>= fun _ => f' a) :=
  close loop rest

end Loose

end Parse

end ColumnFlow
