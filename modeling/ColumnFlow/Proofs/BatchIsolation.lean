import ColumnFlow.Proofs.LexAppend
import ColumnFlow.Proofs.LockstepScript

/-!
# Batches are read apart

A separator ends the batch in front of it, unless a statement of that batch reads the separator itself: a list in
parentheses that is not closed, or a place where the parser takes the next token whatever it is. Which texts do that
is seen without looking behind the separator (`Closes`). For the texts that do not, reading two texts with a separator
between them is reading the one and then the other.
-/

namespace ColumnFlow

/-- The grammar that a text is read with. -/
def Grammar.ofText (text : String) : Grammar := .ofDepth ((tokenize text).length + 2)

/-- The state before a text is read. -/
def ParseState.ofText (text : String) : ParseState := .ofTokens (tokenize text)

/-- Nothing is in progress. -/
structure ParseState.Fresh (s : ParseState) : Prop where
  failed : s.failed = false
  depth : s.depth = 0
  inline : s.inlineFunction = false

theorem ParseState.Fresh.advance {s : ParseState} (h : s.Fresh) : s.advance.Fresh :=
  ⟨by simpa using h.failed, by simpa using h.depth, by simpa using h.inline⟩

/-- From `s` on, a batch begins at `t`. -/
inductive BatchStart (g : Grammar) : ParseState → ParseState → Prop
  | here (s) : BatchStart g s s
  | next {s t} : (Parse.batch g s).2.current.kind = .separator → BatchStart g (Parse.batch g s).2.advance t →
      BatchStart g s t

/-- No statement of the text reads a separator that is put behind it: a batch begins behind the separator, at the end
of the text. -/
def Closes (text : String) : Prop :=
  ∃ t, BatchStart (.ofText (text ++ "\nGO\n")) (.ofText (text ++ "\nGO\n")) t ∧ t.ahead = []

namespace Parse

variable {T : Tails} {line : Bool} {k : Nat} {P : Nat → ParseState → Prop} {g g' : Grammar}

theorem batch_failed (g : Grammar) (s : ParseState) : (batch g s).2.failed = s.failed :=
  stmtList_failed g (fun _ => false) s

/-- A first batch is left out in both lists or in none. -/
theorem bare_first {first first' : Batch} {rest rest' more : List Batch} (same : first.bare = first'.bare)
    (append : rest'.map Batch.bare = rest.map Batch.bare ++ more.map Batch.bare) :
    (if first'.stmts.isEmpty then rest' else first' :: rest').map Batch.bare =
      (if first.stmts.isEmpty then rest else first :: rest).map Batch.bare ++ more.map Batch.bare := by
  have empty : first.stmts.isEmpty = first'.stmts.isEmpty := by
    rw [Bool.eq_iff_iff]
    exact isEmpty_congr (congrArg Batch.stmts same)
  rw [empty]
  split <;> simp [same, append]

/-! ### Batches in lockstep -/

namespace Lockstep

protected theorem batch (hg : GrammarLock T k g g') : Lax T .nothing line k P Batch.bare (batch g) (batch g') :=
  .position fun _ _ => .bind (.moduleBody hg) fun _ _ same => .spanFrom fun _ _ => .pure (by simp [Batch.bare, same])

/-- Where both texts end, a separator is a common token. -/
theorem separator_test (left : T.left.first.kind = .eof) (right : T.right.first.kind = .eof) :
    Test T line 0 1 fun s => s.current.kind == .separator where
  agree {n s s'} le step := by
    rcases step.kind_eq_or_end with same | ⟨unlike, _⟩
    · rw [same]
    · exact absurd (Tails.alike_of_eof left right) unlike
  reach {n s s'} le step holds := by
    rcases step.token_at (Nat.zero_le n) with ⟨lt, _⟩ | ⟨_, token, _⟩
    · exact lt
    · simp [ParseState.current_eq token, left] at holds

/-- Two texts that are alike to their ends have the same batches. -/
theorem batches_go (hg : GrammarLock T k g g') (left : T.left.first.kind = .eof) (right : T.right.first.kind = .eof)
    {j i i' : Nat} (le : j ≤ k) (enough : j ≤ i) (enough' : j ≤ i') :
    Lax T .nothing line j Anywhere (List.map Batch.bare) (batches.go g i) (batches.go g' i') := by
  refine (loopWith (fun _ : Unit => ()) (fun i _ => batches.go g i) (fun i _ => batches.go g' i)
    (R := fun _ _ j => Lax T .nothing line j Anywhere (List.map Batch.bare)) (fun h => ⟨h.left, h.right⟩)
    of_tame (fun _ _ => ⟨.cutOff _, .cutOff _⟩) (fun {i i' j} le ih _ _ _ => ?_)).2 le enough enough' () () rfl
  refine .bind (.batch (hg.mono le)) fun first first' same => ?_
  have result : ∀ {l : Nat} (rest rest' : List Batch), rest.map Batch.bare = rest'.map Batch.bare →
      Lax T .nothing line l Anywhere (List.map Batch.bare)
        (pure (if first.stmts.isEmpty then rest else first :: rest) : Parse (List Batch))
        (pure (if first'.stmts.isEmpty then rest' else first' :: rest')) := by
    intro l rest rest' more
    have both := @bare_first _ _ rest rest' [] same (more.symm.trans (List.append_nil _).symm)
    exact .pure (both.trans (List.append_nil _)).symm
  exact takeIn (j := j - 1) (by omega) (separator_test left right)
    (.bind (ih () () rfl).weaken fun rest rest' same => (result rest rest' same).weaken)
    (.bind (.pure rfl) fun rest rest' same => (result rest rest' same).weaken)

end Lockstep

theorem Tame.batch (hg : GrammarLock T k g g') : Tame (batch g) :=
  (Lockstep.batch hg : Lax T .nothing true k Anywhere _ _ _).left

/-- One round: a batch, and those behind the separator that ends it. A batch without statements is left out. -/
theorem batches_go_succ (g : Grammar) (i : Nat) (s : ParseState) :
    batches.go g (i + 1) s =
      let x := batch g s
      let rest := if x.2.current.kind = .separator then batches.go g i x.2.advance else ([], x.2)
      (if x.1.stmts.isEmpty then rest.1 else x.1 :: rest.1, rest.2) := by
  rw [batches.go, bind_apply, accept_eq, taken_bind]
  unfold either
  by_cases separator : (batch g s).2.current.kind = .separator
  · simp only [separator, beq_self_eq_true, if_true]
    rfl
  · simp only [separator, beq_eq_false_iff_ne.mpr separator, Bool.false_eq_true, if_false]
    rfl

end Parse

/-! ### A text, with a separator behind it, with another text behind that -/

open Parse

/-- Three runs that start with tokens that are alike. The first text ends there, in the second a separator ends the
text, and in the third it stands in front of another text. -/
structure Threefold where
  plain : Tail
  closed : Tail
  joined : Tail
  plainEnd : plain.first.kind = .eof
  closedEnd : ∃ last, closed.rest = [last] ∧ last.kind = .eof
  separators : closed.first.Alike joined.first
  separator : joined.first.kind = .separator

namespace Threefold

variable (R : Threefold)

def plainTails : Tails := ⟨R.plain, R.joined⟩

def closedTails : Tails := ⟨R.closed, R.joined⟩

variable {R : Threefold} {line : Bool} {n k : Nat} {s₁ s₂ s₃ : ParseState} {g₁ g₂ g₃ : Grammar}

/-- The three runs stand at the same place between batches. -/
structure Between (R : Threefold) (line : Bool) (n : Nat) (s₁ s₂ s₃ : ParseState) : Prop where
  plain : InStep R.plainTails line n s₁ s₃
  closed : InStep R.closedTails line n s₂ s₃
  failed : s₃.failed = false
  depth : s₃.depth = 0
  inline : s₃.inlineFunction = false

theorem Between.fresh (h : Between R line n s₁ s₂ s₃) : s₃.Fresh := ⟨h.failed, h.depth, h.inline⟩

/-- A batch ends at the same place in all three runs, if it leaves the separator alone. -/
theorem Between.batch (h : Between R line n s₁ s₂ s₃) (plain : GrammarLock R.plainTails k g₁ g₃)
    (closed : GrammarLock R.closedTails k g₂ g₃) (lt : n < k) (ends : (batch g₂ s₂).2.current.kind = .separator) :
    (Parse.batch g₁ s₁).1.bare = (Parse.batch g₃ s₃).1.bare ∧
      ∃ m ≤ n, Between R line m (Parse.batch g₁ s₁).2 (Parse.batch g₂ s₂).2 (Parse.batch g₃ s₃).2 := by
  have tame₂ : (Parse.batch g₂).Tame := .batch closed
  have tame₃ : (Parse.batch g₃).Tame :=
    (Lockstep.batch closed : Lax R.closedTails .nothing true k Anywhere _ _ _).right
  have failed : (Parse.batch g₃ s₃).2.failed = false := (batch_failed g₃ s₃).trans h.failed
  have depth : (Parse.batch g₃ s₃).2.depth = 0 := (tame₃.depth s₃).trans h.depth
  have inline : (Parse.batch g₃ s₃).2.inlineFunction = false := tame₃.inline s₃ h.inline
  obtain ⟨m, le, step⟩ : ∃ m ≤ n, InStep R.closedTails line m (Parse.batch g₂ s₂).2 (Parse.batch g₃ s₃).2 := by
    have lock : Lax R.closedTails .nothing line k Anywhere _ _ _ := .batch closed
    cases lock.sim lt h.closed trivial with
    | inStep m le step _ _ _ => exact ⟨m, le, step⟩
    | stuck unlike _ => exact absurd R.separators unlike
    | passed passed =>
      -- Only the end of the text is left behind the separator.
      have left : (Parse.batch g₂ s₂).2.tokens.length < R.closed.tokens.length := (passed.2 R.separators).1
      obtain ⟨last, rest, kind⟩ := R.closedEnd
      obtain ⟨r, _, _, _, tokens, _⟩ := h.closed.common
      obtain ⟨read, suffix⟩ := tame₂.suffix s₂
      have alone : (Parse.batch g₂ s₂).2.ahead = [] := by
        simp only [ParseState.tokens, Tail.tokens, rest, List.length_cons, List.length_nil] at left
        exact List.eq_nil_of_length_eq_zero (by omega)
      have whole : read ++ [(Parse.batch g₂ s₂).2.current] = (r ++ [R.closed.first]) ++ [last] := by
        rw [tokens] at suffix
        simpa [ParseState.tokens, alone, closedTails, Tail.tokens, rest] using suffix
      have current := (List.cons.inj (List.append_inj' whole rfl).2).1
      simp [current, kind] at ends
  cases (Lockstep.batch plain : Lax R.plainTails .nothing line k Anywhere _ _ _).sim lt h.plain trivial with
  | inStep m' le' step' same _ _ =>
    have length := step.length.2
    have length' := step'.length.2
    obtain rfl : m' = m := by
      simp only [plainTails, closedTails] at length length'
      omega
    exact ⟨same, m', le', step', step, failed, depth, inline⟩
  | stuck _ stuck => exact absurd (failed.symm.trans stuck.failed') (by decide)
  | passed passed =>
    have length := step.length.2
    rcases passed.1 with passed | passed
    · exact absurd passed (Tail.not_passed R.plainEnd _)
    · simp only [Tail.Passed, plainTails, closedTails] at passed length
      omega

/-- Behind the separator the third run goes on with the other text. -/
theorem Between.batches (h : Between R line n s₁ s₂ s₃) (plain : GrammarLock R.plainTails k g₁ g₃)
    (closed : GrammarLock R.closedTails k g₂ g₃) (lt : n < k) {t : ParseState} (start : BatchStart g₂ s₂ t)
    (last : t.ahead = []) {i j : Nat} (enough : n < i) :
    ∃ s, s.tokens = R.joined.rest ∧ s.Fresh ∧
      ∃ l ≥ j, (batches.go g₃ (n + 1 + j) s₃).1.map Batch.bare =
        (batches.go g₁ i s₁).1.map Batch.bare ++ (batches.go g₃ l s).1.map Batch.bare := by
  induction start generalizing line n s₁ s₃ i j with
  | here s =>
    have length := h.closed.length.1
    obtain ⟨_, rest, _⟩ := R.closedEnd
    simp [ParseState.tokens, last, closedTails, Tail.tokens, rest] at length
  | @next s₂ t ends _ ih =>
    obtain ⟨same, m, le, after⟩ := h.batch plain closed lt ends
    obtain ⟨i, rfl⟩ : ∃ l, i = l + 1 := ⟨i - 1, by omega⟩
    rw [show n + 1 + j = n + j + 1 by omega, batches_go_succ, batches_go_succ]
    have fresh := after.fresh.advance
    cases m with
    | zero =>
      obtain ⟨left, right⟩ := after.plain.tokens_end
      have current₁ : (Parse.batch g₁ s₁).2.current = R.plain.first := (List.cons.inj left).1
      have current₃ : (Parse.batch g₃ s₃).2.current = R.joined.first := (List.cons.inj right).1
      have ahead : (Parse.batch g₃ s₃).2.ahead = R.joined.rest := (List.cons.inj right).2
      have more : (Parse.batch g₃ s₃).2.ahead ≠ [] := ahead ▸ R.joined.more R.separator
      refine ⟨(Parse.batch g₃ s₃).2.advance, (ParseState.tokens_advance more).trans ahead, fresh, n + j, Nat.le_add_left j n, ?_⟩
      simp only [current₁, current₃, R.plainEnd, R.separator, if_true, reduceCtorEq, if_false]
      exact bare_first same rfl
    | succ m =>
      have alike₂ := after.closed.alike.kind
      have alike₁ := after.plain.alike.kind
      have next : Between R true m (Parse.batch g₁ s₁).2.advance (Parse.batch g₂ s₂).2.advance
          (Parse.batch g₃ s₃).2.advance :=
        ⟨after.plain.advance, after.closed.advance, fresh.failed, fresh.depth, fresh.inline⟩
      obtain ⟨s, tokens, fresh, l, more, found⟩ :=
        ih next (by omega) last (i := i) (j := n + j - (m + 1)) (by omega)
      refine ⟨s, tokens, fresh, l, by omega, ?_⟩
      rw [ends] at alike₂
      rw [← alike₂] at alike₁
      simp only [alike₁, ← alike₂, if_true]
      rw [show m + 1 + (n + j - (m + 1)) = n + j by omega] at found
      exact bare_first same found

end Threefold

/-! ### Whole texts -/

variable {r r' : List Token} (text : String)

theorem tokenize_ne_nil : tokenize text ≠ [] := Lexer.place_ne_nil {} (pieces text.toList)

theorem ParseState.tokens_ofText : (ParseState.ofText text).tokens = tokenize text := by
  obtain ⟨t, rest, tokens⟩ := List.exists_cons_of_ne_nil (tokenize_ne_nil text)
  rw [ParseState.ofText, tokens]
  rfl

theorem ParseState.fresh_ofText : (ParseState.ofText text).Fresh := by
  unfold ofText ofTokens
  split <;> exact ⟨rfl, rfl, rfl⟩

/-- The tail of a text that goes on with another batch. -/
def Tail.ofSeparator (t : Token) (rest : List Token) (separator : t.kind = .separator) (more : rest ≠ []) : Tail where
  first := t
  rest := rest
  ends := by rw [separator]; rfl
  last eof := by simp [separator] at eof
  more _ := more

theorem batches_ofText : (parseAll text).1.batches =
      (batches.go (.ofText text) (tokenize text).length (.ofText text)).1 := by
  rw [← ParseState.tokens_ofText]
  rfl

theorem Aligned.symm (h : Aligned r r') : Aligned r' r := by
  have alike : ∀ {t t' : Token}, t.Alike t' → t'.Alike t := fun h => ⟨h.kind.symm, h.literal.symm, h.quoted.symm⟩
  induction h with
  | nil => exact .nil
  | last h => exact .last (alike h)
  | cons h beside _ ih => exact .cons (alike h) ⟨beside.stop.symm, beside.start.symm⟩ ih

theorem Aligned.trans {r r' r'' : List Token} (h : Aligned r r') (h' : Aligned r' r'') : Aligned r r'' := by
  have alike : ∀ {t t' t'' : Token}, t.Alike t' → t'.Alike t'' → t.Alike t'' := fun h h' =>
    ⟨h.kind.trans h'.kind, h.literal.trans h'.literal, h.quoted.trans h'.quoted⟩
  induction h generalizing r'' with
  | nil => exact h'
  | last h =>
    cases h' with
    | last h' => exact .last (alike h h')
  | cons h beside _ ih =>
    cases h' with
    | cons h' beside' rest =>
      exact .cons (alike h h') ⟨beside.stop.trans beside'.stop, beside.start.trans beside'.start⟩ (ih rest)

/-- Two runs that have not begun to read are in step. -/
theorem InStep.start {T : Tails} {s s' : ParseState} (aligned : Aligned r r')
    (left : s.tokens = r ++ T.left.tokens) (right : s'.tokens = r' ++ T.right.tokens)
    (sorted : s.tokens.Pairwise fun t u => t.start.offset < u.start.offset)
    (sorted' : s'.tokens.Pairwise fun t u => t.start.offset < u.start.offset) (fresh : s.Fresh) (fresh' : s'.Fresh) :
    InStep T false r.length s s' :=
  ⟨⟨r, r', aligned, rfl, left, right⟩, sorted, sorted', fresh.failed.trans fresh'.failed.symm,
    fresh.depth.trans fresh'.depth.symm, fun _ => fresh.inline.trans fresh'.inline.symm, nofun⟩

theorem InStep.ofTexts {T : Tails} {text text' : String} (aligned : Aligned r r')
    (left : tokenize text = r ++ T.left.tokens) (right : tokenize text' = r' ++ T.right.tokens) :
    InStep T false r.length (.ofText text) (.ofText text') := by
  have same := ParseState.tokens_ofText
  exact .start aligned ((same text).trans left) ((same text').trans right) (same text ▸ tokenize_sorted text)
    (same text' ▸ tokenize_sorted text') (ParseState.fresh_ofText _) (ParseState.fresh_ofText _)

/-- A text that is read behind another one has the batches that it has alone. -/
theorem batches_moved {text : String} {lines bytes depth rounds : Nat} {s : ParseState}
    (tokens : s.tokens = (tokenize text).map (Lexer.movedToken lines bytes)) (fresh : s.Fresh)
    (deep : (tokenize text).length ≤ depth) (enough : (tokenize text).length ≤ rounds)
    (sorted : s.tokens.Pairwise fun t u => t.start.offset < u.start.offset) :
    (batches.go (.ofDepth depth) rounds s).1.map Batch.bare = (parseAll text).1.batches.map Batch.bare := by
  obtain ⟨front, after, found⟩ := Lexer.place_last {} (pieces text.toList)
  have found : tokenize text = front ++ [Lexer.endToken after] := found
  let T : Tails := ⟨.ofEnd (Lexer.movedToken lines bytes (Lexer.endToken after)) rfl rfl rfl,
    .ofEnd (Lexer.endToken after) rfl rfl rfl⟩
  have length : (tokenize text).length = front.length + 1 := by simp [found]
  have step : InStep T false (front.map (Lexer.movedToken lines bytes)).length s (.ofText text) := by
    refine .start (Lexer.moved_aligned lines bytes front) ?_ ?_ sorted ?_ fresh (ParseState.fresh_ofText text)
    · simp [tokens, found, T, Tail.tokens, Tail.ofEnd]
    · simp [ParseState.tokens_ofText, found, T, Tail.tokens, Tail.ofEnd]
    · rw [ParseState.tokens_ofText]
      exact tokenize_sorted text
  rw [List.length_map] at step
  have lock : GrammarLock T (front.length + 1) (.ofDepth depth) (.ofText text) :=
    .ofDepth (by omega) (by omega)
  have same : Lax T .nothing false (front.length + 1) Anywhere (List.map Batch.bare)
      (batches.go (.ofDepth depth) rounds) (batches.go (.ofText text) (tokenize text).length) :=
    .batches_go lock rfl rfl (Nat.le_refl _) (by omega) (by omega)
  rw [batches_ofText]
  cases same.sim (Nat.lt_succ_self _) step trivial with
  | inStep _ _ _ same _ _ => exact same
  | stuck unlike _ => exact absurd (Tails.alike_of_eof rfl rfl) unlike
  | passed passed => exact (passed.1.elim (Tail.not_passed rfl _) (Tail.not_passed rfl _)).elim

/-- Reading a text, a separator and another text is reading the one and then the other, if no statement of the first
text reads the separator. -/
theorem batches_append_of_closes {first : String} (clean : lexErrors first = []) (noNul : Piece.nul ∉ first.toList)
    (closes : Closes first) (second : String) :
    (parseAll (first ++ "\nGO\n" ++ second)).1.batches.map Batch.bare =
      (parseAll first).1.batches.map Batch.bare ++ (parseAll second).1.batches.map Batch.bare := by
  obtain ⟨front, front', go, after, lines, bytes, same, plain, kind, literal, quoted, joined⟩ :=
    tokenize_append clean noNul second
  obtain ⟨front₀, front₀', go₀, after₀, lines₀, bytes₀, same₀, plain₀, kind₀, literal₀, quoted₀, closed⟩ :=
    tokenize_append clean noNul ""
  obtain rfl : front = front₀ := (List.append_inj' (plain.symm.trans plain₀) rfl).1
  obtain ⟨t, start, last⟩ := closes
  rw [← String.append_empty (s := first ++ "\nGO\n")] at start
  have more : ∀ text lines bytes, (tokenize text).map (Lexer.movedToken lines bytes) ≠ [] := fun text _ _ =>
    mt List.map_eq_nil_iff.mp (tokenize_ne_nil text)
  let R : Threefold :=
    { plain := .ofEnd (Lexer.endToken after) rfl rfl rfl
      closed := .ofSeparator go₀ _ kind₀ (more "" lines₀ bytes₀)
      joined := .ofSeparator go _ kind (more second lines bytes)
      plainEnd := rfl
      closedEnd := ⟨_, rfl, rfl⟩
      separators := ⟨kind₀.trans kind.symm, literal₀.trans literal.symm, quoted₀.trans quoted.symm⟩
      separator := kind }
  have length : (tokenize (first ++ "\nGO\n" ++ second)).length = front.length + 1 + (tokenize second).length := by
    simp [joined, same.aligned.length_eq]
    omega
  have between : R.Between false front.length (.ofText first) (.ofText (first ++ "\nGO\n" ++ ""))
      (.ofText (first ++ "\nGO\n" ++ second)) := by
    have length₀ : front.length = front₀'.length := same₀.aligned.length_eq
    have fresh := ParseState.fresh_ofText (first ++ "\nGO\n" ++ second)
    refine ⟨.ofTexts same.aligned plain joined, ?_, fresh.failed, fresh.depth, fresh.inline⟩
    rw [length₀]
    exact .ofTexts (same₀.aligned.symm.trans same.aligned) closed joined
  have closedLength : (tokenize (first ++ "\nGO\n" ++ "")).length = front.length + 2 := by
    rw [closed, List.length_append, ← same₀.aligned.length_eq]
    rfl
  have plainLock : GrammarLock R.plainTails (front.length + 1) (.ofText first)
      (.ofText (first ++ "\nGO\n" ++ second)) := .ofDepth (by simp [plain]) (by omega)
  have closedLock : GrammarLock R.closedTails (front.length + 1) (.ofText (first ++ "\nGO\n" ++ ""))
      (.ofText (first ++ "\nGO\n" ++ second)) := .ofDepth (by omega) (by omega)
  obtain ⟨s, tokens, fresh, l, enough, found⟩ := between.batches plainLock closedLock
    (i := (tokenize first).length) (j := (tokenize second).length) (Nat.lt_succ_self _) start last (by simp [plain])
  rw [← length, ← batches_ofText, ← batches_ofText] at found
  have sorted : s.tokens.Pairwise fun t u => t.start.offset < u.start.offset := by
    have whole := tokenize_sorted (first ++ "\nGO\n" ++ second)
    rw [joined] at whole
    rw [tokens]
    exact (List.pairwise_cons.mp (List.pairwise_append.mp whole).2.1).2
  rw [found, Grammar.ofText, batches_moved tokens fresh (by omega) enough sorted]

/-- A statement that is not closed costs itself, and the batch behind it is read. -/
theorem batches_append_of_closes_unclosed :
    let first := "UPDATE t SET a = (b"
    let second := "SELECT b FROM u"
    lexErrors first = [] ∧ Piece.nul ∉ first.toList ∧ Closes first ∧
      (parseAll (first ++ "\nGO\n" ++ second)).1.batches.map Batch.bare =
        (parseAll first).1.batches.map Batch.bare ++ (parseAll second).1.batches.map Batch.bare ∧
      (parseAll second).1.batches.length = 1 := by
  intro first second
  have clean : lexErrors first = [] := by decide +kernel
  have noNul : Piece.nul ∉ first.toList := by decide +kernel
  have closes : Closes first := ⟨_, .next (by decide +kernel) (.here _), by decide +kernel⟩
  exact ⟨clean, noNul, closes, batches_append_of_closes clean noNul closes second, by decide +kernel⟩

/-- A list of hints that is not closed takes the separator and all that stands behind it. -/
example :
    let first := "SELECT a FROM t WITH (NOLOCK"
    let second := "SELECT b FROM u"
    lexErrors first = [] ∧ (parseAll first).1.batches.length = 0 ∧ (parseAll second).1.batches.length = 1 ∧
      (parseAll (first ++ "\nGO\n" ++ second)).1.batches.length = 0 := by
  decide +kernel

end ColumnFlow
