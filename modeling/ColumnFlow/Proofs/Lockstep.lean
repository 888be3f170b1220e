import ColumnFlow.Proofs.OneRun

/-!
# Reading two token lists in lockstep

The same parser is run on two lists of tokens. Both start with tokens that are alike except for their
places; behind those stand two tails, each of which begins with a token that ends a batch: the end of the
text, or a separator. As long as neither run has read past the beginning of its tail, the two runs do the same:
they stand at the same token, agree on whether the statement has a fault, and yield values that are alike. The
only way out is a fault at the very end of the common tokens, after which neither run reads any further.

`Lockstep` states this of a parser together with what holds of each run on its own (`Tame`), and is closed under
the ways in which parsers are put together. It is bounded by the number of common tokens that are left, since
recursion is bounded by fuel, and the two runs have different amounts of it.
-/

namespace ColumnFlow

/-! ### What two runs read -/

/-- The two tokens differ at most in their places. -/
structure Token.Alike (t t' : Token) : Prop where
  kind : t.kind = t'.kind
  literal : t.literal = t'.literal
  quoted : t.quoted = t'.quoted

/-- `u` stands to `t` as `u'` to `t'`, as far as the parser looks at lines. -/
structure Token.Beside (t u t' u' : Token) : Prop where
  stop : (u.start.line == t.stop.line) = (u'.start.line == t'.stop.line)
  start : (u.start.line == t.start.line) = (u'.start.line == t'.start.line)

/-- Tokens that are alike one by one, with line ends between the same ones. -/
inductive Aligned : List Token → List Token → Prop
  | nil : Aligned [] []
  | last {t t'} : t.Alike t' → Aligned [t] [t']
  | cons {t t' u u' r r'} : t.Alike t' → Token.Beside t u t' u' → Aligned (u :: r) (u' :: r') →
      Aligned (t :: u :: r) (t' :: u' :: r')

namespace Aligned

variable {t t' : Token} {r r' : List Token}

theorem head (h : Aligned (t :: r) (t' :: r')) : t.Alike t' := by
  cases h <;> assumption

theorem tail (h : Aligned (t :: r) (t' :: r')) : Aligned r r' := by
  cases h with
  | last => exact .nil
  | cons _ _ rest => exact rest

theorem length_eq {r r' : List Token} (h : Aligned r r') : r.length = r'.length := by
  induction h with
  | nil | last => rfl
  | cons _ _ _ ih => simpa using ih

theorem alike_at {r r' : List Token} (h : Aligned r r') {i : Nat} (lt : i < r.length) :
    ∃ t t', r[i]? = some t ∧ r'[i]? = some t' ∧ t.Alike t' := by
  induction h generalizing i with
  | nil => exact absurd lt (Nat.not_lt_zero i)
  | last alike =>
    obtain rfl : i = 0 := by simpa using lt
    exact ⟨_, _, rfl, rfl, alike⟩
  | cons alike _ _ ih =>
    cases i with
    | zero => exact ⟨_, _, rfl, rfl, alike⟩
    | succ i => simpa using ih (i := i) (by simpa using lt)

end Aligned

/-- What stands behind the common tokens. -/
structure Tail where
  first : Token
  rest : List Token
  ends : first.kind.endsBatch = true
  last : first.kind = .eof → rest = [] ∧ first.literal = "" ∧ first.quoted = false
  more : first.kind = .separator → rest ≠ []

def Tail.tokens (t : Tail) : List Token := t.first :: t.rest

/-- The run has read the first token of the tail. -/
def Tail.Passed (t : Tail) (s : ParseState) : Prop := s.tokens.length < t.tokens.length

/-- The tails of two runs. -/
structure Tails where
  left : Tail
  right : Tail

namespace Tails

variable (T : Tails)

/-- Both tails begin in the same way. -/
def Alike : Prop := T.left.first.Alike T.right.first

/-- A run has read into its tail; both have, where the tails begin in the same way. -/
def Passed (s s' : ParseState) : Prop :=
  (T.left.Passed s ∨ T.right.Passed s') ∧ (T.Alike → T.left.Passed s ∧ T.right.Passed s')

end Tails

/-- Two runs that stand at the same place, `n` tokens before their tails. `line` says that they agree on whether
the current token starts on the line where the last one ended, which need not be so before the first token. -/
structure InStep (T : Tails) (line : Bool) (n : Nat) (s s' : ParseState) : Prop where
  common : ∃ r r', Aligned r r' ∧ r.length = n ∧ s.tokens = r ++ T.left.tokens ∧ s'.tokens = r' ++ T.right.tokens
  sorted : s.tokens.Pairwise fun t u => t.start.offset < u.start.offset
  sorted' : s'.tokens.Pairwise fun t u => t.start.offset < u.start.offset
  failed : s.failed = s'.failed
  depth : s.depth = s'.depth
  inline : 0 < n → s.inlineFunction = s'.inlineFunction
  sameLine : line = true → 0 < n → s.sameLine = s'.sameLine

/-- Both runs stand at their tails with a fault in the statement. -/
structure Stuck (T : Tails) (s s' : ParseState) : Prop where
  left : s.tokens = T.left.tokens
  right : s'.tokens = T.right.tokens
  failed : s.failed = true
  failed' : s'.failed = true

/-- Both tails are the end of one text. -/
structure Tails.Closed (T : Tails) : Prop where
  same : T.left = T.right
  eof : T.left.first.kind = .eof

/-- The two runs are one, over a text to its end. -/
structure Alone (T : Tails) (s s' : ParseState) : Prop where
  same : s = s'
  closed : T.Closed

/-- What is told of one run, from a state to where it ends. -/
structure OneRun {α : Type} [HasHoles α] (K : Facts) (s : ParseState) (x x' : α × ParseState) : Prop where
  same : x = x'
  own : Reports s x.2
  whole : K.whole → x.2.failed = false → HasHoles.whole x.1

/-- How two runs that were in step `n` tokens before their tails can end. Results for which `must` holds come
only with a token read. More is told of runs that are one. -/
inductive PairOutcome {α γ : Type} [HasHoles α] (T : Tails) (K : Facts) (line : Bool) (n : Nat)
    (must : α → ParseState → Prop) (e : α → γ) (s s' : ParseState) (x x' : α × ParseState) : Prop
  | passed : T.Passed x.2 x'.2 → PairOutcome T K line n must e s s' x x'
  | inStep (m : Nat) : m ≤ n → InStep T line m x.2 x'.2 → e x.1 = e x'.1 → (must x.1 x.2 → m < n) →
      (K.same → Alone T s s' → OneRun K s x x') → PairOutcome T K line n must e s s' x x'
  | stuck : ¬T.Alike → Stuck T x.2 x'.2 → PairOutcome T K line n must e s s' x x'

/-! ### Reading a token -/

theorem TokenKind.endsBatch_iff (kind : TokenKind) : kind.endsBatch = true ↔ kind = .eof ∨ kind = .separator := by
  cases kind <;> simp [TokenKind.endsBatch]

theorem Tail.kind_cases (t : Tail) : t.first.kind = .eof ∨ t.first.kind = .separator :=
  (TokenKind.endsBatch_iff _).mp t.ends

variable {s : ParseState}

theorem Tail.current_of_tokens {t : Tail} (h : s.tokens = t.tokens) : s.current = t.first := (List.cons.inj h).1

theorem Tail.ends_of_tokens {t : Tail} (h : s.tokens = t.tokens) : s.current.kind.endsBatch = true :=
  current_of_tokens h ▸ t.ends

/-- A separator can be read, the end of the text cannot. -/
theorem Tail.advance (t : Tail) (h : s.tokens = t.tokens) :
    (t.first.kind = .separator ∧ t.Passed s.advance) ∨ (t.first.kind = .eof ∧ s.advance.tokens = t.tokens) := by
  simp only [ParseState.tokens, Tail.tokens, List.cons.injEq] at h
  obtain ⟨current, ahead⟩ := h
  rcases t.kind_cases with eof | separator
  · refine .inr ⟨eof, ?_⟩
    rw [(t.last eof).1] at ahead
    simp [ParseState.advance_of_ahead_nil ahead, ParseState.tokens, Tail.tokens, (t.last eof).1, ahead, current]
  · refine .inl ⟨separator, ?_⟩
    have more : s.ahead ≠ [] := ahead ▸ t.more separator
    simp [Tail.Passed, ParseState.tokens_advance more, Tail.tokens, ahead]

theorem Tail.passed_advance {t : Tail} (h : s.tokens = t.tokens) (separator : t.first.kind = .separator) :
    t.Passed s.advance := by
  simpa [separator] using t.advance h

theorem Tails.alike_of_eof {T : Tails} (left : T.left.first.kind = .eof) (right : T.right.first.kind = .eof) :
    T.Alike where
  kind := left.trans right.symm
  literal := (T.left.last left).2.1.trans (T.right.last right).2.1.symm
  quoted := (T.left.last left).2.2.trans (T.right.last right).2.2.symm

/-- Of tails that begin differently one begins with a separator. -/
theorem Tails.separator_of_unlike {T : Tails} (unlike : ¬T.Alike) :
    T.left.first.kind = .separator ∨ T.right.first.kind = .separator :=
  T.left.kind_cases.symm.imp_right fun left =>
    T.right.kind_cases.resolve_left fun right => unlike (alike_of_eof left right)

theorem Tails.Passed.of_unlike {T : Tails} {s s' : ParseState} (unlike : ¬T.Alike)
    (h : T.left.Passed s ∨ T.right.Passed s') : T.Passed s s' := ⟨h, fun alike => absurd alike unlike⟩

namespace InStep

variable {T : Tails} {line : Bool} {n : Nat} {s s' : ParseState}

theorem weaken {line' : Bool} (h : InStep T line' n s s') (up : line = true → line' = true) : InStep T line n s s' :=
  { h with sameLine := fun lines => h.sameLine (up lines) }

theorem alike (h : InStep T line (n + 1) s s') : s.current.Alike s'.current := by
  obtain ⟨r, r', aligned, length, left, right⟩ := h.common
  match r, r', aligned, length with
  | t :: r, t' :: r', aligned, length =>
    simp only [ParseState.tokens, List.cons_append, List.cons.injEq] at left right
    exact left.1 ▸ right.1 ▸ aligned.head

/-- The common tokens can be told apart from the tails: what the two runs see of them. -/
theorem tokens_cons (h : InStep T line (n + 1) s s') :
    ∃ r r', Aligned (s.current :: r) (s'.current :: r') ∧ r.length = n ∧ s.ahead = r ++ T.left.tokens ∧
      s'.ahead = r' ++ T.right.tokens := by
  obtain ⟨r, r', aligned, length, left, right⟩ := h.common
  match r, r', aligned, length with
  | t :: r, t' :: r', aligned, length =>
    simp only [ParseState.tokens, List.cons_append, List.cons.injEq] at left right
    obtain ⟨rfl, left⟩ := left
    obtain ⟨rfl, right⟩ := right
    exact ⟨r, r', aligned, by simpa using length, left, right⟩

/-- What the runs see when they look ahead: tokens that are alike, then the beginnings of the tails. -/
theorem token_at (h : InStep T line n s s') {i : Nat} (le : i ≤ n) :
    (i < n ∧ ∃ t t', s.tokens[i]? = some t ∧ s'.tokens[i]? = some t' ∧ t.Alike t') ∨
      (i = n ∧ s.tokens[i]? = some T.left.first ∧ s'.tokens[i]? = some T.right.first) := by
  obtain ⟨r, r', aligned, rfl, left, right⟩ := h.common
  rcases Nat.lt_or_eq_of_le le with lt | rfl
  · obtain ⟨t, t', token, token', alike⟩ := aligned.alike_at lt
    refine .inl ⟨lt, t, t', ?_, ?_, alike⟩
    · rw [left, List.getElem?_append_left lt, token]
    · rw [right, List.getElem?_append_left (aligned.length_eq ▸ lt), token']
  · refine .inr ⟨rfl, ?_, ?_⟩
    · rw [left, List.getElem?_append_right (Nat.le_refl _)]
      simp [Tail.tokens]
    · rw [right, aligned.length_eq, List.getElem?_append_right (Nat.le_refl _)]
      simp [Tail.tokens]

/-- The rounds that a loop can make outnumber the common tokens, in both runs. -/
theorem le_ahead (h : InStep T line n s s') : n ≤ s.ahead.length ∧ n ≤ s'.ahead.length := by
  obtain ⟨r, r', aligned, rfl, left, right⟩ := h.common
  have length := congrArg List.length left
  have length' := congrArg List.length right
  simp only [ParseState.tokens, Tail.tokens, List.length_append, List.length_cons] at length length'
  have := aligned.length_eq
  omega

/-- Either both runs stand at tokens that are alike, or both stand at an end of a batch. -/
theorem current_cases (h : InStep T line n s s') :
    (s.current.Alike s'.current ∧ s.current.kind.endsBatch = false) ∨
      (s.current.kind.endsBatch = true ∧ s'.current.kind.endsBatch = true) := by
  rcases h.token_at (Nat.zero_le n) with ⟨_, t, t', token, token', alike⟩ | ⟨_, token, token'⟩
  · rw [ParseState.current_eq token, ParseState.current_eq token', ← alike.kind]
    cases ends : t.kind.endsBatch with
    | true => exact .inr ⟨rfl, rfl⟩
    | false => exact .inl ⟨alike, rfl⟩
  · rw [ParseState.current_eq token, ParseState.current_eq token']
    exact .inr ⟨T.left.ends, T.right.ends⟩

theorem length (h : InStep T line n s s') :
    s.tokens.length = n + T.left.tokens.length ∧ s'.tokens.length = n + T.right.tokens.length := by
  obtain ⟨r, r', aligned, rfl, left, right⟩ := h.common
  simp [left, right, aligned.length_eq]

theorem tokens_end (h : InStep T line 0 s s') : s.tokens = T.left.tokens ∧ s'.tokens = T.right.tokens := by
  obtain ⟨r, r', aligned, length, left, right⟩ := h.common
  obtain rfl := List.length_eq_zero_iff.mp length
  cases aligned
  exact ⟨left, right⟩

/-- Runs at different kinds of tokens stand at tails that begin differently. -/
theorem kind_eq_or_end (h : InStep T line n s s') :
    s.current.kind = s'.current.kind ∨
      (¬T.Alike ∧ s.tokens = T.left.tokens ∧ s'.tokens = T.right.tokens) := by
  cases n with
  | succ n => exact .inl h.alike.kind
  | zero =>
    obtain ⟨left, right⟩ := h.tokens_end
    by_cases alike : T.Alike
    · exact .inl (by rw [Tail.current_of_tokens left, Tail.current_of_tokens right, alike.kind])
    · exact .inr ⟨alike, left, right⟩

/-- One token is read in each run, and the next one is alike in its place on the line. -/
theorem advance (h : InStep T line (n + 1) s s') : InStep T true n s.advance s'.advance := by
  obtain ⟨r, r', aligned, length, left, right⟩ := h.tokens_cons
  have more : s.ahead ≠ [] := by simp [left, Tail.tokens]
  have more' : s'.ahead ≠ [] := by simp [right, Tail.tokens]
  refine ⟨⟨r, r', aligned.tail, length, ?_, ?_⟩, ?_, ?_, ?_, ?_, ?_, ?_⟩
  · rw [ParseState.tokens_advance more, left]
  · rw [ParseState.tokens_advance more', right]
  · rw [ParseState.tokens_advance more]
    exact (List.pairwise_cons.mp h.sorted).2
  · rw [ParseState.tokens_advance more']
    exact (List.pairwise_cons.mp h.sorted').2
  · simpa using h.failed
  · simpa using h.depth
  · simpa using fun _ => h.inline n.succ_pos
  · intro _ inside
    cases aligned with
    | last => simp [← length] at inside
    | cons alike beside rest =>
      rw [ParseState.sameLine_advance left, ParseState.sameLine_advance right]
      exact beside.stop

theorem report (h : InStep T line n s s') (fault fault' : SyntaxFault) :
    InStep T line n (s.report fault) (s'.report fault') where
  common := by simpa using h.common
  sorted := by simpa using h.sorted
  sorted' := by simpa using h.sorted'
  failed := by simp
  depth := by simpa using h.depth
  inline := by simpa using h.inline
  sameLine := by simpa using h.sameLine

/-- At the end of the common tokens a run reads into its tail, unless the tail is the end of the text. -/
theorem advance_end (h : InStep T line 0 s s') :
    T.Passed s.advance s'.advance ∨
      (s.current.kind = .eof ∧ T.Alike ∧ InStep T line 0 s.advance s'.advance) := by
  obtain ⟨left, right⟩ := h.tokens_end
  rcases T.left.advance left with ⟨kind, passed⟩ | ⟨kind, tokens⟩ <;>
    rcases T.right.advance right with ⟨kind', passed'⟩ | ⟨kind', tokens'⟩
  · exact .inl ⟨.inl passed, fun _ => ⟨passed, passed'⟩⟩
  · refine .inl ⟨.inl passed, fun alike => ?_⟩
    simp [← alike.kind, kind] at kind'
  · refine .inl ⟨.inr passed', fun alike => ?_⟩
    simp [← alike.kind, kind] at kind'
  · have current := Tail.current_of_tokens left
    refine .inr ⟨current ▸ kind, Tails.alike_of_eof kind kind', ⟨[], [], .nil, rfl, tokens, tokens'⟩, ?_, ?_, ?_, ?_, ?_, ?_⟩
    · exact tokens ▸ left ▸ h.sorted
    · exact tokens' ▸ right ▸ h.sorted'
    · simpa using h.failed
    · simpa using h.depth
    · exact fun inside => absurd inside (Nat.lt_irrefl 0)
    · exact fun _ inside => absurd inside (Nat.lt_irrefl 0)

end InStep

/-! ### One run over a text to its end -/

theorem Aligned.refl : ∀ r, Aligned r r
  | [] => .nil
  | [_] => .last ⟨rfl, rfl, rfl⟩
  | _ :: u :: r => .cons ⟨rfl, rfl, rfl⟩ ⟨rfl, rfl⟩ (.refl (u :: r))

/-- Nothing is read past the end of the text. -/
theorem Tail.not_passed {t : Tail} (eof : t.first.kind = .eof) (s : ParseState) : ¬t.Passed s := by
  simp [Tail.Passed, Tail.tokens, (t.last eof).1, ParseState.tokens]

namespace ParseState

variable {T : Tails} {s s' : ParseState}

theorem ahead_length_le (suffix : s'.tokens <:+ s.tokens) : s'.ahead.length ≤ s.ahead.length :=
  Nat.le_of_succ_le_succ suffix.length_le

theorem ahead_length_advance (more : s.ahead ≠ []) : s.advance.ahead.length < s.ahead.length := by
  obtain ⟨t, rest, ahead⟩ := List.exists_cons_of_ne_nil more
  simp [advance_of_ahead_cons ahead, ahead]

/-- The run that goes on here is in step with itself. -/
def Sole (T : Tails) (s : ParseState) : Prop := InStep T true s.ahead.length s s

theorem Sole.tokens (closed : T.Closed) (h : s.Sole T) : ∃ r, s.tokens = r ++ [T.left.first] := by
  obtain ⟨r, _, _, _, left, _⟩ := h.common
  exact ⟨r, by rw [left, Tail.tokens, (T.left.last closed.eof).1]⟩

/-- A run over tokens in order up to the end of the text is in step with itself. -/
theorem sole_of_tokens (closed : T.Closed) {r : List Token} (tokens : s.tokens = r ++ [T.left.first])
    (sorted : s.tokens.Pairwise fun t u => t.start.offset < u.start.offset) : s.Sole T := by
  have length := congrArg List.length tokens
  simp only [ParseState.tokens, List.length_cons, List.length_append, List.length_nil, Nat.add_right_cancel_iff] at length
  have tail : T.left.tokens = [T.left.first] := by rw [Tail.tokens, (T.left.last closed.eof).1]
  refine ⟨⟨r, r, .refl r, length.symm, ?_, ?_⟩, sorted, sorted, rfl, rfl, fun _ => rfl, fun _ _ => rfl⟩
  · rw [tokens, tail]
  · rw [tokens, ← closed.same, tail]

theorem Sole.suffix (h : s.Sole T) (closed : T.Closed) (suffix : s'.tokens <:+ s.tokens) : s'.Sole T := by
  obtain ⟨r, tokens⟩ := h.tokens closed
  have sorted := h.sorted.sublist suffix.sublist
  rw [tokens, List.suffix_concat_iff] at suffix
  rcases suffix with none | ⟨_, rest, _⟩
  · exact absurd none (List.cons_ne_nil _ _)
  · exact sole_of_tokens closed rest sorted

theorem Sole.ahead_ne_nil (h : s.Sole T) (closed : T.Closed) (notEof : s.current.kind ≠ .eof) : s.ahead ≠ [] := by
  intro nothing
  obtain ⟨r, tokens⟩ := h.tokens closed
  rw [ParseState.tokens, nothing, ← List.nil_append [s.current]] at tokens
  obtain ⟨_, current⟩ := List.append_inj' tokens rfl
  exact notEof ((List.cons.inj current).1 ▸ closed.eof)

end ParseState

theorem InStep.sole {T : Tails} {line : Bool} {n : Nat} {s : ParseState} (h : InStep T line n s s) (closed : T.Closed) :
    s.Sole T := by
  obtain ⟨r, _, _, _, left, _⟩ := h.common
  exact ParseState.sole_of_tokens closed (by rw [left, Tail.tokens, (T.left.last closed.eof).1]) h.sorted

namespace OneRun

variable {α β : Type} [HasHoles α] [HasHoles β] {K : Facts} {s : ParseState}

/-- A run that reads tokens and reports nothing. -/
theorem quiet {x : α × ParseState} (quiet : Quiet s x.2) (whole : K.whole → HasHoles.whole x.1) : OneRun K s x x :=
  ⟨rfl, .quiet quiet, fun known _ => whole known⟩

theorem trans {x x' : α × ParseState} {y y' : β × ParseState} (first : OneRun K s x x')
    (second : OneRun (K.learn x.1 x'.1) x.2 y y') (clean : y.2.failed = false → x.2.failed = false) : OneRun K s y y' :=
  ⟨second.same, first.own.trans second.own, fun known clear =>
    second.whole ⟨known, first.whole known (clean clear)⟩ clear⟩

/-- A run inside another one, which reports nothing before and behind it. -/
theorem framed {s₁ t t' : ParseState} {x x' : α × ParseState} (h : OneRun K s₁ x x') (before : Quiet s s₁)
    (after : Quiet x.2 t) (same : (x.1, t) = (x'.1, t')) : OneRun K s (x.1, t) (x'.1, t') :=
  ⟨same, ((Reports.quiet before).trans h.own).trans (.quiet after), fun known clean =>
    h.whole known (after.failed ▸ clean)⟩

end OneRun

namespace PairOutcome

variable {α β γ : Type} [HasHoles α] [HasHoles β] {T : Tails} {K L : Facts} {line : Bool} {i n : Nat}
  {must must' : α → ParseState → Prop} {e : α → γ} {s s' : ParseState} {x x' : α × ParseState}

theorem mono (h : PairOutcome T K line i must e s s' x x') (le : i ≤ n) : PairOutcome T K line n must e s s' x x' := by
  cases h with
  | passed passed => exact .passed passed
  | stuck unlike stuck => exact .stuck unlike stuck
  | inStep l le' step same read one =>
    exact .inStep l (Nat.le_trans le' le) step same (fun h => Nat.lt_of_lt_of_le (read h) le) one

/-- Once a token has been read, any result may follow. -/
theorem read {line' : Bool} (h : PairOutcome T K line' i must e s s' x x') (lt : i < n)
    (up : line = true → line' = true) : PairOutcome T K line n must' e s s' x x' := by
  cases h with
  | passed passed => exact .passed passed
  | stuck unlike stuck => exact .stuck unlike stuck
  | inStep l le step same _ one =>
    exact .inStep l (Nat.le_trans le (Nat.le_of_lt lt)) (step.weaken up) same (fun _ => Nat.lt_of_le_of_lt le lt) one

/-- What is told of one run may be told from another start. -/
theorem telling {s₁ s₁' : ParseState} (h : PairOutcome T L line n must e s₁ s₁' x x')
    (one : (L.same → Alone T s₁ s₁' → OneRun L s₁ x x') → K.same → Alone T s s' → OneRun K s x x') :
    PairOutcome T K line n must e s s' x x' := by
  cases h with
  | passed passed => exact .passed passed
  | stuck unlike stuck => exact .stuck unlike stuck
  | inStep l le step same read told => exact .inStep l le step same read (one told)

/-- Where nothing is told of one run, it does not matter where it starts. -/
theorem silent {t t' : ParseState} (h : PairOutcome T .nothing line n must e s s' x x') :
    PairOutcome T .nothing line n must e t t' x x' := h.telling fun _ => False.elim

/-- Where more is known. -/
theorem weaken [ext : L.Extends K] (h : PairOutcome T K line n must e s s' x x') : PairOutcome T L line n must e s s' x x' :=
  h.telling fun told known alone =>
    have run := told (ext.same known) alone
    ⟨run.same, run.own, fun whole => run.whole (ext.whole whole)⟩

/-- A run goes on with the value of another one. -/
theorem after {y y' : β × ParseState} (h : PairOutcome T (K.learn y.1 y'.1) line n must e y.2 y'.2 x x')
    (first : K.same → Alone T s s' → OneRun K s y y') (clean : x.2.failed = false → y.2.failed = false) :
    PairOutcome T K line n must e s s' x x' :=
  h.telling fun told known alone =>
    have run := first known alone
    run.trans (told ⟨known, congrArg Prod.fst run.same⟩ ⟨congrArg Prod.snd run.same, alone.closed⟩) clean

/-- A run goes on without a report from where another one starts. -/
theorem quietly {s₁ s₁' : ParseState} (h : PairOutcome T K line n must e s₁ s₁' x x') (same : s = s' → s₁ = s₁')
    (quiet : Quiet s s₁) : PairOutcome T K line n must e s s' x x' :=
  h.telling fun told known alone =>
    have run := told known ⟨same alone.same, alone.closed⟩
    ⟨run.same, (Reports.quiet quiet).trans run.own, run.whole⟩

theorem advanced (h : PairOutcome T K line n must e s.advance s'.advance x x') :
    PairOutcome T K line n must e s s' x x' := h.quietly (congrArg ParseState.advance) (quiet_advance s)

/-- A run goes on with what it has looked up. -/
theorem seen [Solid β] {f f' : ParseState → β} (value : K.same → f = f')
    (h : PairOutcome T (K.learn (f s) (f' s')) line n must e s s' x x') : PairOutcome T K line n must e s s' x x' :=
  h.telling fun told known alone =>
    have run := told ⟨known, congr (value known) alone.same⟩ alone
    ⟨run.same, run.own, fun whole => run.whole ⟨whole, Solid.whole _⟩⟩

end PairOutcome

/-- Tokens are read one after the other, and nothing else happens to them and to the end of the last one. -/
inductive ParseState.Onward : ParseState → ParseState → Prop
  | stay {s s' : ParseState} : s'.tokens = s.tokens → s'.lastStop = s.lastStop → Onward s s'
  | read (s : ParseState) : Onward s s.advance
  | trans {s s' s'' : ParseState} : Onward s s' → Onward s' s'' → Onward s s''

/-- What else a run changes before and after does not matter. -/
theorem ParseState.Onward.between {s s₁ s₂ s' : ParseState} (h : s₁.Onward s₂)
    (before : s₁.tokens = s.tokens ∧ s₁.lastStop = s.lastStop) (after : s'.tokens = s₂.tokens ∧ s'.lastStop = s₂.lastStop) :
    s.Onward s' := .trans (.stay before.1 before.2) (.trans h (.stay after.1 after.2))

namespace Parse

variable {α β γ δ : Type}

/-! ### One run -/

/-- What every production keeps: tokens are only read from the front, the depth comes back to what it was, a fault
of the statement is not forgotten, no production leaves the body of an inline function open, and the end of the last
token that was read is taken from nowhere but the tokens. -/
structure Tame (m : Parse α) : Prop where
  suffix : ∀ s, (m s).2.tokens <:+ s.tokens
  depth : ∀ s, (m s).2.depth = s.depth
  failed : ∀ s, s.failed = true → (m s).2.failed = true
  inline : ∀ s, s.inlineFunction = false → (m s).2.inlineFunction = false
  onward : ∀ s : ParseState, s.Onward (m s).2

namespace Tame

/-- Parsers that only look. -/
theorem look (f : ParseState → α) : Tame (fun s => (f s, s) : Parse α) :=
  ⟨fun _ => List.suffix_rfl, fun _ => rfl, fun _ h => h, fun _ h => h, fun _ => .stay rfl rfl⟩

protected theorem pure (a : α) : Tame (pure a : Parse α) := look fun _ => a

protected theorem bind {x : Parse α} {f : α → Parse β} (hx : Tame x) (hf : ∀ a, Tame (f a)) : Tame (x >>= f) where
  suffix s := ((hf (x s).1).suffix (x s).2).trans (hx.suffix s)
  depth s := ((hf (x s).1).depth (x s).2).trans (hx.depth s)
  failed s h := (hf (x s).1).failed (x s).2 (hx.failed s h)
  inline s h := (hf (x s).1).inline (x s).2 (hx.inline s h)
  onward s := (hx.onward s).trans ((hf (x s).1).onward (x s).2)

/-- A run that reports nothing goes on from a state without a report. -/
theorem clean {m : Parse α} (tame : Tame m) {s : ParseState} (clean : (m s).2.failed = false) : s.failed = false := by
  cases failed : s.failed with
  | false => rfl
  | true => exact absurd (clean.symm.trans (tame.failed s failed)) Bool.false_ne_true

end Tame

end Parse

/-! ### After the runs have parted -/

section Parted

variable {α γ : Type} {T : Tails} {K : Facts} {line : Bool} {n : Nat} {s s' t t' : ParseState} {x x' : Parse α}
  {must : α → ParseState → Prop} {e : α → γ}

theorem Tail.Passed.run {t : Tail} (h : t.Passed s) (tame : x.Tame) : t.Passed (x s).2 :=
  Nat.lt_of_le_of_lt (tame.suffix s).length_le h

theorem Tails.Passed.run (h : T.Passed s s') (left : x.Tame) (right : x'.Tame) : T.Passed (x s).2 (x' s').2 :=
  ⟨h.1.imp (·.run left) (·.run right), fun alike => (h.2 alike).imp (·.run left) (·.run right)⟩

/-- A run that stands at its tail stays there or reads into it. -/
theorem Tail.stays {t : Tail} (h : s.tokens = t.tokens) (tame : x.Tame) :
    (x s).2.tokens = t.tokens ∨ t.Passed (x s).2 := by
  have suffix := h ▸ tame.suffix s
  rcases Nat.lt_or_eq_of_le suffix.length_le with passed | same
  · exact .inr passed
  · exact .inl (suffix.eq_of_length same)

/-- With a fault at the tails, nothing that is read later brings the runs in step again. -/
theorem Stuck.run [HasHoles α] (parted : ¬T.Alike) (h : Stuck T s s') (left : x.Tame) (right : x'.Tame) :
    PairOutcome T K line n must e t t' (x s) (x' s') := by
  rcases Tail.stays h.left left with tokens | passed
  · rcases Tail.stays h.right right with tokens' | passed'
    · exact .stuck parted ⟨tokens, tokens', left.failed s h.failed, right.failed s' h.failed'⟩
    · exact .passed (.of_unlike parted (.inr passed'))
  · exact .passed (.of_unlike parted (.inl passed))

end Parted

namespace Parse

/-! ### Two runs -/

/-- No result needs a token to be read. -/
def Never {α : Type} : α → ParseState → Prop := fun _ _ => False

/-- Runs may start anywhere. -/
def Anywhere : Nat → ParseState → Prop := fun _ _ => True

/-- Runs start where so many common tokens are left. -/
def Before (least : Nat) : Nat → ParseState → Prop := fun n _ => least ≤ n

/-- Runs start at a token of the kind. -/
def At (kind : TokenKind) : Nat → ParseState → Prop := fun _ s => s.current.kind = kind

/-- Two parsers do the same on common tokens, of which fewer than `k` are left. They start where `P` holds, with `K`
known; results for which `must` holds come only with a token read, and values are compared by `e`. -/
structure Lockstep {α γ : Type} [HasHoles α] (T : Tails) (K : Facts) (line : Bool) (k : Nat)
    (P : Nat → ParseState → Prop) (must : α → ParseState → Prop) (e : α → γ) (m m' : Parse α) : Prop where
  left : Tame m
  right : Tame m'
  sim : ∀ {n : Nat} {s s' : ParseState}, n < k → InStep T line n s s' → P n s →
    PairOutcome T K line n must e s s' (m s) (m' s')

/-- The same of parsers whose results may all come without a token read. -/
abbrev Lax {α γ : Type} [HasHoles α] (T : Tails) (K : Facts) (line : Bool) (k : Nat) (P : Nat → ParseState → Prop)
    (e : α → γ) (m m' : Parse α) : Prop := Lockstep T K line k P Never e m m'

/-- Whatever values that agree in `e` are found, what follows is read in lockstep. -/
abbrev Lockstep.Follows {α β γ δ : Type} [HasHoles α] [HasHoles β] (T : Tails) (K : Facts) (line : Bool) (k : Nat)
    (must : α → ParseState → Prop) (e : β → δ) (e₂ : α → γ) (f f' : β → Parse α) : Prop :=
  ∀ a a', e a = e a' → Lockstep T (K.learn a a') line k Anywhere must e₂ (f a) (f' a')

namespace Lockstep

variable {α β γ δ : Type} [HasHoles α] [HasHoles β] {T : Tails} {K L : Facts} {line : Bool} {k j : Nat}
  {P Q : Nat → ParseState → Prop} {must : α → ParseState → Prop} {e : α → γ} {m m' : Parse α}

theorem mono (h : Lockstep T K line k P must e m m') (le : j ≤ k) : Lockstep T K line j P must e m m' :=
  ⟨h.left, h.right, fun lt => h.sim (Nat.lt_of_lt_of_le lt le)⟩

theorem starting (h : Lockstep T K line k Q must e m m') (imp : ∀ n s, P n s → Q n s) :
    Lockstep T K line k P must e m m' := ⟨h.left, h.right, fun lt step p => h.sim lt step (imp _ _ p)⟩

/-- Where more is known. -/
theorem weaken [L.Extends K] (h : Lockstep T K line k P must e m m') : Lockstep T L line k P must e m m' where
  left := h.left
  right := h.right
  sim lt step p := (h.sim lt step p).weaken

/-- What is known of the states where the runs start. -/
theorem knowing (p : Prop) (imp : ∀ n s, P n s → p) (h : Lockstep T (K.given p) line k P must e m m') :
    Lockstep T K line k P must e m m' where
  left := h.left
  right := h.right
  sim lt step start :=
    have : Given K p := ⟨fun _ => imp _ _ start⟩
    (h.sim lt step start).weaken

/-- There has been a fault. -/
theorem refuted (p : Prop) [condition : Given K p] (not : ¬p) (h : Lockstep T K.faulty line k P must e m m') :
    Lockstep T K line k P must e m m' :=
  have : K.Extends K.faulty := ⟨id, fun known => not (condition.holds known)⟩
  h.weaken

/-- What is told of one run may be shown apart from the rest. -/
theorem alone (h : Lockstep T .nothing line k P must e m m')
    (one : ∀ {n s}, n < k → InStep T line n s s → T.Closed → P n s → K.same →
      OneRun K s (m s) (m' s)) : Lockstep T K line k P must e m m' where
  left := h.left
  right := h.right
  sim {n s s'} lt step p := (h.sim lt step p).telling fun _ known alone => by
    obtain ⟨rfl, closed⟩ := alone
    exact one lt step closed p known

theorem lax (h : Lockstep T K line k P must e m m') : Lax T K line k P e m m' where
  left := h.left
  right := h.right
  sim lt step p := by
    cases h.sim lt step p with
    | passed passed => exact .passed passed
    | stuck unlike stuck => exact .stuck unlike stuck
    | inStep i le step same _ one => exact .inStep i le step same False.elim one

/-- Where no common token is left, nothing is claimed of the two runs together. -/
theorem of_tame (left : Tame m) (right : Tame m') : Lockstep T K line 0 P must e m m' :=
  ⟨left, right, fun lt => absurd lt (Nat.not_lt_zero _)⟩

/-- A value for which no token has to be read. -/
theorem pureFree {a a' : α} [value : Same K a a'] [filled : Whole K a] (same : e a = e a') (free : ∀ s, ¬must a s) :
    Lockstep T K line k P must e (pure a) (pure a') where
  left := .pure a
  right := .pure a'
  sim {_ s _} _ step _ := .inStep _ (Nat.le_refl _) step same (fun h => absurd h (free _)) fun known alone =>
    ⟨Prod.ext (value.eq known) alone.same, .quiet (quiet_refl s), fun whole _ => filled.holds whole⟩

protected theorem pure {a a' : α} [Same K a a'] [Whole K a] (same : e a = e a') :
    Lax T K line k P e (pure a) (pure a') := pureFree same fun _ => id

variable {must₂ : β → ParseState → Prop} {e₂ : β → δ} {f f' : α → Parse β}

/-- What follows a parser has to be in lockstep only where the parser has left the runs in step. -/
theorem bindWith (first : Lockstep T K line k P must e m m') (left : ∀ a, Tame (f a)) (right : ∀ a, Tame (f' a))
    (second : ∀ {n i a a' s s'}, n < k → i ≤ n → InStep T line i s s' → e a = e a' → (must a s → i < n) →
      PairOutcome T (K.learn a a') line n must₂ e₂ s s' (f a s) (f' a' s')) :
    Lockstep T K line k P must₂ e₂ (m >>= f) (m' >>= f') where
  left := first.left.bind left
  right := first.right.bind right
  sim {n s s'} lt step p := by
    show PairOutcome T K line n must₂ e₂ s s' (f (m s).1 (m s).2) (f' (m' s').1 (m' s').2)
    cases first.sim lt step p with
    | passed passed => exact .passed (passed.run (left _) (right _))
    | stuck unlike stuck => exact stuck.run unlike (left _) (right _)
    | inStep i le step same read one => exact (second lt le step same read).after one (left _).clean

protected theorem bind (first : Lax T K line k P e m m')
    (second : Follows T K line k must₂ e e₂ f f') : Lockstep T K line k P must₂ e₂ (m >>= f) (m' >>= f') :=
  first.bindWith (fun a => (second a a rfl).left) (fun a => (second a a rfl).right) fun lt le step same _ =>
    ((second _ _ same).sim (Nat.lt_of_le_of_lt le lt) step trivial).mono le

theorem bindEq (first : Lax T K line k P id m m')
    (second : ∀ a, Lockstep T K line k Anywhere must₂ e₂ (f a) (f' a)) :
    Lockstep T K line k P must₂ e₂ (m >>= f) (m' >>= f') :=
  first.bind fun a a' same => by
    obtain rfl : a = a' := same
    exact (second a).weaken

/-- A parser whose value is of no use. -/
theorem andThen {f f' : Unit → Parse β} {m m' : Parse Unit} (first : Lax T K line k P (fun _ => ()) m m')
    (second : Lockstep T K line k Anywhere must₂ e₂ (f ()) (f' ())) :
    Lockstep T K line k P must₂ e₂ (m >>= f) (m' >>= f') := first.bind fun _ _ _ => second.weaken

/-- Something holds of all values of a parser. -/
theorem bindGiven (Q : α → Prop) (always : ∀ s, Q (m s).1) (first : Lax T K line k P e m m')
    (second : ∀ a a', e a = e a' → Lockstep T ((K.learn a a').given (Q a)) line k Anywhere must₂ e₂ (f a) (f' a')) :
    Lockstep T K line k P must₂ e₂ (m >>= f) (m' >>= f') where
  left := first.left.bind fun a => (second a a rfl).left
  right := first.right.bind fun a => (second a a rfl).right
  sim {n s s'} lt step p := by
    have : Given (K.learn (m s).1 (m' s').1) (Q (m s).1) := ⟨fun _ => always s⟩
    have left := (second (m s).1 _ rfl).left
    show PairOutcome T K line n must₂ e₂ s s' (f (m s).1 (m s).2) (f' (m' s').1 (m' s').2)
    cases first.sim lt step p with
    | passed passed => exact .passed (passed.run left (second _ _ rfl).right)
    | stuck unlike stuck => exact stuck.run unlike left (second _ _ rfl).right
    | inStep i le step same _ one =>
      exact (((second _ _ same).sim (Nat.lt_of_le_of_lt le lt) step trivial).mono le).weaken.after one left.clean

/-- What was to follow goes on from where more is known. -/
theorem resume [L.Extends K] {a a' : α} [Same L a a'] [Whole L a]
    (rest : ∀ a a', e a = e a' → Lockstep T (K.learn a a') line k P must₂ e₂ (f a) (f' a')) (same : e a = e a') :
    Lockstep T L line k P must₂ e₂ (pure a >>= f) (pure a' >>= f') := (rest a a' same).weaken

/-- Once a token has been read there is one common token less, and any result may follow. -/
theorem readBind (le : k ≤ j + 1) (first : Lockstep T K line k P (fun _ _ => True) e m m')
    (second : Follows T K line j Never e e₂ f f') : Lockstep T K line k P must₂ e₂ (m >>= f) (m' >>= f') :=
  first.bindWith (fun a => (second a a rfl).left) (fun a => (second a a rfl).right) fun lt _ step same read =>
    ((second _ _ same).sim (by have := read trivial; omega) step trivial).read (read trivial) id

/-- A parser that reads a token whenever its value is of use. -/
theorem bindIf (w : α → Bool) (le : k ≤ j + 1) (first : Lockstep T K line k P (fun a _ => w a = true) e m m')
    (useful : ∀ a a', e a = e a' → w a = true → Lax T (K.learn a a') line j Anywhere e₂ (f a) (f' a'))
    (useless : ∀ a a', e a = e a' → w a = false →
      Lockstep T (K.learn a a') line k Anywhere must₂ e₂ (f a) (f' a')) :
    Lockstep T K line k P must₂ e₂ (m >>= f) (m' >>= f') := by
  have tame : ∀ a, Tame (f a) ∧ Tame (f' a) := by
    intro a
    cases use : w a with
    | true => exact ⟨(useful a a rfl use).left, (useful a a rfl use).right⟩
    | false => exact ⟨(useless a a rfl use).left, (useless a a rfl use).right⟩
  refine first.bindWith (fun a => (tame a).1) (fun a => (tame a).2) fun {n i a a' s s'} lt le step same read => ?_
  cases use : w a with
  | true => exact ((useful a a' same use).sim (by have := read use; omega) step trivial).read (read use) id
  | false => exact ((useless a a' same use).sim (Nat.lt_of_le_of_lt le lt) step trivial).mono le

end Lockstep

end Parse

end ColumnFlow
