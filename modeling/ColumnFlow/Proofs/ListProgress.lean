import ColumnFlow.Proofs.BatchIsolation

/-!
# Statement lists of a text

What is known of the rounds of a list, for the lists met while a text is read. The tokens of a text are in the order of
their places, so that a round that reads a token leaves the list further on in the text, and a fault is placed no
earlier than the round it was met in.
-/

namespace ColumnFlow

open Parse

variable {source : String} {s : ParseState}

namespace ParseState

/-- The tokens are those of a text up to its end, in the order of their places. -/
def Ended (s : ParseState) : Prop := ∃ T : Tails, T.Closed ∧ s.Sole T

/-- The tokens of a text end with the mark of its end. -/
theorem ended_ofText (source : String) : (ParseState.ofText source).Ended := by
  obtain ⟨front, after, whole⟩ := Lexer.place_last {} (pieces source.toList)
  have closed : Tails.Closed ⟨.ofEnd (Lexer.endToken after) rfl rfl rfl, .ofEnd (Lexer.endToken after) rfl rfl rfl⟩ :=
    ⟨rfl, rfl⟩
  refine ⟨_, closed, sole_of_tokens closed (r := front) ?_ ?_⟩
  · rw [tokens_ofText, tokenize, whole]
    rfl
  · rw [tokens_ofText]
    exact tokenize_sorted source

theorem cutOff_ofText (source : String) : (ParseState.ofText source).cutOff = false := by
  unfold ofText ofTokens
  split <;> rfl

variable (inside : s.tokens <:+ tokenize source)

include inside

theorem ended_of_inside : s.Ended := by
  obtain ⟨T, closed, sole⟩ := ended_ofText source
  exact ⟨T, closed, sole.suffix closed (by rwa [tokens_ofText])⟩

theorem sorted_of_inside : s.tokens.Pairwise fun t u => t.start.offset < u.start.offset :=
  (tokenize_sorted source).sublist inside.sublist

end ParseState

namespace Parse

/-- A list whose tokens are those of a text ends of itself, and its rounds are known, however deep the grammar is. -/
theorem stmtList_inside {depth : Nat} (inside : s.tokens <:+ tokenize source) (deep : s.ahead.length < depth)
    (stop : TokenKind → Bool) :
    stmtList (.ofDepth depth) stop s = stmtList .full stop s ∧
      ∃ items, Rounds Round stop s items (stmtList (.ofDepth depth) stop s).2 ∧
        (stmtList (.ofDepth depth) stop s).1 = items.filterMap id := by
  obtain ⟨T, closed, sole⟩ := ParseState.ended_of_inside inside
  obtain ⟨same, items, rounds, kept⟩ := stmtList_rounds (Grammar.Deep.ofDepth depth).full trivial closed stop sole deep
  rw [same]
  exact ⟨rfl, items, rounds, kept⟩

section Batches

variable {g : Grammar} {k : Nat}

theorem batches_failed (g : Grammar) (s : ParseState) : (batches g s).2.failed = s.failed := by
  have rounds : ∀ i s, (batches.go g i s).2.failed = s.failed := by
    intro i
    induction i with
    | zero => exact fun _ => rfl
    | succ i ih =>
      intro s
      rw [batches_go_succ]
      dsimp only
      split
      · rw [ih, ParseState.failed_advance, batch_failed]
      · exact batch_failed g s
  exact rounds _ s

/-- A batch ends at a separator or at the end of the text. -/
theorem batch_run {T : Tails} (lock : GrammarLock T k g .full .one) (closed : T.Closed) (sole : s.Sole T)
    (lt : s.ahead.length < k) :
    batch g s = batch .full s ∧ (batch .full s).2.tokens <:+ s.tokens ∧ (batch .full s).2.cutOff = s.cutOff ∧
      (batch .full s).2.current.kind.endsBatch = true ∧ ∀ stmt ∈ (batch .full s).1.stmts, stmt.Complete := by
  have run (g : Grammar) : batch g s = ((⟨⟨s.current.start, (moduleBody g s).2.lastStop⟩, (moduleBody g s).1⟩ : Batch),
    (moduleBody g s).2) := rfl
  obtain ⟨same, items, rounds, kept⟩ := stmtList_rounds lock trivial closed (fun _ => false) sole lt
  have stops := rounds.stops
  rw [Continues, Bool.or_false, Bool.not_eq_false] at stops
  refine ⟨?_, rounds.suffix Round.suffix, rounds.cutOff Round.cutOff, stops, ?_⟩
  · rw [run g, run .full, moduleBody, moduleBody, same]
  · rw [run .full, moduleBody, kept]
    exact rounds.complete Round.complete

/-- What is known of a run that reads batches: it does what the full grammar does, ends with the text, no loop is cut
off, and none of its statements has a hole. -/
structure ReadThrough (s : ParseState) (x x' : List Batch × ParseState) : Prop where
  same : x = x'
  ends : x'.2.current.kind = .eof
  cutOff : x'.2.cutOff = s.cutOff
  complete : ∀ b ∈ x'.1, ∀ stmt ∈ b.stmts, stmt.Complete

/-- The batches of a text, by induction on the bound: each is read up to a separator, and the last one up to the end. -/
theorem batches_go_run {T : Tails} (lock : GrammarLock T k g .full .one) (closed : T.Closed) (i : Nat) :
    ∀ {s : ParseState}, s.Sole T → s.ahead.length < k → s.ahead.length < i →
      ReadThrough s (batches.go g i s) (batches.go .full i s) := by
  induction i with
  | zero => exact fun _ _ lt => absurd lt (Nat.not_lt_zero _)
  | succ i ih =>
    intro s sole lt fuel
    obtain ⟨same, suffix, cutOff, ends, complete⟩ := batch_run lock closed sole lt
    have rest : ReadThrough s
        (if (batch .full s).2.current.kind = .separator then batches.go g i (batch .full s).2.advance
          else ([], (batch .full s).2))
        (if (batch .full s).2.current.kind = .separator then batches.go .full i (batch .full s).2.advance
          else ([], (batch .full s).2)) := by
      rcases (TokenKind.endsBatch_iff _).mp ends with eof | separator
      · rw [if_neg (by simp [eof]), if_neg (by simp [eof])]
        exact ⟨rfl, eof, cutOff, List.forall_mem_nil _⟩
      · have after := sole.suffix closed suffix
        have le := ParseState.ahead_length_le suffix
        have read := ParseState.ahead_length_advance (after.ahead_ne_nil closed (by simp [separator]))
        rw [if_pos separator, if_pos separator]
        have rest := ih (after.suffix closed (ParseState.tokens_advance_suffix _)) (by omega) (by omega)
        exact { rest with cutOff := rest.cutOff.trans ((ParseState.cutOff_advance _).trans cutOff) }
    rw [batches_go_succ, batches_go_succ, same]
    dsimp only
    refine ⟨by rw [rest.same], rest.ends, rest.cutOff, ?_⟩
    split
    · exact rest.complete
    · exact List.forall_mem_cons.mpr ⟨complete, rest.complete⟩

theorem batches_run (deep : g.Deep k) (ended : s.Ended) (lt : s.ahead.length < k) :
    ReadThrough s (batches g s) (batches .full s) := by
  obtain ⟨T, closed, sole⟩ := ended
  exact batches_go_run deep.full closed _ sole lt (Nat.lt_succ_self _)

/-- What a grammar reads of a text does not depend on how deep it is, beyond the number of tokens. -/
theorem script_full (deep : g.Deep k) (enough : (tokenize source).length ≤ k) :
    script g source (.ofText source) = script .full source (.ofText source) := by
  have run (g : Grammar) (s : ParseState) : script g source s = ((⟨⟨s.current.start, (batches g s).2.current.stop⟩, source,
    (batches g s).1⟩ : Script), (batches g s).2) := rfl
  rw [← ParseState.tokens_ofText] at enough
  rw [run, run, (batches_run deep (ParseState.ended_ofText source) enough).same]

end Batches

theorem script_ofDepth {depth : Nat} (deep : (tokenize source).length ≤ depth) :
    script (.ofDepth depth) source (.ofText source) = script .full source (.ofText source) :=
  script_full (.ofDepth depth) deep

/-- A text is read to its end. No bound is felt, neither on the depth of recursion nor on the rounds of a loop, and in
every statement list each round begins further on in the text than the one before it. -/
theorem script_progress (source : String) :
    (∀ depth, (tokenize source).length ≤ depth →
      script (.ofDepth depth) source (.ofText source) = script (.ofText source) source (.ofText source) ∧
        (script (.ofDepth depth) source (.ofText source)).2.current.kind = .eof ∧
        (script (.ofDepth depth) source (.ofText source)).2.cutOff = false) ∧
      ∀ (s : ParseState) (depth : Nat) (stop : TokenKind → Bool), s.tokens <:+ tokenize source → s.ahead.length < depth →
        (stmtList (.ofDepth depth) stop s).2.cutOff = s.cutOff ∧
        ∃ items, (stmtList (.ofDepth depth) stop s).1 = items.filterMap id ∧
          Rounds (fun s x => s.current.start.offset < x.2.current.start.offset) stop s items
            (stmtList (.ofDepth depth) stop s).2 := by
  refine ⟨fun depth deep => ?_, fun s depth stop inside deep => ?_⟩
  · rw [script_ofDepth deep, Grammar.ofText, script_ofDepth (Nat.le_add_right _ 2)]
    have run := batches_run (.ofDepth _) (ParseState.ended_ofText source) (Nat.lt_succ_self _)
    exact ⟨rfl, run.ends, run.cutOff.trans (ParseState.cutOff_ofText source)⟩
  · obtain ⟨_, items, rounds, kept⟩ := stmtList_inside inside deep stop
    refine ⟨rounds.cutOff Round.cutOff, items, kept, rounds.imp inside fun inside _ round => ⟨round.suffix, ?_⟩⟩
    exact ParseState.offset_lt (ParseState.sorted_of_inside inside) round.suffix (Nat.succ_lt_succ round.read)

/-- A text with unbalanced parentheses and a list inside that nothing closes. -/
theorem script_progress_unbalanced :
    let source := "SELECT (1; BEGIN SELECT 2; UPDATE )"
    let list := stmtList (.ofDepth 20) (fun _ => false) (.ofText source)
    (ParseState.ofText source).tokens <:+ tokenize source ∧ (ParseState.ofText source).ahead.length < 20 ∧
      (tokenize source).length ≤ 20 ∧ (script (.ofDepth 20) source (.ofText source)).2.current.kind = .eof ∧
      (script (.ofDepth 20) source (.ofText source)).2.cutOff = false ∧
      list.2.cutOff = (ParseState.ofText source).cutOff ∧ ∃ items, list.1 = items.filterMap id ∧
        Rounds (fun s x => s.current.start.offset < x.2.current.start.offset)
          (fun _ => false) (.ofText source) items list.2 := by
  intro source list
  have inside : (ParseState.ofText source).tokens <:+ tokenize source := ParseState.tokens_ofText source ▸ List.suffix_rfl
  have deep : (ParseState.ofText source).ahead.length < 20 := by decide +kernel
  have enough : (tokenize source).length ≤ 20 := by decide +kernel
  obtain ⟨whole, lists⟩ := script_progress source
  obtain ⟨-, ends, cutOff⟩ := whole 20 enough
  exact ⟨inside, deep, enough, ends, cutOff, lists (.ofText source) 20 (fun _ => false) inside deep⟩

end Parse

end ColumnFlow
