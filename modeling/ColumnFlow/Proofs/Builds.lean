import ColumnFlow.Proofs.BatchIsolation
import ColumnFlow.Proofs.SpanTrees
import ColumnFlow.Proofs.TokenTiling

/-!
# Spans of what the parser builds

A node is given its span when it is complete: from the position at which its production started to the end of the last
token that was read. What a production has read so far therefore lies between these two, and stays there while more is
read. `Builds` states of a production which spans it is known to have built, given that its run reports nothing, and is
closed under the ways in which productions are put together. How tokens are read is known of every production
(`Parse.Tame`), so nothing needs to be shown of those that build no node.
-/

namespace ColumnFlow

open Text (Position Span)

/-! ### Tokens of a text -/

/-- A token of the text starts here. -/
def StartsToken (source : String) (p : Position) : Prop := ∃ t ∈ tokenize source, t.start = p

/-- A token of the text ends here. -/
def EndsToken (source : String) (p : Position) : Prop := ∃ t ∈ tokenize source, t.stop = p

section Tokens

variable {source : String} {t u : Token} {rest : List Token}

/-- The last token takes no room. -/
theorem stop_of_last (last : [t] <:+ tokenize source) : t.kind = .eof ∧ t.stop = t.start := by
  obtain ⟨tokens, after, all⟩ := Lexer.place_last {} (pieces source.toList)
  obtain ⟨front, split⟩ := last
  obtain rfl : t = Lexer.endToken after := by
    have := congrArg List.getLast? (split.trans all)
    simpa using this
  exact ⟨rfl, rfl⟩

theorem start_le_stop (mem : t ∈ tokenize source) : t.start.offset ≤ t.stop.offset := by
  obtain ⟨front, eof, all, others, _⟩ := (tokenize_tiling source).last
  rw [all] at mem
  rcases List.mem_append.mp mem with mem | mem
  · exact Nat.le_of_lt ((tokenize_tiling source).extent t (all ▸ List.mem_append_left _ mem) (others t mem)).1
  · obtain rfl := List.mem_singleton.mp mem
    exact Nat.le_of_eq (congrArg Position.offset (stop_of_last ⟨front, all.symm⟩).2.symm)

theorem stop_le_size (mem : t ∈ tokenize source) : t.stop.offset ≤ source.utf8ByteSize := by
  obtain ⟨front, eof, all, others, _, size⟩ := (tokenize_tiling source).last
  have whole : byteLength source.toList = source.utf8ByteSize := by rw [byteLength, String.ofList_toList]
  rw [all] at mem
  rcases List.mem_append.mp mem with mem | mem
  · exact ((tokenize_tiling source).extent t (all ▸ List.mem_append_left _ mem) (others t mem)).2
  · obtain rfl := List.mem_singleton.mp mem
    rw [(stop_of_last ⟨front, all.symm⟩).2, size, ← whole]
    have split := List.takeWhile_append_dropWhile (p := (· != Piece.nul)) (l := source.toList)
    have parts :=
      byteLength_append (source.toList.takeWhile (· != Piece.nul)) (source.toList.dropWhile (· != Piece.nul))
    rw [split] at parts
    omega

theorem stop_le_start (next : t :: u :: rest <:+ tokenize source) : t.stop.offset ≤ u.start.offset := by
  obtain ⟨front, all⟩ := next
  exact (tokenize_tiling source).ordered front t u rest all.symm

end Tokens

/-! ### Runs over a text -/

/-- The tokens still to be read are the last ones of the text, and all that was read stands in front of them. -/
structure Settled (source : String) (s : ParseState) : Prop where
  rest : s.tokens <:+ tokenize source
  behind : s.lastStop.offset ≤ s.current.start.offset

/-- A node is being read that starts here. -/
structure Begun (source : String) (start : Position) (s : ParseState) : Prop extends Settled source s where
  starts : StartsToken source start
  le : start.offset ≤ s.current.start.offset

/-- How far a run has come. -/
structure Reached (source : String) (s s' : ParseState) : Prop where
  settled : Settled source s'
  stop_le : s.lastStop.offset ≤ s'.lastStop.offset
  stop : s'.lastStop = s.lastStop ∨ EndsToken source s'.lastStop
  start_le : s.current.start.offset ≤ s'.current.start.offset

namespace Settled

variable {source : String} {s s' : ParseState}

theorem mem_current (h : Settled source s) : s.current ∈ tokenize source := h.rest.subset List.mem_cons_self

/-- The next token starts where the last one stopped, or later. -/
theorem advance (h : Settled source s) : Reached source s s.advance := by
  have extent := start_le_stop h.mem_current
  have stop : EndsToken source s.current.stop := ⟨s.current, h.mem_current, rfl⟩
  have behind := h.behind
  cases ahead : s.ahead with
  | nil =>
    have last : [s.current] <:+ tokenize source := by simpa [ParseState.tokens, ahead] using h.rest
    have flat : s.current.stop.offset = s.current.start.offset := congrArg Position.offset (stop_of_last last).2
    have same : s.advance = { s with lastStop := s.current.stop } := by simp [ParseState.advance, ahead]
    rw [same]
    exact ⟨⟨h.rest, Nat.le_of_eq flat⟩, Nat.le_trans behind extent, .inr stop, Nat.le_refl _⟩
  | cons t rest =>
    have pair : s.current :: t :: rest <:+ tokenize source := by simpa [ParseState.tokens, ahead] using h.rest
    have next := stop_le_start pair
    rw [ParseState.advance_of_ahead_cons ahead]
    exact ⟨⟨(List.suffix_cons _ _).trans pair, next⟩, Nat.le_trans behind extent, .inr stop, Nat.le_trans extent next⟩

/-- By induction on the moves of the parser. -/
theorem onward (h : Settled source s) (moves : s.Onward s') : Reached source s s' := by
  induction moves with
  | @stay s s' tokens stop =>
    have current : s'.current = s.current := (List.cons.inj tokens).1
    refine ⟨⟨tokens ▸ h.rest, ?_⟩, Nat.le_of_eq (congrArg _ stop.symm), .inl stop, ?_⟩
    · rw [stop, current]
      exact h.behind
    · exact Nat.le_of_eq (congrArg (·.start.offset) current.symm)
  | read s => exact h.advance
  | trans _ _ ih ih' =>
    have first := ih h
    have second := ih' first.settled
    refine ⟨second.settled, Nat.le_trans first.stop_le second.stop_le, ?_,
      Nat.le_trans first.start_le second.start_le⟩
    rcases second.stop with same | ends
    · rw [same]
      exact first.stop
    · exact .inr ends

/-- A run starts here. -/
theorem begun (h : Settled source s) : Begun source s.current.start s :=
  { h with starts := ⟨s.current, h.mem_current, rfl⟩, le := Nat.le_refl _ }

end Settled

theorem Begun.onward {source : String} {start : Position} {s s' : ParseState} (h : Begun source start s)
    (moves : s.Onward s') : Begun source start s' :=
  have reached := h.toSettled.onward moves
  { reached.settled with starts := h.starts, le := Nat.le_trans h.le reached.start_le }

/-! ### What is known at a point of a run -/

/-- The spans lie between two positions, and are nested. -/
def Fits (source : String) (start stop : Position) (trees : List SpanTree) : Prop :=
  ∀ p ∈ trees, p.Nested source ∧ start.offset ≤ p.span.start.offset ∧ p.span.stop.offset ≤ stop.offset

namespace Fits

variable {source : String} {start start' stop stop' : Position} {a b : List SpanTree}

theorem nil : Fits source start stop [] := by simp [Fits]

theorem append (left : Fits source start stop a) (right : Fits source start stop b) :
    Fits source start stop (a ++ b) := by
  intro p mem
  rcases List.mem_append.mp mem with mem | mem
  · exact left p mem
  · exact right p mem

theorem widen (h : Fits source start stop a) (le : start'.offset ≤ start.offset) : Fits source start' stop a :=
  fun p mem => ⟨(h p mem).1, Nat.le_trans le (h p mem).2.1, (h p mem).2.2⟩

theorem later (h : Fits source start stop a) (le : stop.offset ≤ stop'.offset) : Fits source start stop' a :=
  fun p mem => ⟨(h p mem).1, (h p mem).2.1, Nat.le_trans (h p mem).2.2 le⟩

theorem located (here : StartsToken source start) (ends : EndsToken source stop) (le : start.offset ≤ stop.offset) :
    SpanTree.Located source ⟨start, stop⟩ := by
  obtain ⟨t, mem, rfl⟩ := ends
  exact ⟨here, ⟨t, mem, rfl⟩, le, stop_le_size mem⟩

/-- A node that starts here and ends where the last token does holds all that was built since. -/
theorem node (here : StartsToken source start) (ends : EndsToken source stop) (le : start.offset ≤ stop.offset)
    (inside : Fits source start stop a) : Fits source start stop [.node ⟨start, stop⟩ a] := by
  intro p mem
  obtain rfl := List.mem_singleton.mp mem
  exact ⟨.node (located here ends le) (fun p mem => (inside p mem).1) fun p mem => (inside p mem).2, Nat.le_refl _,
    Nat.le_refl _⟩

/-- What a node holds lies where the node does. -/
theorem inside {tree : SpanTree} (h : Fits source start stop [tree]) : Fits source start stop tree.inside := by
  obtain ⟨nested, le, ge⟩ := h _ List.mem_cons_self
  intro p mem
  obtain ⟨inner, within⟩ := nested.inside p mem
  exact ⟨inner, Nat.le_trans le within.1, Nat.le_trans within.2 ge⟩

end Fits

/-- A property of the end of the last token that was read, which stays true while more tokens are read. -/
structure Mark (source : String) where
  holds : Position → Prop
  lasts : ∀ {p q : Position}, p.offset ≤ q.offset → q = p ∨ EndsToken source q → holds p → holds q

namespace Mark

variable {source : String}

def any : Mark source := ⟨fun _ => True, fun _ _ => id⟩

def never : Mark source := ⟨fun _ => False, fun _ _ => id⟩

def and (K L : Mark source) : Mark source :=
  ⟨fun p => K.holds p ∧ L.holds p, fun le stop h => ⟨K.lasts le stop h.1, L.lasts le stop h.2⟩⟩

/-- A token has been read since the start. -/
def read (start : Position) : Mark source :=
  ⟨fun p => EndsToken source p ∧ start.offset ≤ p.offset, fun le stop h =>
    ⟨stop.elim (fun same => same ▸ h.1) id, Nat.le_trans h.2 le⟩⟩

def fits (start : Position) (trees : List SpanTree) : Mark source :=
  ⟨fun p => Fits source start p trees, fun le _ h => h.later le⟩

/-- What stands first among the spans that fit. -/
def placed (start : Position) (tree : SpanTree) : Mark source := fits start [tree]

/-- Tokens have been read since the start, and nodes with these spans have been built from them. -/
def got (start : Position) (trees : List SpanTree) : Mark source := and (read start) (fits start trees)

/-- What does not depend on the tokens that are read. -/
def fact (P : Prop) : Mark source := ⟨fun _ => P, fun _ _ => id⟩

/-- What is known only in a case. -/
def when (P : Prop) (K : Mark source) : Mark source :=
  ⟨fun p => P → K.holds p, fun le stop h holds => K.lasts le stop (h holds)⟩

/-- A node was started inside another one. -/
def under (start here : Position) : Mark source := fact (StartsToken source start ∧ start.offset ≤ here.offset)

/-- `K` was known before the spans started. -/
def before (K : Mark source) (trees : List SpanTree) : Mark source :=
  fact (∃ q, K.holds q ∧ ∀ p ∈ trees, q.offset ≤ p.span.start.offset)

/-- `K` was known before a token of the kind, which has been read since. -/
def followed (kind : TokenKind) (K : Mark source) : Mark source :=
  ⟨fun p => ∃ q, K.holds q ∧
      ∃ t ∈ tokenize source, t.kind = kind ∧ q.offset ≤ t.start.offset ∧ t.stop.offset ≤ p.offset,
    fun le _ h => match h with
      | ⟨q, known, t, mem, same, front, back⟩ => ⟨q, known, t, mem, same, front, Nat.le_trans back le⟩⟩

/-- One mark says what the other does. -/
structure Gives (K L : Mark source) : Prop where
  holds : ∀ {p : Position}, K.holds p → L.holds p

variable {K L : Mark source} {start p : Position} {a b : List SpanTree}

@[simp] theorem gives_iff : K.Gives L ↔ ∀ p, K.holds p → L.holds p := ⟨fun h _ => h.holds, fun h => ⟨h _⟩⟩

theorem Gives.never : (never : Mark source).Gives K := ⟨False.elim⟩

theorem Gives.any : K.Gives .any := ⟨fun _ => trivial⟩

/-- Where no node was built there is nothing to know. -/
theorem Gives.nil : K.Gives (.fits start []) := ⟨fun _ => .nil⟩

theorem Gives.left : (K.and L).Gives K := ⟨And.left⟩

theorem Gives.right : (K.and L).Gives L := ⟨And.right⟩

@[simp] theorem holds_any : (any : Mark source).holds p ↔ True := Iff.rfl

@[simp] theorem holds_never : (never : Mark source).holds p ↔ False := Iff.rfl

@[simp] theorem holds_fact {P : Prop} : (fact P : Mark source).holds p ↔ P := Iff.rfl

@[simp] theorem holds_when {P : Prop} : (when P K).holds p ↔ (P → K.holds p) := Iff.rfl

@[simp] theorem holds_and : (K.and L).holds p ↔ K.holds p ∧ L.holds p := Iff.rfl

@[simp] theorem holds_got : holds (got start a : Mark source) p ↔ holds (read start : Mark source) p ∧
    holds (fits start a : Mark source) p := Iff.rfl

@[simp] theorem holds_fits_nil : holds (fits start [] : Mark source) p ↔ True := iff_true_intro .nil

@[simp] theorem holds_fits_append : holds (fits start (a ++ b) : Mark source) p ↔
    holds (fits start a : Mark source) p ∧ holds (fits start b : Mark source) p := List.forall_mem_append

@[simp] theorem holds_fits_cons {x : SpanTree} : holds (fits start (x :: a) : Mark source) p ↔
    holds (placed start x : Mark source) p ∧ holds (fits start a : Mark source) p := holds_fits_append (a := [x])

theorem fits_widen {here : Position} (le : start.offset ≤ here.offset) (h : holds (fits here a : Mark source) p) :
    holds (fits start a : Mark source) p := Fits.widen h le

/-- What was built inside a node lies inside what is around it. -/
theorem got_widen {here : Position} (le : start.offset ≤ here.offset) (h : holds (got here a : Mark source) p) :
    holds (got start a : Mark source) p := ⟨⟨h.1.1, Nat.le_trans le h.1.2⟩, h.2.widen le⟩

end Mark

theorem ParseState.lastStop_advance (s : ParseState) : s.advance.lastStop = s.current.stop := by
  unfold advance
  split <;> rfl

theorem Begun.read {source : String} {start : Position} {s : ParseState} (h : Begun source start s) :
    Mark.holds (.read start : Mark source) s.advance.lastStop := by
  rw [ParseState.lastStop_advance]
  exact ⟨⟨s.current, h.mem_current, rfl⟩, Nat.le_trans h.le (start_le_stop h.mem_current)⟩

namespace Parse

variable {α β : Type}

/-- What is known stays known. -/
theorem Tame.lasts {source : String} {m : Parse α} (tame : Tame m) {s : ParseState} (settled : Settled source s)
    {K : Mark source} (k : K.holds s.lastStop) : K.holds (m s).2.lastStop :=
  have reached := settled.onward (tame.onward s)
  K.lasts reached.stop_le reached.stop k

/-- A run inside a node that starts at `start`, with `K` known so far, leaves `C` known of its value if it reports
nothing. -/
structure Builds {source : String} (start : Position) (K : Mark source) (C : α → Mark source) (m : Parse α) : Prop where
  tame : Tame m
  value : ∀ {s : ParseState}, Begun source start s → K.holds s.lastStop → (m s).2.failed = false →
    (C (m s).1).holds (m s).2.lastStop

/-- The nodes of the value are built of tokens that were read. -/
abbrev BuildsTrees {source : String} (start : Position) (K : Mark source) (of : α → List SpanTree) (m : Parse α) :
    Prop := Builds start K (fun a => .got start (of a)) m

namespace Builds

variable {source : String} {start : Position} {K L : Mark source} {C C' : α → Mark source} {C₁ : β → Mark source}
  {v : ParseState → Bool} {m y z : Parse α} {x : Parse β} {f : β → Parse α} {of : α → List SpanTree}

theorem ofTame (tame : Tame m) : Builds start K (fun _ => .any) m := ⟨tame, fun _ _ _ => trivial⟩

/-- Productions that build no node have been run through already. -/
theorem locked [HasHoles α] {γ : Type} {must : α → ParseState → Prop} {e : α → γ} {m' : Parse α}
    (h : Lockstep endTails .nothing true 0 Anywhere must e m m') : Builds start K (fun _ => .any) m := ofTame h.left

theorem lockedAt [HasHoles α] {γ : Type} {n : Nat} {kind : TokenKind} {must : α → ParseState → Prop} {e : α → γ}
    {m' : Parse α} (h : Lockstep endTails .nothing true n (At kind) must e m m') :
    Builds start K (fun _ => .any) m := ofTame h.left

theorem given (h : Builds start L C m) (known : K.Gives L) : Builds start K C m :=
  ⟨h.tame, fun begun k => h.value begun (known.holds k)⟩

theorem always (h : Builds start .any C m) : Builds start K C m := h.given .any

theorem conseq (h : Builds start K C m) (imp : ∀ a, (C a).Gives (C' a)) : Builds start K C' m :=
  ⟨h.tame, fun begun k clean => (imp _).holds (h.value begun k clean)⟩

/-- What was built stays where it is, whether tokens were read for it or not. -/
theorem built (h : BuildsTrees start K of m) :
    Builds start K (fun a => .fits start (of a)) m := h.conseq fun _ => .right

protected theorem pure {a : α} (known : K.Gives (C a)) : Builds start K C (pure a) :=
  ⟨.pure a, fun _ k _ => known.holds k⟩

/-- A value without a node. -/
theorem plain {a : α} : Builds start K (fun _ => .any) (pure a) := .pure .any

protected theorem bind (first : Builds start K C₁ x) (rest : ∀ a, Builds start (K.and (C₁ a)) C (f a)) :
    Builds start K C (x >>= f) where
  tame := first.tame.bind fun a => (rest a).tame
  value {s} begun k clean := by
    have now := first.value begun k ((rest (x s).1).tame.clean clean)
    exact (rest (x s).1).value (begun.onward (first.tame.onward s)) ⟨first.tame.lasts begun.toSettled k, now⟩ clean

/-- A value that is there already. -/
theorem pureThen {b : β} (rest : Builds start K C (f b)) : Builds start K C (pure b >>= f) := rest

/-- Of the value of a production nothing has to be known. -/
theorem andThen (first : Builds start K C₁ x) (rest : ∀ a, Builds start K C (f a)) :
    Builds start K C (x >>= f) := first.bind fun a => (rest a).given .left

/-- After a report nothing is claimed of the value. -/
theorem refused {a : α} (first : Builds start K (fun _ => .never) x) :
    Builds start K C (x >>= fun _ => pure a) := first.bind fun _ => .pure ⟨fun k => k.2.elim⟩

protected theorem map {f : β → α} (h : Builds start K C₁ x) (imp : ∀ a, (C₁ a).Gives (C (f a))) :
    Builds start K C (f <$> x) := h.bind fun a => .pure ⟨fun k => (imp a).holds k.2⟩

/-! ### Looking -/

theorem look {g : ParseState → β} {F : β → Parse α} (rest : ∀ b, Builds start K C (F b)) :
    Builds start K C ((fun s => (g s, s) : Parse β) >>= F) :=
  ⟨(Tame.look g).bind fun b => (rest b).tame, fun {s} begun k clean => (rest (g s)).value begun k clean⟩

variable {F : Position → Parse α} {step : Parse (Option α)} {absent : β} {c : Prop} (kind : TokenKind)
  {g : Unit → Parse α}

/-- What is known from here on is known from the start on. -/
theorem positionWith (C : Position → α → Mark source)
    (widen : ∀ {here a p}, start.offset ≤ here.offset → (C here a).holds p → (C start a).holds p)
    (rest : ∀ here, Builds here .any (C here) (F here)) : Builds start K (C start) (Parse.position >>= F) :=
  ⟨(Tame.look _).bind fun here => (rest here).tame, fun {s} begun _ clean =>
    widen begun.le ((rest s.current.start).value begun.toSettled.begun trivial clean)⟩

/-- A node that starts here. -/
theorem position (rest : ∀ here, BuildsTrees here (.any : Mark source) of (F here)) :
    BuildsTrees start K of (Parse.position >>= F) := positionWith (fun here a => .got here (of a)) Mark.got_widen rest

/-- A node that starts here, if there is one. -/
theorem positionOr (rest : ∀ here, Builds here (.any : Mark source) (fun a => .fits here (of a)) (F here)) :
    Builds start K (fun a => .fits start (of a)) (Parse.position >>= F) :=
  positionWith (fun here a => .fits here (of a)) Mark.fits_widen rest

/-- A node that starts with the current token. -/
theorem current {F : Token → Parse α}
    (rest : ∀ t : Token, BuildsTrees t.start (.any : Mark source) of (F t)) :
    BuildsTrees start K of (Parse.current >>= F) :=
  ⟨(Tame.look _).bind fun t => (rest t).tame, fun {s} begun _ clean =>
    Mark.got_widen begun.le ((rest s.current).value begun.toSettled.begun trivial clean)⟩

/-- A node around one that has been built: it starts where that one does. -/
theorem around {here : Position} {trees : List SpanTree} (known : K.Gives (.got start trees))
    (head : ∀ {p}, K.holds p → ∃ first : SpanTree, trees = [first] ∧ first.span.start = here)
    (rest : BuildsTrees here (.got here trees : Mark source) of m) : BuildsTrees start K of m where
  tame := rest.tame
  value {s} begun k clean := by
    obtain ⟨first, rfl, rfl⟩ := head k
    obtain ⟨⟨ends, _⟩, fits⟩ := known.holds k
    obtain ⟨nested, le, stop⟩ := fits first List.mem_cons_self
    have located := nested.located
    have before : first.span.start.offset ≤ s.lastStop.offset := Nat.le_trans located.ordered stop
    have inner : Begun source first.span.start s :=
      { begun.toSettled with starts := located.start, le := Nat.le_trans before begun.behind }
    refine Mark.got_widen le (rest.value inner ⟨⟨ends, before⟩, ?_⟩ clean)
    intro p mem
    obtain rfl := List.mem_singleton.mp mem
    exact ⟨nested, Nat.le_refl _, stop⟩

/-! A node inside the one that is being read, which is gone on with afterwards. -/

theorem inner (rest : ∀ here, Builds here (K.and (.under start here)) C (F here)) :
    Builds start K C (Parse.position >>= F) :=
  ⟨(Tame.look _).bind fun here => (rest here).tame, fun {s} begun k clean =>
    (rest s.current.start).value begun.toSettled.begun ⟨k, begun.starts, begun.le⟩ clean⟩

/-- The run may go on from an earlier start: what was got from here was got from there. -/
theorem outer {here : Position} (trees : List SpanTree)
    (known : K.Gives (L.and ((Mark.under start here).and (.got here trees))))
    (rest : Builds start (L.and (.got start trees)) C m) : Builds here K C m where
  tame := rest.tame
  value {s} begun k clean := by
    obtain ⟨l, ⟨starts, le⟩, got⟩ := known.holds k
    have outside : Begun source start s := { begun.toSettled with starts := starts, le := Nat.le_trans le begun.le }
    exact rest.value outside ⟨l, Mark.got_widen le got⟩ clean

/-- What is built now stands behind what was known before. -/
theorem behind (h : ∀ {here}, BuildsTrees here (.any : Mark source) of m) :
    Builds start K (fun a => (Mark.got start (of a)).and (.before K (of a))) m where
  tame := (@h start).tame
  value {s} begun k clean := by
    have got := h.value begun.toSettled.begun trivial clean
    refine ⟨Mark.got_widen begun.le got, s.lastStop, k, fun p mem => ?_⟩
    exact Nat.le_trans begun.behind (got.2 p mem).2.1

theorem ite (yes : Builds start K C y) (no : Builds start K C z) : Builds start K C (either v y z) where
  tame := yes.tame.either no.tame
  value {s} begun k clean := by
    cases holds : v s with
    | true =>
      rw [either_pos holds] at clean ⊢
      exact yes.value begun k clean
    | false =>
      rw [either_neg holds] at clean ⊢
      exact no.value begun k clean

/-- Branches of a condition that is not about the state. -/
theorem ifThenElse [Decidable c] (yes : c → Builds start K C y) (no : ¬c → Builds start K C z) :
    Builds start K C (if c then y else z) := by
  by_cases h : c
  · rw [if_pos h]
    exact yes h
  · rw [if_neg h]
    exact no h

/-! A branch that ends where the other one goes on from: what follows both is proved once. -/

theorem iteThen (yes : Builds start K C z → Builds start K C y) (rest : Builds start K C z) :
    Builds start K C (either v y z) := ite (yes rest) rest

theorem iteJoin (C₁ : β → Mark source)
    (yes : (∀ a, Builds start (K.and (C₁ a)) C (f a)) → Builds start K C y)
    (no : Builds start K C₁ x) (rest : ∀ a, Builds start (K.and (C₁ a)) C (f a)) :
    Builds start K C (either v y (x >>= f)) := ite (yes rest) (.bind no rest)

/-- A part that may be left out, which then has a value of its own. -/
theorem iteOr (yes : Builds start K C₁ x) (no : K.Gives (C₁ absent))
    (rest : ∀ a, Builds start (K.and (C₁ a)) C (f a)) :
    Builds start K C (either v (x >>= f) (pure absent >>= f)) := iteJoin C₁ (.bind yes) (.pure no) rest

/-- A leaf that may be left out, and is read where `v` holds. -/
theorem leafOr {γ : Type} (C₁ : β → Mark source) {x : Parse γ} {F : γ → Span → β} (tame : Tame x)
    (reads : ∀ {here s}, Begun source here s → v s = true → Mark.holds (.read here : Mark source) (x s).2.lastStop)
    (leaf : ∀ a span, (Mark.got start [.node span []]).Gives (C₁ (F a span))) (no : K.Gives (C₁ absent))
    (rest : ∀ b, Builds start (K.and (C₁ b)) C (f b)) : Builds start K C (either v
      (Parse.position >>= fun here => x >>= fun a => Parse.spanFrom here >>= fun span => pure (F a span) >>= f)
      (pure absent >>= f)) where
  tame := .either (.bind (.look _) fun _ => .bind tame fun a => .bind (.look _) fun span => (rest (F a span)).tame)
    (rest absent).tame
  value {s} begun k clean := by
    cases holds : v s with
    | true =>
      rw [either_pos holds] at clean ⊢
      have inner := begun.toSettled.begun
      obtain ⟨ends, le⟩ := reads inner holds
      have node := Mark.got_widen begun.le ⟨⟨ends, le⟩, .node inner.starts ends le .nil⟩
      exact (rest _).value (begun.onward (tame.onward s)) ⟨tame.lasts begun.toSettled k, (leaf _ _).holds node⟩ clean
    | false =>
      rw [either_neg holds] at clean ⊢
      exact (rest absent).value begun ⟨k, no.holds k⟩ clean

theorem ifThen [Decidable c] (yes : c → Builds start K C z → Builds start K C y)
    (rest : Builds start K C z) : Builds start K C (if c then y else z) := ifThenElse (yes · rest) fun _ => rest

theorem ifJoin (C₁ : β → Mark source) [Decidable c]
    (yes : c → (∀ a, Builds start (K.and (C₁ a)) C (f a)) → Builds start K C y)
    (no : Builds start K C₁ x) (rest : ∀ a, Builds start (K.and (C₁ a)) C (f a)) :
    Builds start K C (if c then y else x >>= f) := ifThenElse (yes · rest) fun _ => .bind no rest

theorem ifOr [Decidable c] (yes : Builds start K C₁ x) (no : K.Gives (C₁ absent))
    (rest : ∀ a, Builds start (K.and (C₁ a)) C (f a)) :
    Builds start K C (if c then x >>= f else pure absent >>= f) := ifJoin C₁ (fun _ => .bind yes) (.pure no) rest

/-! ### Reading -/

protected theorem advance : Builds start K (fun _ => .read start) Parse.advance :=
  ⟨.advance, fun begun _ _ => begun.read⟩

theorem advanced (rest : Builds start K C (g ())) : Builds start K C (Parse.advance >>= g) :=
  .andThen .advance fun _ => rest

/-- A token that is read and kept. -/
theorem token {F : Token → Parse α}
    (rest : ∀ t : Token, Builds start (K.and (.got start [.node ⟨t.start, t.stop⟩ []])) C (F t)) :
    Builds start K C (Parse.current >>= fun t => Parse.advance >>= fun _ => F t) where
  tame := (Tame.look _).bind fun t => Tame.advance.bind fun _ => (rest t).tame
  value {s} begun k clean := by
    have extent := start_le_stop begun.mem_current
    have ends : EndsToken source s.current.stop := ⟨s.current, begun.mem_current, rfl⟩
    have leaf := Fits.node begun.toSettled.begun.starts ends extent Fits.nil
    refine (rest s.current).value (begun.onward (.read s)) ⟨Tame.advance.lasts begun.toSettled k, ?_⟩ clean
    show (Mark.got start _).holds s.advance.lastStop
    rw [ParseState.lastStop_advance]
    exact ⟨⟨ends, Nat.le_trans begun.le extent⟩, leaf.widen begun.le⟩

protected theorem takeLiteral : Builds start K (fun _ => .read start) Parse.takeLiteral :=
  look fun _ => .bind .advance fun _ => .pure .right

protected theorem taken (v : ParseState → Bool) : Builds start K (fun _ => .any) (Parse.taken v) :=
  ite (.andThen .advance fun _ => .plain) .plain

protected theorem accept : Builds start K (fun _ => .any) (Parse.accept kind) := .taken _

protected theorem acceptWord (word : String) : Builds start K (fun _ => .any) (Parse.acceptWord word) := .taken _

protected theorem discard (h : Builds start K C m) : Builds start K (fun _ => .any) (discard m) := .map h fun _ => .any

theorem accepted {kind : TokenKind} (rest : Builds start K C (g ())) :
    Builds start K C (discard (Parse.accept kind) >>= g) := .andThen (.discard (.accept kind)) fun _ => rest

/-! Branches that depend on what has been read. -/

theorem take (yes : Builds start (K.and (.read start)) C y) (no : Builds start K C z) :
    Builds start K C ((Parse.taken v).fork y z) := by
  rw [Parse.fork, taken_bind]
  exact ite (.bind .advance fun _ => yes) no

theorem takeThen (yes : Builds start K C z → Builds start K C y) (rest : Builds start K C z) :
    Builds start K C ((Parse.taken v).fork y z) := take ((yes rest).given .left) rest

theorem takeJoin (C₁ : β → Mark source)
    (yes : (∀ a, Builds start (K.and (C₁ a)) C (f a)) → Builds start K C y)
    (no : Builds start K C₁ x) (rest : ∀ a, Builds start (K.and (C₁ a)) C (f a)) :
    Builds start K C ((Parse.taken v).fork y (x >>= f)) := take ((yes rest).given .left) (.bind no rest)

/-- Either branch has read something. -/
theorem takeBoth (C₁ : β → Mark source) {x' : Parse β} (yes : Builds start (K.and (.read start)) C₁ x')
    (no : Builds start K C₁ x) (rest : ∀ a, Builds start (K.and (C₁ a)) C (f a)) :
    Builds start K C ((Parse.taken v).fork (x' >>= f) (x >>= f)) :=
  take (.bind yes fun a => (rest a).given ⟨fun known => ⟨known.1.1, known.2⟩⟩) (.bind no rest)

theorem takeOr (yes : Builds start K C₁ x) (no : K.Gives (C₁ absent))
    (rest : ∀ a, Builds start (K.and (C₁ a)) C (f a)) :
    Builds start K C ((Parse.taken v).fork (x >>= f) (pure absent >>= f)) := takeJoin C₁ (.bind yes) (.pure no) rest

/-! ### Reporting -/

/-- After a report nothing is claimed. -/
theorem reporting (fault : ParseState → SyntaxFault) :
    Builds start K (fun _ => .never) (fun s => ((), s.report (fault s))) :=
  ⟨.report fault, fun _ _ clean => by simp at clean⟩

protected theorem report (fault : SyntaxFault) : Builds start K (fun _ => .never) (Parse.report fault) := reporting _

protected theorem unexpected (expected : String) : Builds start K (fun _ => .never) (Parse.unexpected expected) :=
  reporting _

protected theorem expectedIdentifier : Builds start K (fun _ => .never) Parse.expectedIdentifier := reporting _

protected theorem require : Builds start K (fun _ => .read start) (Parse.require kind) := by
  rw [require_eq]
  exact ite .advance (.conseq (.unexpected _) fun _ => .never)

/-- What was known stands in front of the token that is required. -/
theorem requireAfter : Builds start K (fun _ => (Mark.read start).and (.followed kind K)) (Parse.require kind) := by
  rw [require_eq]
  refine ⟨Tame.advance.either (.report _), fun {s} begun k clean => ?_⟩
  cases here : s.current.kind == kind with
  | true =>
    rw [either_pos here] at clean ⊢
    have read : s.current.stop.offset ≤ s.advance.lastStop.offset :=
      Nat.le_of_eq (congrArg Position.offset s.lastStop_advance.symm)
    exact ⟨Builds.advance.value begun k clean, s.lastStop, k, s.current, begun.mem_current, eq_of_beq here,
      begun.behind, read⟩
  | false =>
    rw [either_neg here] at clean
    exact ((Builds.unexpected kind.text).value begun k clean).elim

theorem required {kind : TokenKind} (rest : Builds start K C (g ())) : Builds start K C (Parse.require kind >>= g) :=
  .andThen (.require kind) fun _ => rest

protected theorem requireWord (word : String) : Builds start K (fun _ => .read start) (Parse.requireWord word) :=
  take (.pure .right) (.conseq (.unexpected _) fun _ => .never)

theorem expect {kind : TokenKind} (yes : Builds start (K.and (.read start)) C y)
    (no : Builds start .never C z) : Builds start K C ((Parse.expect kind).fork y z) := by
  rw [Parse.fork, expect_bind]
  exact ite (.bind .advance fun _ => yes) (.bind (.unexpected _) fun _ => no.given .right)

/-! ### Spans -/

/-- A node that is complete, and used further on. -/
theorem spanFrom {F : Span → Parse α} (inside : List SpanTree) (known : K.Gives (.got start inside))
    (rest : ∀ stop, Builds start (K.and (.got start [.node ⟨start, stop⟩ inside])) C (F ⟨start, stop⟩)) :
    Builds start K C (Parse.spanFrom start >>= F) where
  tame :=
    show Tame ((fun s => (s.lastStop, s) : Parse Position) >>= fun stop => F ⟨start, stop⟩) from
      (Tame.look _).bind fun stop => (rest stop).tame
  value {s} begun k clean := by
    obtain ⟨⟨ends, le⟩, fits⟩ := known.holds k
    exact (rest s.lastStop).value begun ⟨k, ⟨ends, le⟩, .node begun.starts ends le fits⟩ clean

/-- A value that is complete with a span. -/
theorem ended {F : Span → α} (known : K.Gives (.read start))
    (holds : ∀ {p}, SpanTree.Located source ⟨start, p⟩ → K.holds p → (C (F ⟨start, p⟩)).holds p) :
    Builds start K C (Parse.spanFrom start >>= fun span => pure (F span)) where
  tame := (Tame.look _).bind fun _ => .pure _
  value begun k _ := holds (Fits.located begun.starts (known.holds k).1 (known.holds k).2) k

/-- A node that is complete with its span. -/
theorem spanned {inside : List SpanTree} {F : Span → α} (known : K.Gives (.got start inside))
    (shape : ∀ span, of (F span) = [.node span inside]) :
    BuildsTrees start K of (Parse.spanFrom start >>= fun span => pure (F span)) := by
  refine spanFrom inside known fun stop => .pure ?_
  rw [shape]
  exact .right

/-! ### Nesting and loops -/

protected theorem nested {a : α} (body : Builds start K C m) : Builds start K C (nested a m) := by
  have inner : Builds start K C (limited a m) := ite (.refused (.report _)) body
  refine ⟨inner.tame.nested, fun {s} begun k clean => ?_⟩
  rw [nested_apply] at clean ⊢
  exact inner.value (s := { s with depth := s.depth + 1 }) ⟨⟨begun.rest, begun.behind⟩, begun.starts, begun.le⟩ k clean

/-- The value of a loop that is cut off. -/
protected theorem cutOff {a : α} (gives : K.Gives (C a)) : Builds start K C (cutOff a) :=
  ⟨.cutOff a, fun _ k _ => gives.holds k⟩

/-- Loops whose rounds keep a property of what they carry along. -/
theorem loop {σ : Type} (I : σ → Mark source) {go : Nat → σ → Parse α} {a : σ} (first : K.Gives (I a))
    (stop : ∀ a, Builds start (I a) C (go 0 a))
    (body : ∀ {i : Nat}, (∀ a, Builds start (I a) C (go i a)) →
      ∀ a, Builds start (I a) C (go (i + 1) a)) : Builds start K C (Parse.rounds >>= (go · a)) := by
  refine look fun i => given ?_ first
  clear first
  induction i generalizing a with
  | zero => exact stop a
  | succ i ih => exact body (fun a => ih) a

/-- Loops that carry nothing along. -/
theorem rounds (go : Nat → Parse α) (stop : Builds start .any C (go 0))
    (next : ∀ {i : Nat}, Builds start .any C (go i) → Builds start .any C (go (i + 1))) (i : Nat) :
    Builds start K C (go i) := by
  refine always ?_
  induction i with
  | zero => exact stop
  | succ i ih => exact next ih

theorem repeats {go : Nat → Parse α} (stop : Builds start .any C (go 0))
    (next : ∀ {i : Nat}, Builds start .any C (go i) → Builds start .any C (go (i + 1))) :
    Builds start K C (Parse.rounds >>= go) := look (rounds go stop next)

/-- A loop makes at least one round. -/
theorem firstRound {go : Nat → Parse α} (each : ∀ i, Builds start K C (go (i + 1))) (stop : Tame (go 0)) :
    Builds start K C (Parse.rounds >>= go) where
  tame := (Tame.look _).bind fun i => i.casesOn stop fun i => (each i).tame
  value {s} begun k clean := (each s.ahead.length).value begun k clean

theorem collect_go_succ (step : Parse (Option α)) (n : Nat) :
    collect.go step (n + 1) = step >>= fun o => o.elim (pure []) fun a => (a :: ·) <$> collect.go step n := by
  rw [collect.go]
  refine congrArg (step >>= ·) (funext fun o => ?_)
  cases o <;> rfl

/-- What is known of a list is put together from what is known of its members. -/
theorem collectWith (D : α → Mark source) (I : List α → Mark source)
    (nil : Mark.any.Gives (I [])) (cons : ∀ a l, ((D a).and (I l)).Gives (I (a :: l)))
    (each : Builds start (.any : Mark source) (fun o => o.elim .any D) step) : Builds start K I (collect step) := by
  refine repeats (.cutOff nil) fun {i} ih => ?_
  rw [collect_go_succ]
  refine .bind each fun o => ?_
  cases o with
  | none => exact .pure ⟨fun _ => nil.holds trivial⟩
  | some a =>
    refine .bind ih.always fun l => .pure ⟨fun known => ?_⟩
    exact (cons a l).holds ⟨known.1.2, known.2⟩

/-- A list of values without nodes. -/
theorem collectPlain (each : Builds start (.any : Mark source) (fun _ => .any) step) :
    Builds start K (fun _ => .any) (collect step) := by
  refine collectWith (fun _ => .any) (fun _ => .any) .any (fun _ _ => .any) (each.conseq fun o => ?_)
  cases o with
  | none | some a => exact .any

/-- Each round adds its trees behind those of the rounds before it. -/
protected theorem collect (of : α → List SpanTree) {step : Parse (Option α)}
    (each : Builds start (.any : Mark source) (fun o => .fits start (o.toList.flatMap of)) step) :
    Builds start K (fun l => .fits start (l.flatMap of)) (collect step) := by
  refine collectWith (fun a => .fits start (of a)) _ .nil (fun a l => ?_) (each.conseq fun o => ?_)
  · simp +contextual
  · cases o with
    | none => exact .any
    | some a => simp

protected theorem skipWhile {step : Parse Bool} (each : Builds start (.any : Mark source) (fun _ => .any) step) :
    Builds start K (fun _ => .any) (skipWhile step) :=
  .discard (collectPlain (.bind each fun _ => ifThenElse (fun _ => .plain) fun _ => .plain))

/-- What is read in the first round has been read. -/
theorem collect_reads (tame : Tame step) {s : ParseState} (settled : Settled source s)
    (first : L.holds (step s).2.lastStop) : L.holds (collect step s).2.lastStop := by
  have rounds (n : Nat) : Tame (collect.go step n) := by
    induction n with
    | zero => exact .cutOff _
    | succ n ih =>
      rw [collect_go_succ]
      refine tame.bind fun o => ?_
      cases o with
      | none => exact .pure _
      | some a => exact ih.bind fun _ => .pure _
  have more : Tame ((step s).1.elim (pure []) fun a => (a :: ·) <$> collect.go step s.ahead.length) := by
    cases (step s).1 with
    | none => exact .pure _
    | some a => exact (rounds _).bind fun _ => .pure _
  have same : collect step s =
      ((step s).1.elim (pure []) fun a => (a :: ·) <$> collect.go step s.ahead.length) (step s).2 :=
    congrFun (collect_go_succ step s.ahead.length) s
  rw [same]
  exact more.lasts (settled.onward (tame.onward s)).settled first

protected theorem separated (of : α → List SpanTree) (item : BuildsTrees start (.any : Mark source) of m) :
    Builds start K (fun l => .got start (l.flatMap of)) (separated m) := by
  have round {i : Nat}
      (ih : Builds start (.any : Mark source) (fun l => .fits start (l.flatMap of)) (separated.go m i)) :
      Builds start (.any : Mark source) (fun l => .got start (l.flatMap of)) (separated.go m (i + 1)) := by
    refine .bind item fun a => take (.bind ih.always fun l => .pure ?_) (.pure ?_)
    all_goals simp +contextual
  have more (i : Nat) : Builds start (.any : Mark source) (fun l => .fits start (l.flatMap of)) (separated.go m i) :=
    rounds (separated.go m) (.cutOff .nil) (fun ih => (round ih).built) i
  exact firstRound (fun i => (round (more i)).always) (.cutOff _)

/-- Tokens are read as long as there is a next value. -/
protected theorem scan {σ : Type} (I : σ → Mark source) {next : σ → ParseState → Option σ} {a : σ}
    (first : K.Gives (I a)) (keeps : ∀ {s : ParseState} {a b : σ}, Begun source start s → next a s = some b →
      (I a).holds s.lastStop → (I b).holds s.current.stop) : Builds start K I (scan a next) := by
  show Builds start K I (Parse.rounds >>= (scan.go next · a))
  refine loop I first (fun a => .cutOff ⟨id⟩) fun ih a => ?_
  refine ⟨tame_scan_succ (fun b => (ih b).tame) a, fun {s} begun k clean => ?_⟩
  rw [scan_go_succ] at clean ⊢
  cases found : next a s with
  | none => exact k
  | some b =>
    rw [found] at clean
    refine (ih b).value (begun.onward (.read s)) ?_ clean
    rw [ParseState.lastStop_advance]
    exact keeps begun found k

/-- Tokens that are skipped. -/
theorem skip {σ : Type} (next : σ → ParseState → Option σ) (a : σ) :
    Builds start K (fun _ => .any) (discard (Parse.scan a next)) := .discard (ofTame (.scan a next))

end Builds

end Parse

end ColumnFlow
