import ColumnFlow.Grammar.Script

/-!
# One run of the parser

What is told of a run over a text to its end. It reports faults on its own level of statements, or in statement lists
inside, which keep theirs to themselves (`OwnLevel`). If it reports nothing its value has no holes. What is known of the
values on the way is kept in `Facts`, from which the classes `Same` and `Whole` find it again in the values that are put
together from them.
-/

namespace ColumnFlow

/-- The grammar whose entry points can be nested as deep as there are tokens left to read. -/
def Grammar.full : Grammar where
  exprAt least s := (ofDepth (s.ahead.length + 2)).exprAt least s
  withClause s := (ofDepth (s.ahead.length + 2)).withClause s
  query ctes s := (ofDepth (s.ahead.length + 2)).query ctes s
  selectBody s := (ofDepth (s.ahead.length + 2)).selectBody s
  table s := (ofDepth (s.ahead.length + 2)).table s
  stmt s := (ofDepth (s.ahead.length + 2)).stmt s

namespace ParseState

/-- The tokens that are not read yet, the current one first. -/
def tokens (s : ParseState) : List Token := s.current :: s.ahead

/-! ### Reading a token -/

variable {s : ParseState} {t : Token} {rest : List Token}

theorem advance_of_ahead_nil (h : s.ahead = []) : s.advance = { s with lastStop := s.current.stop } := by
  simp [advance, h]

theorem advance_of_ahead_cons (h : s.ahead = t :: rest) :
    s.advance = { s with current := t, ahead := rest, lastStop := s.current.stop } := by
  simp [advance, h]

theorem tokens_advance (h : s.ahead ≠ []) : s.advance.tokens = s.ahead := by
  obtain ⟨t, rest, ahead⟩ := List.exists_cons_of_ne_nil h
  simp [advance_of_ahead_cons ahead, tokens, ahead]

theorem sameLine_advance (h : s.ahead = t :: rest) : s.advance.sameLine = (t.start.line == s.current.stop.line) := by
  simp [advance_of_ahead_cons h, sameLine]

theorem current_eq (h : s.tokens[0]? = some t) : s.current = t := by
  simpa [tokens] using h

theorem next_eq (h : s.tokens[1]? = some t) : s.next = t := by
  cases ahead : s.ahead with
  | nil => simp [tokens, ahead] at h
  | cons u rest => simpa [tokens, next, ahead] using h

theorem afterNext_eq (h : s.tokens[2]? = some t) : s.afterNext = t := by
  match ahead : s.ahead with
  | [] | [u] => simp [tokens, ahead] at h
  | u :: v :: rest => simpa [tokens, afterNext, ahead] using h

variable (s) (fault : SyntaxFault)

theorem tokens_advance_suffix : s.advance.tokens <:+ s.tokens := by
  cases h : s.ahead with
  | nil => simp [advance_of_ahead_nil h, tokens, h]
  | cons t rest => simp [advance_of_ahead_cons h, tokens, h]

@[simp] theorem depth_advance : s.advance.depth = s.depth := by
  unfold advance; split <;> rfl

@[simp] theorem failed_advance : s.advance.failed = s.failed := by
  unfold advance; split <;> rfl

@[simp] theorem errors_advance : s.advance.errors = s.errors := by
  unfold advance; split <;> rfl

@[simp] theorem inlineFunction_advance : s.advance.inlineFunction = s.inlineFunction := by
  unfold advance; split <;> rfl

@[simp] theorem cutOff_advance : s.advance.cutOff = s.cutOff := by
  unfold advance; split <;> rfl

@[simp] theorem tokens_report : (s.report fault).tokens = s.tokens := by
  unfold report; split <;> rfl

@[simp] theorem failed_report : (s.report fault).failed = true := by
  unfold report; split <;> simp_all

@[simp] theorem lastStop_report : (s.report fault).lastStop = s.lastStop := by
  unfold report; split <;> rfl

@[simp] theorem depth_report : (s.report fault).depth = s.depth := by
  unfold report; split <;> rfl

@[simp] theorem inlineFunction_report : (s.report fault).inlineFunction = s.inlineFunction := by
  unfold report; split <;> rfl

@[simp] theorem cutOff_report : (s.report fault).cutOff = s.cutOff := by
  unfold report; split <;> rfl

@[simp] theorem sameLine_report : (s.report fault).sameLine = s.sameLine := by
  unfold report; split <;> rfl

end ParseState

/-! ### One level of statements -/

/-- Between two states tokens are read, nothing is reported and no loop is cut off. -/
structure Quiet (s s' : ParseState) : Prop where
  suffix : s'.tokens <:+ s.tokens
  errors : s'.errors = s.errors
  failed : s'.failed = s.failed
  cutOff : s'.cutOff = s.cutOff

theorem Quiet.trans {s s' s'' : ParseState} (h : Quiet s s') (h' : Quiet s' s'') : Quiet s s'' :=
  ⟨h'.suffix.trans h.suffix, h'.errors.trans h.errors, h'.failed.trans h.failed, h'.cutOff.trans h.cutOff⟩

theorem quiet_refl (s : ParseState) : Quiet s s := ⟨List.suffix_rfl, rfl, rfl, rfl⟩

theorem quiet_advance (s : ParseState) : Quiet s s.advance :=
  ⟨ParseState.tokens_advance_suffix s, by simp, by simp, by simp⟩

/-- What happens between two states on one level of statements: tokens are read, faults are reported, and statement
lists inside are run through. The list gives the reports that were accepted on the level itself, in their order. -/
inductive OwnLevel (g : Grammar) : ParseState → List ParseError → ParseState → Prop
  | quiet {s s'} : Quiet s s' → OwnLevel g s [] s'
  | report {s} (fault : SyntaxFault) : s.failed = false → OwnLevel g s [⟨s.current.start, fault⟩] (s.report fault)
  | list (stop : TokenKind → Bool) (s) : OwnLevel g s [] (Parse.stmtList g stop s).2
  | trans {s s' s'' own own'} : OwnLevel g s own s' → OwnLevel g s' own' s'' → OwnLevel g s (own ++ own') s''

/-- The faults that are reported on the level are placed at tokens that were left to read. No loop is cut off. -/
structure Reports (s s' : ParseState) : Prop where
  suffix : s'.tokens <:+ s.tokens
  cutOff : s'.cutOff = s.cutOff
  own : ∃ own, OwnLevel .full s own s' ∧ ∀ e ∈ own, ∃ t ∈ s.tokens, e.position = t.start

namespace Reports

variable {s s' s'' : ParseState}

theorem quiet (h : Quiet s s') : Reports s s' := ⟨h.suffix, h.cutOff, [], .quiet h, by simp⟩

/-- Reports of two stretches are put together; the tokens of the second are among those of the first. -/
theorem trans (first : Reports s s') (second : Reports s' s'') : Reports s s'' := by
  obtain ⟨suffix, cutOff, own, level, places⟩ := first
  obtain ⟨suffix', cutOff', own', level', places'⟩ := second
  refine ⟨suffix'.trans suffix, cutOff'.trans cutOff, own ++ own', level.trans level', fun e mem => ?_⟩
  rcases List.mem_append.mp mem with mem | mem
  · exact places e mem
  · obtain ⟨t, mem, same⟩ := places' e mem
    exact ⟨t, suffix.subset mem, same⟩

/-- A report is accepted only where the statement has none. -/
theorem report (s : ParseState) (fault : SyntaxFault) : Reports s (s.report fault) := by
  cases clean : s.failed with
  | true =>
    have same : s.report fault = s := by simp [ParseState.report, clean]
    rw [same]
    exact quiet (quiet_refl s)
  | false =>
    refine ⟨by simp, by simp, _, .report fault clean, fun e mem => ⟨s.current, List.mem_cons_self, ?_⟩⟩
    rw [List.mem_singleton.mp mem]

end Reports

/-! ### Values without holes -/

/-- Which values of a type have no holes. -/
class HasHoles (α : Type) where
  whole : α → Prop

/-- Values of other types have none. -/
instance (priority := low) HasHoles.never {α : Type} : HasHoles α := ⟨fun _ => True⟩

instance {α : Type} [HasHoles α] : HasHoles (List α) := ⟨fun l => ∀ a ∈ l, HasHoles.whole a⟩

instance {α : Type} [HasHoles α] : HasHoles (Option α) := ⟨fun o => ∀ a ∈ o, HasHoles.whole a⟩

instance {α β : Type} [HasHoles α] [HasHoles β] : HasHoles (α × β) := ⟨fun p => HasHoles.whole p.1 ∧ HasHoles.whole p.2⟩

/-- A type whose values have no holes. -/
class Solid (α : Type) [HasHoles α] : Prop where
  whole : ∀ a : α, HasHoles.whole a

namespace Solid

variable {α : Type}

instance : @Solid α HasHoles.never := @Solid.mk α HasHoles.never fun _ => trivial

instance [HasHoles α] [Solid α] : Solid (List α) := ⟨fun _ a _ => Solid.whole a⟩

end Solid

/-! ### What is known on the way -/

/-- What is known at a point of two runs: of their values, should the runs be the same, and of holes, should no fault
have been reported. -/
structure Facts where
  same : Prop
  whole : Prop

namespace Facts

variable {α : Type} (K : Facts)

/-- The runs go on with these values. -/
def learn [HasHoles α] (a a' : α) : Facts := ⟨K.same ∧ a = a', K.whole ∧ HasHoles.whole a⟩

/-- There is a fault unless `p` holds. -/
def given (p : Prop) : Facts := ⟨K.same, K.whole ∧ p⟩

/-- There is a fault. -/
def faulty : Facts := ⟨K.same, False⟩

/-- Nothing is told of runs that are the same. -/
def nothing : Facts := ⟨False, False⟩

end Facts

/-- The values are the same if the runs are. -/
class Same (K : Facts) {α : Type} (a a' : α) : Prop where
  eq : K.same → a = a'

/-- The value has no hole if there was no fault. -/
class Whole (K : Facts) {α : Type} [HasHoles α] (a : α) : Prop where
  holds : K.whole → HasHoles.whole a

/-- `p` holds if there was no fault. -/
class Given (K : Facts) (p : Prop) : Prop where
  holds : K.whole → p

/-- At one point all is known that is known at another. -/
class Facts.Extends (K L : Facts) : Prop where
  same : K.same → L.same
  whole : K.whole → L.whole

section

variable {K L : Facts} {α β : Type} {a a' : α} {b b' : β} {p q : Prop}

instance (priority := high) : Same K a a := ⟨fun _ => rfl⟩

instance (priority := high) [HasHoles α] : Same (K.learn a a') a a' := ⟨And.right⟩

instance {f f' : α → β} [Same K f f'] [Same K a a'] : Same K (f a) (f' a') :=
  ⟨fun known => congr (Same.eq known) (Same.eq known)⟩

instance [value : Same K b b'] : Same K (fun _ : α => b) fun _ => b' := ⟨fun known => by rw [value.eq known]⟩

instance (priority := low) [HasHoles α] [Same K b b'] : Same (K.learn a a') b b' := ⟨fun known => Same.eq known.1⟩

instance (priority := low) [Same K a a'] : Same (K.given p) a a' := ⟨fun known => Same.eq (K := K) known⟩

instance (priority := low) : Same .nothing a a' := ⟨False.elim⟩

instance (priority := low) [HasHoles α] [Solid α] : Whole K a := ⟨fun _ => Solid.whole a⟩

instance (priority := high) [HasHoles α] : Whole (K.learn a a') a := ⟨And.right⟩

instance (priority := low) [HasHoles α] [HasHoles β] [Whole K b] : Whole (K.learn a a') b :=
  ⟨fun known => Whole.holds known.1⟩

instance (priority := low) [HasHoles α] [Whole K a] : Whole (K.given p) a := ⟨fun known => Whole.holds known.1⟩

instance (priority := low) [HasHoles α] : Whole K.faulty a := ⟨False.elim⟩

instance (priority := low) [HasHoles α] : Whole .nothing a := ⟨False.elim⟩

instance (priority := high) : Given (K.given p) p := ⟨And.right⟩

instance (priority := low) [HasHoles α] [Given K q] : Given (K.learn a a') q := ⟨fun known => Given.holds known.1⟩

instance (priority := low) : Given K.faulty q := ⟨False.elim⟩

instance (priority := high) : K.Extends K := ⟨id, id⟩

instance [HasHoles α] [K.Extends L] [Same K a a'] [Whole K a] : K.Extends (L.learn a a') :=
  ⟨fun known => ⟨Facts.Extends.same known, Same.eq known⟩, fun known => ⟨Facts.Extends.whole known, Whole.holds known⟩⟩

instance (priority := low) [HasHoles α] [K.Extends L] : (K.learn a a').Extends L :=
  ⟨fun known => Facts.Extends.same known.1, fun known => Facts.Extends.whole known.1⟩

instance (priority := low) [K.Extends L] : (K.given p).Extends L :=
  ⟨fun known => Facts.Extends.same (K := K) known, fun known => Facts.Extends.whole known.1⟩

instance (priority := low) [K.Extends L] : K.faulty.Extends L :=
  ⟨fun known => Facts.Extends.same (K := K) known, False.elim⟩

instance (priority := low) [ext : K.Extends L] [condition : Given K p] : K.Extends (L.given p) :=
  ⟨fun known => ext.same known, fun known => ⟨ext.whole known, condition.holds known⟩⟩

instance (priority := low) : Facts.nothing.Extends L := ⟨False.elim, False.elim⟩

end

/-! ### Pairs -/

section

variable {K : Facts} {α β : Type} [HasHoles α] [HasHoles β] {a a' : α} {b b' : β}

instance : Same (K.learn (a, b) (a', b')) b b' := ⟨fun known => congrArg Prod.snd known.2⟩

instance : Whole (K.learn (a, b) (a', b')) b := ⟨fun known => known.2.2⟩

instance [first : Whole K a] [second : Whole K b] : Whole K (a, b) :=
  ⟨fun known => ⟨first.holds known, second.holds known⟩⟩

end

/-! ### Lists and options -/

section

variable {K : Facts} {α : Type} [HasHoles α] {a a' : α} {l : List α}

instance : Whole K ([] : List α) := ⟨fun _ => List.forall_mem_nil _⟩

instance [Whole K a] [Whole K l] : Whole K (a :: l) :=
  ⟨fun known => List.forall_mem_cons.mpr ⟨Whole.holds known, Whole.holds (a := l) known⟩⟩

instance : Same (K.learn (some a) (some a')) a a' := ⟨fun known => Option.some.inj known.2⟩

instance : Whole (K.learn (some a) (some a')) a := ⟨fun known => known.2 a rfl⟩

instance [all : Whole K l] : Whole K l.reverse := ⟨fun known b mem => all.holds known b (List.mem_reverse.mp mem)⟩

instance {l : List (Option α)} [all : Whole K l] : Whole K (l.filterMap id) := by
  refine ⟨fun known b mem => ?_⟩
  obtain ⟨o, mem, same⟩ := List.mem_filterMap.mp mem
  exact all.holds known o mem b same

instance : Whole K (none : Option α) := ⟨fun _ _ mem => absurd mem (Option.not_mem_none _)⟩

instance [Whole K a] : Whole K (some a) := ⟨fun known _ mem => Option.mem_some.mp mem ▸ Whole.holds known⟩

end

end ColumnFlow
