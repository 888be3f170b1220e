import ColumnFlow.Grammar.Script
import ColumnFlow.Proofs.LockstepExpressions
import ColumnFlow.Proofs.PrintedExpressions

/-!
# Operator levels and what is read

`Reads` says what a parser makes of given tokens: it goes on to the tokens behind them, reports nothing, and gives a value
with some property. A rule for each step of the parser builds up to the rules for operands and operators.

The parser reads a first operand and then goes round once for each operator behind it, as long as that binds tightly
enough, so a tree is not read along its own recursion: its leftmost operand is read first and grows (`Grows`) into the
tree. An induction over the tree shows that it does (`ReadsBack`), for every level that the parser may be asked for and
whatever follows the tree (`Follows`).
-/

namespace ColumnFlow

open Text (Position Span)
open List (append_assoc cons_append map_eq_append_iff)

/-! ### Tokens as they are spelled -/

namespace Lexeme

@[simp] theorem kind_keyword (k : Keyword) : (keyword k).kind = .keyword k := rfl

@[simp] theorem kind_symbol (s : Symbol) : (symbol s).kind = .symbol s := rfl

@[simp] theorem kind_bracketed (name : String) : (bracketed name).kind = .ident := rfl

end Lexeme

namespace Token

variable {tokens : List Token} {l : Lexeme} {ls : List Lexeme}

theorem spelled_cons (spelled : tokens.map lexeme = l :: ls) : ∃ t more, tokens = t :: more ∧ t.kind = l.kind ∧
    t.literal = l.literal ∧ t.quoted = l.quoted ∧ more.map lexeme = ls := by
  obtain ⟨t, more, rfl, rfl, later⟩ := List.map_eq_cons_iff.1 spelled
  exact ⟨t, more, rfl, rfl, rfl, rfl, later⟩

theorem spelled_singleton (spelled : tokens.map lexeme = [l]) :
    ∃ t, tokens = [t] ∧ t.kind = l.kind ∧ t.literal = l.literal := by
  obtain ⟨t, rfl, rfl⟩ := List.map_eq_singleton_iff.1 spelled
  exact ⟨t, rfl, rfl, rfl⟩

end Token

open Token (lexeme spelled_cons spelled_singleton)

theorem Expr.isMissing_of_bare {e e' : Expr} (same : e'.bare = e.bare) (whole : e.isMissing = false) :
    e'.isMissing = false := by
  rw [← isMissing_bare, same, isMissing_bare, whole]

/-! ### Parsers that read given tokens -/

/-- The state in front of the tokens, with all else as in `s`. -/
def ParseState.facing (s : ParseState) (stop : Position) : List Token → ParseState
  | [] => s
  | t :: more => { s with current := t, ahead := more, lastStop := stop }

namespace Parse

variable {α β : Type}

/-- In front of `tokens` the parser goes on to `rest` without a report, with a value that has the property. -/
def Reads (p : Parse α) (s : ParseState) (tokens rest : List Token) (P : α → Prop) : Prop :=
  ∀ stop, ∃ a stop', p (s.facing stop tokens) = (a, s.facing stop' rest) ∧ P a

namespace Reads

variable {p : Parse α} {f : α → Parse β} {s : ParseState} {tokens mid rest more : List Token} {P : α → Prop}
  {Q : β → Prop} {t u : Token}

theorem bind (first : p.Reads s tokens mid P) (next : ∀ a, P a → (f a).Reads s mid rest Q) :
    (p >>= f).Reads s tokens rest Q := by
  intro stop
  obtain ⟨a, stop₁, run, holds⟩ := first stop
  obtain ⟨b, stop₂, run', holds'⟩ := next a holds stop₁
  refine ⟨b, stop₂, ?_, holds'⟩
  change f (p (s.facing stop tokens)).1 (p (s.facing stop tokens)).2 = _
  rw [run]
  exact run'

/-- The same where the value is known. -/
theorem step {a : α} (first : p.Reads s tokens mid (· = a)) (next : (f a).Reads s mid rest Q) :
    (p >>= f).Reads s tokens rest Q := first.bind fun _ same => same ▸ next

theorem value {a : α} (holds : P a) : (pure a : Parse α).Reads s tokens tokens P := fun stop => ⟨a, stop, rfl, holds⟩

theorem weaken {P' : α → Prop} (reads : p.Reads s tokens rest P) (implied : ∀ a, P a → P' a) :
    p.Reads s tokens rest P' := by
  intro stop
  obtain ⟨a, stop', run, holds⟩ := reads stop
  exact ⟨a, stop', run, implied a holds⟩

/-! #### Looking at tokens -/

theorem current : Parse.current.Reads s (t :: more) (t :: more) (· = t) := fun stop => ⟨t, stop, rfl, rfl⟩

theorem position : Parse.position.Reads s tokens tokens fun _ => True := fun stop => ⟨_, stop, rfl, trivial⟩

theorem spanned {start : Position} {f : Span → Parse α} (next : ∀ span, (f span).Reads s tokens rest P) :
    (Parse.spanFrom start >>= f).Reads s tokens rest P :=
  fun stop => next _ stop

theorem next : (get : Parse ParseState).Reads s (t :: more) (t :: more) (·.next = more.headD t) :=
  fun stop => ⟨_, stop, rfl, rfl⟩

theorem rounds (any : tokens ≠ []) : Parse.rounds.Reads s tokens tokens (· = tokens.length) := by
  obtain ⟨t, more, rfl⟩ := List.exists_cons_of_ne_nil any
  exact fun stop => ⟨_, stop, rfl, rfl⟩

variable (kind : TokenKind)

theorem sees : (Parse.sees kind).Reads s (t :: more) (t :: more) (· = (t.kind == kind)) :=
  fun stop => ⟨_, stop, rfl, rfl⟩

theorem seesNext : (Parse.seesNext kind).Reads s (t :: more) (t :: more) (· = ((more.headD t).kind == kind)) :=
  fun stop => ⟨_, stop, rfl, rfl⟩

theorem seesAfterNext : (Parse.seesAfterNext kind).Reads s tokens tokens fun _ => True :=
  fun stop => ⟨_, stop, rfl, trivial⟩

theorem seesWord (word : String) : (Parse.seesWord word).Reads s (t :: more) (t :: more) (· = t.isWord word) :=
  fun stop => ⟨_, stop, rfl, rfl⟩

/-! #### Reading tokens -/

theorem advance (any : rest ≠ []) : Parse.advance.Reads s (t :: rest) rest fun _ => True := by
  obtain ⟨u, more, rfl⟩ := List.exists_cons_of_ne_nil any
  exact fun _ => ⟨(), t.stop, rfl, trivial⟩

theorem takeLiteral (any : rest ≠ []) : Parse.takeLiteral.Reads s (t :: rest) rest (· = t.literal) :=
  .step .current (.bind (.advance any) fun _ _ => .value rfl)

theorem accept {kind : TokenKind} (same : t.kind = kind) (any : rest ≠ []) :
    (Parse.accept kind).Reads s (t :: rest) rest (· = true) := by
  refine .step (.sees kind) ?_
  rw [same, beq_self_eq_true, if_pos rfl]
  exact .bind (.advance any) fun _ _ => .value rfl

theorem pass {kind : TokenKind} (other : t.kind ≠ kind) :
    (Parse.accept kind).Reads s (t :: more) (t :: more) (· = false) := by
  refine .step (.sees kind) ?_
  rw [beq_false_of_ne other]
  exact .value rfl

theorem passWord {word : String} (other : t.isWord word = false) :
    (Parse.acceptWord word).Reads s (t :: more) (t :: more) (· = false) := by
  refine .step (.seesWord word) ?_
  rw [other]
  exact .value rfl

theorem discard (first : p.Reads s tokens rest P) : (Functor.discard p).Reads s tokens rest fun _ => True := by
  intro stop
  obtain ⟨a, stop', run, -⟩ := first stop
  exact ⟨(), stop', congrArg (fun x : α × ParseState => ((), x.2)) run, trivial⟩

theorem require {kind : TokenKind} (same : t.kind = kind) (any : rest ≠ []) :
    (Parse.require kind).Reads s (t :: rest) rest fun _ => True :=
  .discard (P := fun _ => True) (.step (accept same any) (.value trivial))

/-- One level deeper, while the limit is not passed. -/
theorem nested {fallback : α} (shallow : s.depth < maxDepth)
    (reads : p.Reads { s with depth := s.depth + 1 } tokens rest P) : (Parse.nested fallback p).Reads s tokens rest P := by
  intro stop
  obtain ⟨a, stop', run, holds⟩ := reads stop
  have deeper : { s.facing stop tokens with depth := (s.facing stop tokens).depth + 1 } =
      { s with depth := s.depth + 1 : ParseState }.facing stop tokens := by cases tokens <;> rfl
  have within : ¬maxDepth < ({ s with depth := s.depth + 1 : ParseState }.facing stop tokens).depth := by
    cases tokens <;> exact Nat.not_lt.2 shallow
  have body : limited fallback p ({ s with depth := s.depth + 1 : ParseState }.facing stop tokens) =
      (a, { s with depth := s.depth + 1 : ParseState }.facing stop' rest) := by
    rw [← run, limited, either, if_neg (by simpa using within)]
  refine ⟨a, stop', ?_, holds⟩
  rw [nested_apply, deeper, body]
  cases rest <;> rfl

end Reads

/-! ### What stands behind an expression -/

/-- The level of the operator that the tokens start with, 0 if they start with none. -/
def bindingLevel : List Token → Nat
  | [] => 0
  | t :: more =>
    match BinaryOp.ofToken? t.kind with
    | some op => op.level
    | none =>
      if t.kind == Keyword.IS || startsPredicate t.kind then Level.comparison
      else if t.kind == Keyword.NOT && startsPredicate (more.headD t).kind then Level.comparison
      else if t.kind == Keyword.COLLATE then Level.collation
      else 0

/-- The tokens behind an expression do not belong to its last operand, and the operator that they start with, if any,
binds no more tightly than `level`. -/
structure Follows (level : Nat) (rest : List Token) : Prop where
  ends : ∃ t more, rest = t :: more ∧ t.kind ≠ Symbol.dot ∧ t.kind ≠ Symbol.lparen ∧ t.kind ≠ .ident
  loose : bindingLevel rest ≤ level

variable {g : Grammar} {s : ParseState} {t : Token} {more : List Token}

namespace Follows

variable {level : Nat} {rest : List Token}

theorem ne_nil (follows : Follows level rest) : rest ≠ [] := by
  obtain ⟨t, more, rfl, -⟩ := follows.ends
  exact List.cons_ne_nil t more

theorem widen {level' : Nat} (follows : Follows level rest) (le : level ≤ level') : Follows level' rest :=
  ⟨follows.ends, Nat.le_trans follows.loose le⟩

/-- No operator has the level of a prefix operator. -/
theorem below {op : UnaryOp} (follows : Follows op.level rest) : Follows (op.level - 1) rest := by
  refine ⟨follows.ends, ?_⟩
  have loose := follows.loose
  have other : bindingLevel rest ≠ op.level := by
    unfold bindingLevel
    split
    · cases op <;> decide
    · split
      · rename_i binary _
        cases op <;> cases binary <;> decide
      · repeat' split
        all_goals cases op <;> decide
  omega

theorem binary {op : BinaryOp} (isOp : BinaryOp.ofToken? t.kind = some op) (le : op.level ≤ level) :
    Follows level (t :: more) where
  ends := by
    refine ⟨t, more, rfl, ?_, ?_, ?_⟩
    all_goals
      intro kind
      rw [kind] at isOp
      cases isOp
  loose := by
    rw [bindingLevel, isOp]
    exact le

/-- What starts with a comma, a closing parenthesis or the end of the text has no operator in front. -/
theorem stop (kind : t.kind = Symbol.comma ∨ t.kind = Symbol.rparen ∨ t.kind = .eof) : Follows level (t :: more) where
  ends := by
    refine ⟨t, more, rfl, ?_⟩
    obtain kind | kind | kind := kind <;> simp [kind]
  loose := by
    obtain kind | kind | kind := kind <;> simp [bindingLevel, kind, BinaryOp.ofToken?, startsPredicate]

end Follows

/-- The tokens start with an operator of this level. -/
def Starts (level : Nat) (rest : List Token) : Prop := Follows level rest ∧ bindingLevel rest = level

theorem Starts.keyword {level : Nat} {k : Keyword} (kind : t.kind = k) (isLevel : bindingLevel (t :: more) = level) :
    Starts level (t :: more) := ⟨⟨⟨t, more, rfl, by simp [kind]⟩, Nat.le_of_eq isLevel⟩, isLevel⟩

theorem Reads.operatorLevel {rest : List Token} (any : rest ≠ []) :
    Parse.operatorLevel.Reads s rest rest (· = bindingLevel rest) := by
  obtain ⟨t, more, rfl⟩ := List.exists_cons_of_ne_nil any
  rw [operatorLevel_eq]
  exact fun stop => ⟨_, stop, rfl, rfl⟩

/-! ### Operands -/

namespace Reads

variable {rest : List Token}

theorem literal (kind : LiteralKind) (any : rest ≠ []) :
    (Parse.literal kind).Reads s (t :: rest) rest (·.bare = .literal .unset kind t.literal) :=
  .step .current (.bind (.advance any) fun _ _ => .value rfl)

/-- No method is called where no dot follows. -/
theorem methodCalls {base : Expr} (whole : base.isMissing = false) (noDot : t.kind ≠ Symbol.dot) (start : Position) :
    (Parse.methodCalls g start base).Reads s (t :: more) (t :: more) (· = base) := by
  unfold Parse.methodCalls
  rw [whole]
  refine .step (.rounds (List.cons_ne_nil t more)) ?_
  rw [List.length_cons, methodCalls.go]
  refine .step (.sees _) (.step (.seesNext _) (.bind (.seesAfterNext _) fun _ _ => ?_))
  rw [beq_false_of_ne noDot]
  exact .value rfl

variable {tokens : List Token} {negated : Bool} {left : Expr}

/-- The parts of a name behind the first, each after a dot. -/
theorem chain_go {n : Nat} {parts : List String}
    (spelled : tokens.map lexeme = parts.flatMap fun part => [.symbol .dot, .bracketed part])
    (enough : tokens.length < n) (noDot : t.kind ≠ Symbol.dot) :
    (chain.go n).Reads s (tokens ++ t :: more) (t :: more) (· = (parts, false)) := by
  induction parts generalizing n tokens with
  | nil =>
    obtain rfl : tokens = [] := by simpa using spelled
    obtain ⟨n, rfl⟩ := Nat.exists_eq_succ_of_ne_zero (Nat.ne_of_gt enough)
    rw [chain.go]
    refine .step (.sees _) ?_
    rw [beq_false_of_ne noDot]
    exact .value rfl
  | cons part parts ih =>
    obtain ⟨n, rfl⟩ := Nat.exists_eq_succ_of_ne_zero (Nat.ne_of_gt (Nat.zero_lt_of_lt enough))
    obtain ⟨dot, _, rfl, isDot, -, -, spelled⟩ := spelled_cons spelled
    obtain ⟨name, tokens, rfl, isName, literal, -, spelled⟩ := spelled_cons spelled
    rw [chain.go]
    refine .step (.sees _) ?_
    rw [show dot.kind = Symbol.dot from isDot, beq_self_eq_true, if_pos rfl]
    refine .bind .next fun st next => ?_
    have kind : st.next.kind = .ident := by rw [next]; exact isName
    rw [kind]
    refine .bind (.advance (by simp)) fun _ _ => .step (.takeLiteral (by simp)) ?_
    rw [List.length_cons, List.length_cons] at enough
    refine .step (ih spelled (by omega)) (.value ?_)
    rw [literal]
    rfl

/-- A column is read part by part. -/
theorem identExpr {first : String} {parts : List String} (quoted : t.quoted = true) (literal : t.literal = first)
    (spelled : tokens.map lexeme = parts.flatMap fun part => [.symbol .dot, .bracketed part])
    {u : Token} (noDot : u.kind ≠ Symbol.dot) (noCall : u.kind ≠ Symbol.lparen) :
    (Parse.identExpr g).Reads s (t :: (tokens ++ u :: more)) (u :: more)
      (·.bare = .column (ColumnRef.ofParts (first :: parts)).bare) := by
  unfold Parse.identExpr
  refine .bind .position fun _ _ => .step .current (.bind (.advance (by simp)) fun _ _ => ?_)
  have chained : Parse.chain.Reads s (tokens ++ u :: more) (u :: more) (· = (parts, false)) :=
    .step (.rounds (by simp)) (chain_go spelled (by simp) noDot)
  refine .step chained ?_
  dsimp only
  rw [if_neg (by simp)]
  refine .step (.sees _) ?_
  rw [beq_false_of_ne noCall, if_neg (by simp), quoted, if_neg (by simp), literal]
  exact .spanned fun _ => .value rfl

/-- The parser looks for a query behind the parenthesis first, and `noQuery` turns it down. -/
theorem parenExpr {e : Expr} {inner : List Token} {opening closing : Token} (opens : opening.kind = Symbol.lparen)
    (closes : closing.kind = Symbol.rparen) (some : inner ≠ []) (noQuery : ∀ t ∈ inner, t.lexeme.NoQuery)
    (whole : e.isMissing = false)
    (reads : g.expr.Reads s (inner ++ closing :: rest) (closing :: rest) (·.bare = e.bare)) (any : rest ≠ []) :
    (Parse.parenExpr g).Reads s (opening :: (inner ++ closing :: rest)) rest (·.bare = .paren .unset e.bare) := by
  obtain ⟨first, inner, rfl⟩ := List.exists_cons_of_ne_nil some
  obtain ⟨noSelect, noWith⟩ : first.kind ≠ Keyword.SELECT ∧ first.kind ≠ Keyword.WITH := noQuery first List.mem_cons_self
  have next : ((inner ++ closing :: rest).headD first).kind ≠ Keyword.SELECT ∧
      ((inner ++ closing :: rest).headD first).kind ≠ Keyword.WITH := by
    cases inner with
    | nil => simp [closes]
    | cons second inner => exact noQuery second (List.mem_cons_of_mem first List.mem_cons_self)
  unfold Parse.parenExpr
  rw [cons_append] at reads ⊢
  refine .bind .position fun _ _ => .bind (.require opens (by simp)) fun _ _ => ?_
  refine .step (.sees _) (.step (.sees _) (.step (.sees _) (.step (.seesNext _) (.step (.seesNext _) ?_))))
  rw [beq_false_of_ne noSelect, beq_false_of_ne noWith, beq_false_of_ne next.1, beq_false_of_ne next.2, if_neg (by simp)]
  refine .bind reads fun inner' same => ?_
  have read := Expr.isMissing_of_bare same whole
  rw [read]
  refine .bind (.require closes any) fun _ _ => .spanned fun _ => .value ?_
  rw [Expr.bare, same]

/-- A list of expressions in parentheses. -/
theorem separated_go {n : Nat} {values : List Expr} {closing : Token}
    (some : values ≠ []) (spelled : tokens.map lexeme = Expr.listLexemes values) (enough : tokens.length < n)
    (closes : closing.kind = Symbol.rparen)
    (each : ∀ e ∈ values, ∀ (tokens : List Token) (t : Token) (more : List Token), tokens.map lexeme = e.lexemes →
      t.kind = Symbol.comma ∨ t.kind = Symbol.rparen →
      g.expr.Reads s (tokens ++ t :: more) (t :: more) (·.bare = e.bare)) :
    (separated.go g.expr n).Reads s (tokens ++ closing :: rest) (closing :: rest)
      (fun es => Expr.bares es = Expr.bares values) := by
  induction values generalizing n tokens with
  | nil => exact absurd rfl some
  | cons e values ih =>
    obtain ⟨n, rfl⟩ := Nat.exists_eq_succ_of_ne_zero (Nat.ne_of_gt (Nat.zero_lt_of_lt enough))
    rw [separated.go]
    cases values with
    | nil =>
      refine .bind (each e List.mem_cons_self tokens closing rest spelled (.inr closes)) fun e' same => ?_
      refine .step (.pass (by simp [closes])) (.value ?_)
      simp [Expr.bares, same]
    | cons f values =>
      obtain ⟨first, _, rfl, spelledFirst, spelled⟩ := map_eq_append_iff.1 spelled
      obtain ⟨comma, others, rfl, isComma, -, -, spelled⟩ := spelled_cons spelled
      rw [List.length_append, List.length_cons] at enough
      rw [append_assoc, cons_append]
      refine .bind (each e List.mem_cons_self first comma _ spelledFirst (.inl isComma)) fun e' same => ?_
      refine .step (.accept isComma (by simp)) ?_
      refine .bind (ih (by simp) spelled (by omega) fun e member => each e (List.mem_cons_of_mem _ member)) fun es all => ?_
      refine .value ?_
      rw [Expr.bares, same, all]
      rfl

/-! ### Operators -/

/-- No comparison with the rows of a query starts with the token. -/
def Unquantified (t : Token) : Prop := t.kind ≠ Keyword.ALL ∧ (t.kind = .ident → t.quoted = true)

theorem isWord_eq_false {t : Token} (quoted : t.kind = .ident → t.quoted = true) (word : String) :
    t.isWord word = false := by
  unfold Token.isWord
  by_cases ident : t.kind = .ident
  · simp [quoted ident]
  · simp [ident]

theorem seesQuantifier (plain : Unquantified t) : Parse.seesQuantifier.Reads s (t :: more) (t :: more) (· = false) := by
  unfold Parse.seesQuantifier
  refine .step (.sees _) (.step (.seesWord _) (.step (.seesWord _) (.step (.seesNext _) (.value ?_))))
  rw [beq_false_of_ne plain.1, isWord_eq_false plain.2, isWord_eq_false plain.2]
  rfl

/-- The right operand is read one level tighter, so that operators of one level group to the left. -/
theorem operatorExpr_binary {op : BinaryOp} {left right : Expr}
    (isOp : BinaryOp.ofToken? t.kind = some op) (plain : ∃ u more, tokens ++ rest = u :: more ∧ Unquantified u)
    (whole : right.isMissing = false)
    (reads : (g.exprAt (op.level + 1)).Reads s (tokens ++ rest) rest (·.bare = right.bare)) :
    (operatorExpr g left op.level).Reads s (t :: (tokens ++ rest)) rest
      (·.bare = .binary .unset left.bare op right.bare) := by
  obtain ⟨u, more, same, plain⟩ := plain
  unfold operatorExpr
  refine .step .current ?_
  dsimp only
  split
  case h_7 =>
    refine .bind (.advance (by simp [same])) fun _ _ => ?_
    have quantifier : Parse.seesQuantifier.Reads s (tokens ++ rest) (tokens ++ rest) (· = false) := by
      rw [same]
      exact seesQuantifier plain
    refine .step quantifier ?_
    rw [Bool.and_false]
    refine .bind reads fun right' read => ?_
    have there := Expr.isMissing_of_bare read whole
    rw [isOp]
    dsimp only
    rw [there]
    refine .spanned fun _ => .value ?_
    rw [Expr.bare, read]
  all_goals
    rename_i kind
    rw [kind] at isOp
    cases isOp

theorem ident (isName : t.kind = .ident) (any : rest ≠ []) : Parse.ident.Reads s (t :: rest) rest (· = t.literal) := by
  refine .step (.sees _) ?_
  rw [isName, beq_self_eq_true, if_pos rfl]
  exact .takeLiteral any

theorem negation (spelled : tokens.map lexeme = Lexeme.negation negated) (other : t.kind ≠ Keyword.NOT) :
    (Parse.accept Keyword.NOT).Reads s (tokens ++ t :: more) (t :: more) (· = negated) := by
  cases negated with
  | false =>
    obtain rfl : tokens = [] := List.map_eq_nil_iff.1 spelled
    exact .pass other
  | true =>
    obtain ⟨not, rfl, isNot, -⟩ := spelled_singleton spelled
    exact .accept isNot (by simp)

/-- A predicate after an optional `NOT`. -/
theorem operatorExpr_predicate {P : Expr → Prop}
    (spelled : tokens.map lexeme = Lexeme.negation negated) (isPredicate : startsPredicate t.kind = true)
    (reads : ∀ start, (predicate g start left negated).Reads s (t :: more) rest P) (level : Nat) :
    (operatorExpr g left level).Reads s (tokens ++ t :: more) rest P := by
  unfold operatorExpr
  cases negated with
  | false =>
    obtain rfl : tokens = [] := List.map_eq_nil_iff.1 spelled
    refine .step .current ?_
    simp only [startsPredicate, Bool.or_eq_true, beq_iff_eq] at isPredicate
    obtain (kind | kind) | kind := isPredicate
    all_goals
      simp only [kind]
      exact .step (.pass (by simp [kind])) (reads _)
  | true =>
    obtain ⟨not, rfl, isNot, -⟩ := spelled_singleton spelled
    have kind : not.kind = Keyword.NOT := isNot
    refine .step .current ?_
    simp only [kind]
    exact .step (.accept kind (by simp)) (reads _)

/-- `each` is only asked in front of a comma or of the closing parenthesis. -/
theorem predicate_inList {values : List Expr}
    {opening closing : Token} (isIn : t.kind = Keyword.IN) (opens : opening.kind = Symbol.lparen)
    (closes : closing.kind = Symbol.rparen) (some : values ≠ [])
    (spelled : tokens.map lexeme = Expr.listLexemes values) (noQuery : ∀ t ∈ tokens, t.lexeme.NoQuery)
    (any : rest ≠ [])
    (each : ∀ e ∈ values, ∀ (tokens : List Token) (t : Token) (more : List Token), tokens.map lexeme = e.lexemes →
      t.kind = Symbol.comma ∨ t.kind = Symbol.rparen →
      g.expr.Reads s (tokens ++ t :: more) (t :: more) (·.bare = e.bare)) (start : Position) :
    (predicate g start left negated).Reads s (t :: opening :: (tokens ++ closing :: rest)) rest
      (·.bare = .inList .unset left.bare negated (Expr.bares values)) := by
  have list : (exprList g).Reads s (tokens ++ closing :: rest) (closing :: rest)
      (fun es => Expr.bares es = Expr.bares values) :=
    .step (.rounds (by simp)) (separated_go some spelled (by simp) closes each)
  obtain ⟨first, later, same, noSelect, noWith⟩ : ∃ first later, tokens ++ closing :: rest = first :: later ∧
      first.kind ≠ Keyword.SELECT ∧ first.kind ≠ Keyword.WITH := by
    cases tokens with
    | nil => exact ⟨closing, rest, rfl, by simp [closes]⟩
    | cons first tokens => exact ⟨first, _, rfl, noQuery first List.mem_cons_self⟩
  unfold predicate
  refine .step (.accept isIn (by simp)) ?_
  rw [if_pos rfl]
  refine .bind (.require opens (by simp)) fun _ _ => ?_
  rw [same] at list ⊢
  refine .step (.sees _) (.step (.sees _) ?_)
  rw [beq_false_of_ne noSelect, beq_false_of_ne noWith, if_neg (by simp)]
  refine .bind list fun es all => .bind (.require closes any) fun _ _ => .spanned fun _ => .value ?_
  rw [Expr.bare, all]

/-- Both bounds are read at the level of additions, above `AND`, so the first stops in front of it. -/
theorem predicate_between {left low high : Expr} {lows highs : List Token} {conj : Token}
    (isBetween : t.kind = Keyword.BETWEEN) (isAnd : conj.kind = Keyword.AND) (some : highs ++ rest ≠ [])
    (readsLow : (g.exprAt Level.addition).Reads s (lows ++ conj :: (highs ++ rest)) (conj :: (highs ++ rest))
      (·.bare = low.bare))
    (readsHigh : (g.exprAt Level.addition).Reads s (highs ++ rest) rest (·.bare = high.bare)) (start : Position) :
    (predicate g start left negated).Reads s (t :: (lows ++ conj :: (highs ++ rest))) rest
      (·.bare = .between .unset left.bare negated low.bare high.bare) := by
  unfold predicate
  refine .step (.pass (by simp [isBetween])) ?_
  rw [if_neg (by simp)]
  refine .step (.accept isBetween (by simp)) ?_
  rw [if_pos rfl]
  refine .bind readsLow fun low' sameLow => .bind (.require isAnd some) fun _ _ => ?_
  refine .bind readsHigh fun high' sameHigh => .spanned fun _ => .value ?_
  rw [Expr.bare, sameLow, sameHigh]

theorem predicate_like {left pattern : Expr} {next : Token}
    (isLike : t.kind = Keyword.LIKE) (noEscape : next.kind ≠ .ident)
    (reads : (g.exprAt Level.addition).Reads s (tokens ++ next :: more) (next :: more) (·.bare = pattern.bare))
    (start : Position) : (predicate g start left negated).Reads s (t :: (tokens ++ next :: more)) (next :: more)
      (·.bare = .like .unset left.bare negated pattern.bare none) := by
  unfold predicate
  refine .step (.pass (by simp [isLike])) ?_
  rw [if_neg (by simp)]
  refine .step (.pass (by simp [isLike])) ?_
  rw [if_neg (by simp)]
  refine .step (.accept isLike (by simp)) ?_
  rw [if_pos rfl]
  refine .bind reads fun pattern' same => ?_
  refine .step (.passWord (isWord_eq_false (fun ident => absurd ident noEscape) _)) ?_
  rw [if_neg (by simp)]
  refine .step (.value rfl) (.spanned fun _ => .value ?_)
  rw [Expr.bare, same]
  rfl

end Reads

/-! ### Trees -/

open Reads

/-- `left` is the first operand of `e`: the rounds that read the tokens behind it make it `e`, up to places, and then go
on behind `e`. -/
structure Grows (g : Grammar) (s : ParseState) (least : Nat) (e : Expr) (tail rest : List Token) (left : Expr) : Prop where
  whole : left.isMissing = false
  rounds : ∀ k, tail.length ≤ k → ∀ (final : List Token) (Q : Expr → Prop),
    (∀ k' e', k ≤ k' + tail.length → e'.bare = e.bare → (operators.go g least k' e').Reads s rest final Q) →
    (operators.go g least k left).Reads s (tail ++ rest) final Q

namespace Grows

variable {least : Nat} {e l left : Expr} {tail ops rest : List Token}

theorem operand (same : left.bare = e.bare) (whole : e.isMissing = false) : Grows g s least e [] rest left where
  whole := Expr.isMissing_of_bare same whole
  rounds k _ _ _ next := next k left (Nat.le_refl k) same

/-- One more operator behind the left operand `l`. -/
theorem operator (grows : Grows g s least l tail (ops ++ rest) left) (some : ops ≠ [])
    (tight : least ≤ bindingLevel (ops ++ rest)) (whole : e.isMissing = false)
    (reads : ∀ l', l'.bare = l.bare →
      (operatorExpr g l' (bindingLevel (ops ++ rest))).Reads s (ops ++ rest) rest (·.bare = e.bare)) :
    Grows g s least e (tail ++ ops) rest left where
  whole := grows.whole
  rounds := by
    intro k enough final Q next
    have one := List.length_pos_iff.2 some
    rw [List.length_append] at enough next
    rw [append_assoc]
    refine grows.rounds k (by omega) final Q fun k' l' le same => ?_
    obtain ⟨k', rfl⟩ : ∃ k'', k' = k'' + 1 := ⟨k' - 1, by omega⟩
    rw [operators.go]
    refine .step (.operatorLevel (List.append_ne_nil_of_left_ne_nil some rest)) ?_
    rw [if_neg (Nat.not_lt.2 tight)]
    refine .bind (reads l' same) fun e' same' => ?_
    have there := Expr.isMissing_of_bare same' whole
    rw [there]
    exact next k' e' (by omega) same'

end Grows

/-- From the tokens of the expression its first operand is read, and grows to it. -/
def ReadsBack (e : Expr) : Prop :=
  ∀ (n : Nat) (s : ParseState) (least : Nat) (tokens rest : List Token), tokens.map lexeme = e.lexemes →
    e.nesting ≤ n → s.depth + e.nesting ≤ maxDepth → least ≤ e.level → Follows e.level rest →
    ∃ tail, (signedExpr (.ofDepth n)).Reads s (tokens ++ rest) (tail ++ rest) (Grows (.ofDepth n) s least e tail rest)

variable {operand : Expr} {e : Expr}

/-- Then the whole expression is read where what follows binds less tightly. -/
theorem ReadsBack.exprAt (readsBack : ReadsBack e) {n level : Nat} {tokens rest : List Token}
    (spelled : tokens.map lexeme = e.lexemes) (deep : e.nesting < n) (shallow : s.depth + e.nesting < maxDepth)
    (tight : level < e.level) (follows : Follows level rest) :
    ((Grammar.ofDepth n).exprAt (level + 1)).Reads s (tokens ++ rest) rest (·.bare = e.bare) := by
  obtain ⟨n, rfl⟩ : ∃ m, n = m + 1 := ⟨n - 1, by omega⟩
  show (Parse.exprAt (.ofDepth n) (level + 1)).Reads s (tokens ++ rest) rest (·.bare = e.bare)
  unfold Parse.exprAt
  refine .nested (by omega) ?_
  obtain ⟨tail, reads⟩ := readsBack n { s with depth := s.depth + 1 } (level + 1) tokens rest spelled (by omega)
    (by dsimp only; omega) tight (follows.widen (Nat.le_of_lt tight))
  refine .bind reads fun left grows => ?_
  rw [grows.whole]
  refine .step (.rounds (List.append_ne_nil_of_right_ne_nil tail follows.ne_nil)) ?_
  refine grows.rounds _ (by simp) rest _ fun k e' le same => ?_
  have left := List.length_pos_iff.2 follows.ne_nil
  rw [List.length_append] at le
  obtain ⟨k, rfl⟩ : ∃ k', k = k' + 1 := ⟨k - 1, by omega⟩
  rw [operators.go]
  refine .step (.operatorLevel follows.ne_nil) ?_
  rw [if_pos (Nat.lt_succ_of_le follows.loose)]
  exact .value same

/-! #### Operands and prefix operators -/

variable {rest : List Token}

theorem signedExpr_operand {P : Expr → Prop} (notNot : t.kind ≠ Keyword.NOT)
    (noSign : t.kind ≠ Symbol.minus ∧ t.kind ≠ Symbol.plus ∧ t.kind ≠ Symbol.tilde)
    (reads : (primary g).Reads s (t :: more) rest P) : (signedExpr g).Reads s (t :: more) rest P := by
  unfold signedExpr
  refine .bind .position fun _ _ => .step .current ?_
  split
  · contradiction
  · exact absurd ‹_› noSign.1
  · exact absurd ‹_› noSign.2.1
  · exact absurd ‹_› noSign.2.2
  · exact reads

theorem signedExpr_unary {op : UnaryOp} (isOp : t.kind = op.lexeme.kind) (any : more ≠ [])
    (reads : (g.exprAt op.level).Reads s more rest (·.bare = e.bare)) :
    (signedExpr g).Reads s (t :: more) rest (·.bare = .unary .unset op e.bare) := by
  have applied (start : Position) :
      (signedExpr.applied g start op op.level).Reads s (t :: more) rest (·.bare = .unary .unset op e.bare) := by
    refine .bind (.advance any) fun _ _ => .bind reads fun e' same => .spanned fun _ => .value ?_
    rw [Expr.bare, same]
  unfold signedExpr
  refine .bind .position fun _ _ => .step .current ?_
  cases op <;> (simp only [isOp]; exact applied _)

theorem readsBack_of_operand (whole : e.isMissing = false)
    (reads : ∀ (n : Nat) (s : ParseState) (tokens rest : List Token), tokens.map lexeme = e.lexemes → e.nesting ≤ n →
      s.depth + e.nesting ≤ maxDepth → Follows e.level rest →
      (signedExpr (.ofDepth n)).Reads s (tokens ++ rest) rest (·.bare = e.bare)) : ReadsBack e :=
  fun n s _ tokens rest spelled deep shallow _ follows =>
    ⟨[], (reads n s tokens rest spelled deep shallow follows).weaken fun _ same => .operand same whole⟩

theorem readsBack_literal (span : Span) {kind : LiteralKind} (value : String)
    (written : kind = .number ∨ kind = .string) : ReadsBack (.literal span kind value) := by
  refine readsBack_of_operand rfl fun n s tokens rest spelled _ _ follows => ?_
  obtain rfl | rfl := written
  all_goals
    obtain ⟨t, rfl, kind, literal⟩ := spelled_singleton spelled
    refine signedExpr_operand (by simp [kind]) (by simp [kind]) ?_
    unfold primary
    refine .step .current ?_
    simp only [kind]
    refine (Reads.literal _ follows.ne_nil).weaken fun e same => ?_
    rw [same, literal, Expr.bare]

theorem readsBack_localVar (span : Span) (name : String) : ReadsBack (.localVar span name) := by
  refine readsBack_of_operand rfl fun n s tokens rest spelled _ _ follows => ?_
  obtain ⟨t, rfl, kind, literal⟩ := spelled_singleton spelled
  obtain ⟨u, more, rfl, noDot, -⟩ := follows.ends
  refine signedExpr_operand (by simp [kind]) (by simp [kind]) ?_
  unfold primary
  refine .step .current ?_
  simp only [kind]
  refine .bind (.advance (by simp)) fun _ _ => .spanned fun _ => ?_
  refine (Reads.methodCalls rfl noDot _).weaken fun e same => ?_
  rw [same, Expr.bare, Expr.bare, literal]

theorem readsBack_column (ref : ColumnRef) : ReadsBack (.column ref) := by
  refine readsBack_of_operand rfl fun n s tokens rest spelled _ _ follows => ?_
  obtain ⟨first, parts, whole⟩ := ref.parts_eq_cons
  rw [Expr.lexemes, whole, Lexeme.intersperse_dot] at spelled
  obtain ⟨t, tokens, rfl, kind, literal, quoted, spelled⟩ := spelled_cons spelled
  obtain ⟨u, more, rfl, noDot, noCall, -⟩ := follows.ends
  refine signedExpr_operand (by simp [kind]) (by simp [kind]) ?_
  unfold primary
  refine .step .current ?_
  simp only [kind, quoted, Lexeme.bracketed, if_true]
  refine (Reads.identExpr quoted literal spelled noDot noCall).weaken fun e same => ?_
  rw [same, Expr.bare, ← ref.ofParts_parts, whole]
  rfl

theorem ReadsBack.paren {inner : Expr} (readsBack : ReadsBack inner) (ordered : inner.Ordered) (span : Span) :
    ReadsBack (.paren span inner) := by
  refine readsBack_of_operand rfl fun n s tokens rest spelled deep shallow follows => ?_
  rw [Expr.nesting] at deep shallow
  obtain ⟨opening, _, rfl, opens, -, -, spelled⟩ := spelled_cons spelled
  obtain ⟨tokens, _, rfl, inside, spelled⟩ := map_eq_append_iff.1 spelled
  obtain ⟨closing, rfl, closes, -⟩ := spelled_singleton spelled
  obtain ⟨u, more, rfl, noDot, -⟩ := follows.ends
  have reads : (Grammar.ofDepth n).expr.Reads s (tokens ++ closing :: u :: more) (closing :: u :: more)
      (·.bare = inner.bare) :=
    readsBack.exprAt inside (by omega) (by omega) inner.level_pos (.stop (.inr (.inl closes)))
  rw [cons_append, append_assoc, cons_append, List.nil_append]
  refine signedExpr_operand (by simp [opens]) (by simp [opens]) ?_
  unfold primary
  refine .step .current ?_
  simp only [opens]
  refine .bind (Reads.parenExpr opens closes (ordered.tokens_ne_nil inside) (ordered.noQuery_tokens inside)
    ordered.isMissing reads (by simp)) fun e same => ?_
  have whole : e.isMissing = false := by rw [← Expr.isMissing_bare, same]; rfl
  refine (Reads.methodCalls whole noDot _).weaken fun e' same' => ?_
  rw [same', same, Expr.bare]

theorem ReadsBack.unary {op : UnaryOp} (readsBack : ReadsBack operand) (tight : op.level ≤ operand.level)
    (span : Span) : ReadsBack (.unary span op operand) := by
  refine readsBack_of_operand rfl fun n s tokens rest spelled deep shallow follows => ?_
  rw [Expr.nesting] at deep shallow
  obtain ⟨sign, tokens, rfl, isOp, -, -, spelled⟩ := spelled_cons spelled
  have prefixed : op.level = op.level - 1 + 1 := by cases op <;> rfl
  refine signedExpr_unary isOp (List.append_ne_nil_of_right_ne_nil tokens follows.ne_nil) ?_
  rw [prefixed]
  exact readsBack.exprAt spelled (by omega) (by omega) (by omega) (Follows.below follows)

/-! #### Operators behind an operand -/

/-- An expression that is an operand and an operator behind it, which may have operands of its own. -/
theorem ReadsBack.operator {e l : Expr} {lexemes : List Lexeme} (readsBack : ReadsBack l)
    (whole : e.isMissing = false) (spelling : e.lexemes = l.lexemes ++ lexemes) (some : lexemes ≠ [])
    (nesting : l.nesting ≤ e.nesting) (tight : e.level ≤ l.level)
    (starts : ∀ ops rest : List Token, ops.map lexeme = lexemes → Starts e.level (ops ++ rest))
    (reads : ∀ (n : Nat) (s : ParseState) (ops rest : List Token), ops.map lexeme = lexemes → e.nesting ≤ n →
      s.depth + e.nesting ≤ maxDepth → Follows e.level rest → ∀ l', l'.bare = l.bare →
      (operatorExpr (.ofDepth n) l' e.level).Reads s (ops ++ rest) rest (·.bare = e.bare)) : ReadsBack e := by
  intro n s least tokens rest spelled deep shallow least_le follows
  rw [spelling] at spelled
  obtain ⟨tokens, ops, rfl, onLeft, spelled⟩ := map_eq_append_iff.1 spelled
  obtain ⟨behind, level⟩ := starts ops rest spelled
  obtain ⟨tail, first⟩ := readsBack n s least tokens (ops ++ rest) onLeft (by omega) (by omega) (by omega)
    (behind.widen tight)
  refine ⟨tail ++ ops, ?_⟩
  rw [append_assoc, append_assoc]
  refine first.weaken fun left grows => grows.operator ?_ (by omega) whole fun l' same => ?_
  · rintro rfl
    exact some spelled.symm
  · rw [level]
    exact reads n s ops rest spelled deep shallow follows l' same

theorem ofToken?_lexeme (op : BinaryOp) : BinaryOp.ofToken? op.lexeme.kind = some op := by cases op <;> rfl

/-- The left operand grows first, then takes the operator and the right one in one more round. -/
theorem ReadsBack.binary {op : BinaryOp} {left right : Expr} (onLeft : ReadsBack left) (leftTight : op.level ≤ left.level)
    (onRight : ReadsBack right) (ordered : right.Ordered) (rightTight : op.level < right.level) (span : Span) :
    ReadsBack (.binary span left op right) := by
  have isOp {o : Token} (same : o.kind = op.lexeme.kind) : BinaryOp.ofToken? o.kind = some op := by
    rw [same, ofToken?_lexeme]
  have spelling : (Expr.binary span left op right).lexemes = left.lexemes ++ op.lexeme :: right.lexemes := by
    rw [Expr.lexemes]
  refine onLeft.operator rfl spelling (by simp) (Nat.le_max_left _ _) leftTight ?_ ?_
  · intro ops rest spelled
    obtain ⟨o, tokens, rfl, same, -⟩ := spelled_cons spelled
    refine ⟨.binary (isOp same) (Nat.le_refl _), ?_⟩
    rw [cons_append, bindingLevel, isOp same]
    rfl
  · intro n s ops rest spelled deep shallow follows l' same
    rw [Expr.nesting] at deep shallow
    obtain ⟨o, tokens, rfl, isO, -, -, spelled⟩ := spelled_cons spelled
    have reads := onRight.exprAt (s := s) (n := n) spelled (by omega) (by omega) rightTight follows
    obtain ⟨first, more, rfl, plain⟩ := ordered.tokens_eq_cons spelled
    refine (operatorExpr_binary (isOp isO) ⟨first, _, rfl, plain⟩ ordered.isMissing reads).weaken fun e' same' => ?_
    rw [same', Expr.bare, same]

theorem ReadsBack.isNull {operand : Expr} (readsBack : ReadsBack operand) (tight : Level.comparison ≤ operand.level)
    (span : Span) (negated : Bool) : ReadsBack (.isNull span operand negated) := by
  have spelling : (Expr.isNull span operand negated).lexemes =
      operand.lexemes ++ .keyword .IS :: (Lexeme.negation negated ++ [.keyword .NULL]) := by
    rw [Expr.lexemes, append_assoc, cons_append]
  refine readsBack.operator rfl spelling (by simp) (Nat.le_refl _) tight ?_ ?_
  · intro ops rest spelled
    obtain ⟨t, tokens, rfl, isIs, -⟩ := spelled_cons spelled
    exact .keyword isIs (by rw [bindingLevel, isIs]; rfl)
  · intro n s ops rest spelled _ _ follows l' same
    obtain ⟨t, _, rfl, isIs, -, -, spelled⟩ := spelled_cons spelled
    obtain ⟨nots, _, rfl, onNot, spelled⟩ := map_eq_append_iff.1 spelled
    obtain ⟨null, rfl, isNull, -⟩ := spelled_singleton spelled
    rw [cons_append, append_assoc, cons_append, List.nil_append]
    unfold operatorExpr
    refine .step .current ?_
    simp only [isIs]
    refine .bind (.advance (by simp)) fun _ _ => .step (negation onNot (by simp [isNull])) ?_
    refine .bind (.require isNull follows.ne_nil) fun _ _ => .spanned fun _ => .value ?_
    rw [Expr.bare, Expr.bare, same]

theorem ReadsBack.collate (readsBack : ReadsBack operand) (tight : Level.collation ≤ operand.level)
    (span : Span) (collation : String) : ReadsBack (.collate span operand collation) := by
  have spelling : (Expr.collate span operand collation).lexemes =
      operand.lexemes ++ [.keyword .COLLATE, .name collation] := by
    rw [Expr.lexemes]
  refine readsBack.operator rfl spelling (by simp) (Nat.le_refl _) tight ?_ ?_
  · intro ops rest spelled
    obtain ⟨t, tokens, rfl, isCollate, -⟩ := spelled_cons spelled
    exact .keyword isCollate (by rw [bindingLevel, isCollate]; rfl)
  · intro n s ops rest spelled _ _ follows l' same
    obtain ⟨t, _, rfl, isCollate, -, -, spelled⟩ := spelled_cons spelled
    obtain ⟨named, rfl, isName, literal⟩ := spelled_singleton spelled
    unfold operatorExpr
    refine .step .current ?_
    simp only [isCollate]
    refine .bind (.advance (by simp)) fun _ _ => .step (.ident isName follows.ne_nil) (.spanned fun _ => .value ?_)
    rw [Expr.bare, Expr.bare, same, literal]
    rfl

/-- A predicate is an operator of the level of comparisons, negated or not. -/
theorem follows_predicate {negated : Bool} {tokens : List Token}
    (spelled : tokens.map lexeme = Lexeme.negation negated) (isPredicate : startsPredicate t.kind = true) :
    Starts Level.comparison (tokens ++ t :: more) := by
  cases negated with
  | false =>
    obtain rfl : tokens = [] := List.map_eq_nil_iff.1 spelled
    have kinds : (t.kind = Keyword.IN ∨ t.kind = Keyword.BETWEEN) ∨ t.kind = Keyword.LIKE := by
      simpa [startsPredicate] using isPredicate
    obtain (kind | kind) | kind := kinds <;>
      exact .keyword kind (by simp [bindingLevel, kind, BinaryOp.ofToken?, startsPredicate])
  | true =>
    obtain ⟨not, rfl, isNot, -⟩ := spelled_singleton spelled
    have kind : not.kind = Keyword.NOT := isNot
    exact .keyword kind (by simp [bindingLevel, kind, BinaryOp.ofToken?, isPredicate])

/-- What the predicates share: the operand grows, an optional `NOT` is passed, and `reads` reads on behind the keyword.
-/
theorem ReadsBack.predicate {e operand : Expr} {negated : Bool} {keyword : Keyword} {lexemes : List Lexeme}
    (readsBack : ReadsBack operand) (whole : e.isMissing = false) (level : e.level = Level.comparison)
    (isPredicate : startsPredicate keyword = true)
    (spelling : e.lexemes = operand.lexemes ++ (Lexeme.negation negated ++ .keyword keyword :: lexemes))
    (nesting : operand.nesting ≤ e.nesting) (tight : Level.comparison ≤ operand.level)
    (reads : ∀ (n : Nat) (s : ParseState) (t : Token) (tokens rest : List Token), t.kind = keyword →
      tokens.map lexeme = lexemes → e.nesting ≤ n → s.depth + e.nesting ≤ maxDepth →
      Follows Level.comparison rest → ∀ start l', l'.bare = operand.bare →
      (predicate (.ofDepth n) start l' negated).Reads s (t :: (tokens ++ rest)) rest (·.bare = e.bare)) :
    ReadsBack e := by
  refine readsBack.operator whole spelling (by simp) nesting (level ▸ tight) ?_ ?_
  · intro ops rest spelled
    obtain ⟨nots, _, rfl, onNot, spelled⟩ := map_eq_append_iff.1 spelled
    obtain ⟨t, tokens, rfl, kind, -⟩ := spelled_cons spelled
    rw [append_assoc, level]
    exact follows_predicate onNot (kind ▸ isPredicate)
  · intro n s ops rest spelled deep shallow follows l' same
    obtain ⟨nots, _, rfl, onNot, spelled⟩ := map_eq_append_iff.1 spelled
    obtain ⟨t, tokens, rfl, kind, -, -, spelled⟩ := spelled_cons spelled
    rw [level] at follows
    rw [append_assoc]
    exact operatorExpr_predicate onNot (kind ▸ isPredicate)
      (fun start => reads n s t tokens rest kind spelled deep shallow follows start l' same) _

theorem le_listNesting {values : List Expr} (member : e ∈ values) : e.nesting + 1 ≤ Expr.listNesting values := by
  induction member with
  | head => exact Nat.le_max_left _ _
  | tail _ _ ih => exact Nat.le_trans ih (Nat.le_max_right _ _)

theorem ReadsBack.inList {values : List Expr} (readsBack : ReadsBack operand)
    (tight : Level.comparison ≤ operand.level) (some : values ≠ []) (ordered : ∀ e ∈ values, e.Ordered)
    (each : ∀ e ∈ values, ReadsBack e) (span : Span) (negated : Bool) :
    ReadsBack (.inList span operand negated values) := by
  have spelling : (Expr.inList span operand negated values).lexemes = operand.lexemes ++
      (Lexeme.negation negated ++ .keyword .IN :: .symbol .lparen :: (Expr.listLexemes values ++ [.symbol .rparen])) := by
    rw [Expr.lexemes]
    simp only [append_assoc, cons_append]
  refine readsBack.predicate rfl rfl rfl spelling (Nat.le_max_left _ _) tight ?_
  intro n s t tokens rest isIn spelled deep shallow follows start l' same
  rw [Expr.nesting] at deep shallow
  obtain ⟨opening, _, rfl, opens, -, -, spelled⟩ := spelled_cons spelled
  obtain ⟨tokens, _, rfl, inside, spelled⟩ := map_eq_append_iff.1 spelled
  obtain ⟨closing, rfl, closes, -⟩ := spelled_singleton spelled
  have noQuery : ∀ t ∈ tokens, t.lexeme.NoQuery := fun t member =>
    Expr.forall_mem_listLexemes (Lexeme.Proper.symbol .comma).noQuery
      (fun e member l among => ((ordered e member).proper l among).noQuery) _ (inside ▸ List.mem_map_of_mem member)
  rw [cons_append, append_assoc, cons_append, List.nil_append]
  refine (predicate_inList isIn opens closes some inside noQuery follows.ne_nil
    (fun e member tokens u more spelled kind => ?_) start).weaken fun e' same' => ?_
  · have deeper := le_listNesting member
    exact (each e member).exprAt spelled (by omega) (by omega) e.level_pos (.stop (kind.imp_right .inl))
  · rw [same', Expr.bare, same]

theorem ReadsBack.between {operand low high : Expr} (readsBack : ReadsBack operand)
    (tight : Level.comparison ≤ operand.level) (onLow : ReadsBack low) (lowTight : Level.addition ≤ low.level)
    (onHigh : ReadsBack high) (highTight : Level.addition ≤ high.level) (span : Span) (negated : Bool) :
    ReadsBack (.between span operand negated low high) := by
  have spelling : (Expr.between span operand negated low high).lexemes = operand.lexemes ++
      (Lexeme.negation negated ++ .keyword .BETWEEN :: (low.lexemes ++ .keyword .AND :: high.lexemes)) := by
    rw [Expr.lexemes]
    simp only [append_assoc, cons_append]
  refine readsBack.predicate rfl rfl rfl spelling (Nat.le_max_left _ _) tight ?_
  intro n s t tokens rest isBetween spelled deep shallow follows start l' same
  rw [Expr.nesting] at deep shallow
  obtain ⟨lows, _, rfl, spelledLow, spelled⟩ := map_eq_append_iff.1 spelled
  obtain ⟨conj, highs, rfl, isAnd, -, -, spelledHigh⟩ := spelled_cons spelled
  have isOp : BinaryOp.ofToken? conj.kind = Option.some .and := by rw [isAnd]; rfl
  rw [append_assoc, cons_append]
  refine (predicate_between isBetween isAnd (List.append_ne_nil_of_right_ne_nil highs follows.ne_nil)
    (onLow.exprAt spelledLow (by omega) (by omega) lowTight (.binary isOp (by decide)))
    (onHigh.exprAt spelledHigh (by omega) (by omega) highTight follows) start).weaken fun e' same' => ?_
  rw [same', Expr.bare, same]

theorem ReadsBack.like {operand pattern : Expr} (readsBack : ReadsBack operand)
    (tight : Level.comparison ≤ operand.level) (onPattern : ReadsBack pattern)
    (patternTight : Level.addition ≤ pattern.level) (span : Span) (negated : Bool) :
    ReadsBack (.like span operand negated pattern none) := by
  have spelling : (Expr.like span operand negated pattern none).lexemes = operand.lexemes ++
      (Lexeme.negation negated ++ .keyword .LIKE :: pattern.lexemes) := by
    rw [Expr.lexemes, append_assoc]
  refine readsBack.predicate rfl rfl rfl spelling (Nat.le_max_left _ _) tight ?_
  intro n s t tokens rest isLike spelled deep shallow follows start l' same
  rw [Expr.nesting] at deep shallow
  have reads := onPattern.exprAt (s := s) (n := n) spelled (by omega) (by omega) patternTight follows
  obtain ⟨u, more, rfl, -, -, noName⟩ := follows.ends
  refine (predicate_like isLike noName reads start).weaken fun e' same' => ?_
  rw [same', Expr.bare, same]
  rfl

end Parse

/-- Every expression that is grouped as the levels say is read back from its tokens. -/
theorem Expr.Ordered.readsBack {e : Expr} (ordered : e.Ordered) : Parse.ReadsBack e := by
  induction ordered with
  | number span value => exact Parse.readsBack_literal span value (.inl rfl)
  | string span value => exact Parse.readsBack_literal span value (.inr rfl)
  | localVar span name => exact Parse.readsBack_localVar span name
  | column ref => exact Parse.readsBack_column ref
  | paren span ordered inner => exact inner.paren ordered span
  | unary span op _ tight operand => exact operand.unary tight span
  | binary span op _ leftTight ordered rightTight left right => exact left.binary leftTight right ordered rightTight span
  | isNull span negated _ tight operand => exact operand.isNull tight span negated
  | inList span negated _ tight any all operand values => exact operand.inList tight any all values span negated
  | between span negated _ tight _ lowTight _ highTight operand low high =>
    exact operand.between tight low lowTight high highTight span negated
  | like span negated _ tight _ patternTight operand pattern =>
    exact operand.like tight pattern patternTight span negated
  | collate span collation _ tight operand => exact operand.collate tight span collation

end ColumnFlow
