import ColumnFlow.Grammar.Expression
import ColumnFlow.Proofs.Bare
import ColumnFlow.Token.Piece

/-!
# Expressions as they are written

The expressions made of operands, operators and parentheses are written back, token by token. Nothing in the text tells
how operators are grouped but their levels, so only a tree that is grouped as the levels say (`Expr.Ordered`) can be read
back from its text.
-/

namespace ColumnFlow

/-- A token without its place. -/
structure Lexeme where
  kind : TokenKind
  literal : String
  quoted : Bool := false
  deriving DecidableEq, Repr

def Token.lexeme (t : Token) : Lexeme := ⟨t.kind, t.literal, t.quoted⟩

namespace Lexeme

/-! ### Spelling -/

/-- The text with each delimiter in it written twice. -/
def doubled (delimiter : Char) : List Char → List Char
  | [] => []
  | c :: rest => if c = delimiter then c :: c :: doubled delimiter rest else c :: doubled delimiter rest

/-- Whether the text is read as an identifier without delimiters, wherever it stands. -/
def isPlainName : List Char → Bool
  | [] => false
  | c :: rest =>
    Piece.isWordStart c && rest.all Piece.isWordPart &&
      let key := Text.lower (String.ofList (c :: rest))
      key != "go" && TokenKind.ofWord key == .ident

/-- How the token is written. -/
def chars (l : Lexeme) : List Char :=
  match l.kind with
  | .string => '\'' :: doubled '\'' l.literal.toList ++ ['\'']
  | .ident => if l.quoted then '[' :: doubled ']' l.literal.toList ++ [']'] else l.literal.toList
  | _ => l.literal.toList

def keyword (k : Keyword) : Lexeme := { kind := .keyword k, literal := k.text }

def symbol (s : Symbol) : Lexeme := { kind := .symbol s, literal := s.text }

def bracketed (name : String) : Lexeme := { kind := .ident, literal := name, quoted := true }

/-- A name with brackets only where it needs them. -/
def name (name : String) : Lexeme := { kind := .ident, literal := name, quoted := !isPlainName name.toList }

/-- The `NOT` in front of `IN`, `BETWEEN`, `LIKE` and `NULL`. -/
def negation (negated : Bool) : List Lexeme := if negated then [keyword .NOT] else []

end Lexeme

/-! ### Tokens of a tree -/

open Lexeme in
def BinaryOp.lexeme : BinaryOp → Lexeme
  | .or => keyword .OR
  | .and => keyword .AND
  | .eq => symbol .eq
  | .ne => symbol .ne
  | .lt => symbol .lt
  | .gt => symbol .gt
  | .le => symbol .le
  | .ge => symbol .ge
  | .add => symbol .plus
  | .sub => symbol .minus
  | .bitAnd => symbol .amp
  | .bitOr => symbol .pipe
  | .bitXor => symbol .caret
  | .mul => symbol .star
  | .div => symbol .slash
  | .mod => symbol .percent

open Lexeme in
def UnaryOp.lexeme : UnaryOp → Lexeme
  | .not => keyword .NOT
  | .minus => symbol .minus
  | .plus => symbol .plus
  | .complement => symbol .tilde

/-- The parts of a reference from the first one that is not empty. -/
def ColumnRef.parts (ref : ColumnRef) : List String :=
  [ref.database, ref.schema, ref.table].dropWhile (· == "") ++ [ref.column]

namespace Expr

open Lexeme

mutual

/-- The tokens of an expression made of operands, operators and parentheses. -/
def lexemes : Expr → List Lexeme
  | .column ref => (ref.parts.map bracketed).intersperse (symbol .dot)
  | .literal _ .number value => [{ kind := .number, literal := value }]
  | .literal _ .string value => [{ kind := .string, literal := value }]
  | .localVar _ name => [{ kind := .variableName, literal := name }]
  | .paren _ inner => symbol .lparen :: inner.lexemes ++ [symbol .rparen]
  | .unary _ op operand => op.lexeme :: operand.lexemes
  | .binary _ left op right => left.lexemes ++ op.lexeme :: right.lexemes
  | .isNull _ operand negated => operand.lexemes ++ keyword .IS :: negation negated ++ [keyword .NULL]
  | .inList _ operand negated values =>
    operand.lexemes ++ negation negated ++ keyword .IN :: symbol .lparen :: listLexemes values ++ [symbol .rparen]
  | .between _ operand negated low high =>
    operand.lexemes ++ negation negated ++ keyword .BETWEEN :: low.lexemes ++ keyword .AND :: high.lexemes
  | .like _ operand negated pattern _ => operand.lexemes ++ negation negated ++ keyword .LIKE :: pattern.lexemes
  | .collate _ operand collation => operand.lexemes ++ [keyword .COLLATE, name collation]
  | _ => []

def listLexemes : List Expr → List Lexeme
  | [] => []
  | [e] => e.lexemes
  | e :: rest => e.lexemes ++ symbol .comma :: listLexemes rest

end

/-- The text of an expression, with a space between any two tokens. -/
def text (e : Expr) : String := String.ofList ([' '].intercalate (e.lexemes.map Lexeme.chars))

end Expr

/-! ### Levels -/

/-- What needs no parentheses anywhere. -/
def Level.operand : Nat := 9

def UnaryOp.level : UnaryOp → Nat
  | .not => Level.not
  | .minus | .plus | .complement => Level.unary

namespace Expr

/-- The level of the outermost operator. -/
def level : Expr → Nat
  | .binary _ _ op _ => op.level
  | .unary _ op _ => op.level
  | .isNull .. | .inList .. | .between .. | .like .. => Level.comparison
  | .collate .. => Level.collation
  | _ => Level.operand

theorem level_pos (e : Expr) : 0 < e.level := by
  unfold level
  split
  case h_1 _ _ op _ => cases op <;> decide
  case h_2 _ op _ => cases op <;> decide
  all_goals decide

/-- The expression is made of operands, operators and parentheses, and each operand binds tightly enough for its place:
a left one at least as tightly as the operator, a right one more tightly. -/
inductive Ordered : Expr → Prop
  | number (span value) : Ordered (.literal span .number value)
  | string (span value) : Ordered (.literal span .string value)
  | localVar (span name) : Ordered (.localVar span name)
  | column (ref) : Ordered (.column ref)
  | paren (span) {inner} (ordered : Ordered inner) : Ordered (.paren span inner)
  | unary (span op) {operand} (ordered : Ordered operand) (tight : op.level ≤ operand.level) :
      Ordered (.unary span op operand)
  | binary (span op) {left right} (onLeft : Ordered left) (leftTight : op.level ≤ left.level)
      (onRight : Ordered right) (rightTight : op.level < right.level) : Ordered (.binary span left op right)
  | isNull (span negated) {operand} (ordered : Ordered operand) (tight : Level.comparison ≤ operand.level) :
      Ordered (.isNull span operand negated)
  | inList (span negated) {operand values} (ordered : Ordered operand) (tight : Level.comparison ≤ operand.level)
      (any : values ≠ []) (all : ∀ e ∈ values, Ordered e) : Ordered (.inList span operand negated values)
  | between (span negated) {operand low high} (ordered : Ordered operand) (tight : Level.comparison ≤ operand.level)
      (onLow : Ordered low) (lowTight : Level.addition ≤ low.level) (onHigh : Ordered high)
      (highTight : Level.addition ≤ high.level) : Ordered (.between span operand negated low high)
  | like (span negated) {operand pattern} (ordered : Ordered operand) (tight : Level.comparison ≤ operand.level)
      (onPattern : Ordered pattern) (patternTight : Level.addition ≤ pattern.level) :
      Ordered (.like span operand negated pattern none)
  | collate (span collation) {operand} (ordered : Ordered operand) (tight : Level.collation ≤ operand.level) :
      Ordered (.collate span operand collation)

/-! ### Depth -/

mutual

/-- How many levels the parser goes down from the expression: one for the operand of a prefix operator, the right
operand of another, the expressions of a list and what stands in parentheses, none for a left operand. -/
def nesting : Expr → Nat
  | .paren _ inner => inner.nesting + 1
  | .unary _ _ operand => operand.nesting + 1
  | .binary _ left _ right => max left.nesting (right.nesting + 1)
  | .isNull _ operand _ => operand.nesting
  | .inList _ operand _ values => max operand.nesting (listNesting values)
  | .between _ operand _ low high => max operand.nesting (max (low.nesting + 1) (high.nesting + 1))
  | .like _ operand _ pattern _ => max operand.nesting (pattern.nesting + 1)
  | .collate _ operand _ => operand.nesting
  | _ => 0

def listNesting : List Expr → Nat
  | [] => 0
  | e :: rest => max (e.nesting + 1) (listNesting rest)

end

end Expr

/-! ### Which tokens there are -/

/-- The tokens start with one that an operand can start with. -/
def Lexeme.OpenOperand (ls : List Lexeme) : Prop :=
  ∃ first more, ls = first :: more ∧ first.kind ≠ Keyword.ALL ∧ (first.kind = .ident → first.quoted = true)

theorem Lexeme.OpenOperand.append {ls : List Lexeme} (opens : OpenOperand ls) (more : List Lexeme) :
    OpenOperand (ls ++ more) := by
  obtain ⟨first, rest, rfl, head⟩ := opens
  exact ⟨first, rest ++ more, rfl, head⟩

namespace ColumnRef

theorem parts_eq_cons (ref : ColumnRef) : ∃ first more, ref.parts = first :: more :=
  List.exists_cons_of_ne_nil (List.append_ne_nil_of_right_ne_nil _ (List.cons_ne_nil _ _))

/-- A reference is read back from its parts. -/
theorem ofParts_parts (ref : ColumnRef) : (ofParts ref.parts).bare = ref.bare := by
  obtain ⟨span, database, schema, table, column⟩ := ref
  by_cases noDatabase : database = "" <;> by_cases noSchema : schema = "" <;> by_cases noTable : table = "" <;>
    simp [parts, ofParts, bare, noDatabase, noSchema, noTable]

end ColumnRef

/-- A dotted name is its first part and each other part behind a dot. -/
theorem Lexeme.intersperse_dot (first : String) (parts : List String) :
    ((first :: parts).map bracketed).intersperse (symbol .dot) =
      bracketed first :: parts.flatMap fun part => [symbol .dot, bracketed part] := by
  induction parts generalizing first with
  | nil => rfl
  | cons part parts ih => rw [List.map_cons, List.map_cons, List.intersperse_cons_cons, ← List.map_cons, ih]; rfl

/-- What holds of the tokens of some expressions and of a comma holds of the tokens of their list. -/
theorem Expr.forall_mem_listLexemes {P : Lexeme → Prop} {values : List Expr} (comma : P (.symbol .comma))
    (each : ∀ e ∈ values, ∀ l ∈ e.lexemes, P l) : ∀ l ∈ listLexemes values, P l := by
  induction values with
  | nil => exact fun _ member => absurd member List.not_mem_nil
  | cons e rest ih =>
    obtain ⟨first, others⟩ := List.forall_mem_cons.1 each
    cases rest with
    | nil => exact first
    | cons f rest => exact List.forall_mem_append.2 ⟨first, List.forall_mem_cons.2 ⟨comma, ih others⟩⟩

namespace Lexeme

/-- The words that operators are made of. -/
def operatorWords : List Keyword := [.OR, .AND, .NOT, .IS, .NULL, .IN, .BETWEEN, .LIKE, .COLLATE]

/-- The tokens that expressions are made of. -/
inductive Proper : Lexeme → Prop
  | number (value) : Proper { kind := .number, literal := value }
  | string (value) : Proper { kind := .string, literal := value }
  | localVar (name) : Proper { kind := .variableName, literal := name }
  | bracketed (name) : Proper (bracketed name)
  | name (name) : Proper (Lexeme.name name)
  | symbol (s) : Proper (symbol s)
  | keyword {k} (operator : k ∈ operatorWords) : Proper (keyword k)

theorem Proper.binaryOp (op : BinaryOp) : op.lexeme.Proper := by
  cases op
  case or | and => exact .keyword (by decide)
  all_goals exact .symbol _

theorem Proper.unaryOp (op : UnaryOp) : op.lexeme.Proper := by
  cases op
  case not => exact .keyword (by decide)
  all_goals exact .symbol _

theorem Proper.negation (negated : Bool) : ∀ l ∈ negation negated, l.Proper := by
  cases negated
  · exact fun _ member => absurd member List.not_mem_nil
  · exact List.forall_mem_singleton.2 (.keyword (by decide))

/-- The token starts no query. -/
def NoQuery (l : Lexeme) : Prop := l.kind ≠ Keyword.SELECT ∧ l.kind ≠ Keyword.WITH

theorem Proper.noQuery {l : Lexeme} (proper : l.Proper) : l.NoQuery := by
  cases proper with
  | number | string | localVar | bracketed | name | symbol => exact ⟨nofun, nofun⟩
  | @keyword k operator =>
    have other : k ≠ .SELECT ∧ k ≠ .WITH := by
      constructor <;> rintro rfl <;> exact absurd operator (by decide)
    simpa [NoQuery, Lexeme.keyword] using other

end Lexeme

namespace Expr.Ordered

variable {e : Expr} (ordered : e.Ordered)

include ordered

theorem isMissing : e.isMissing = false := by cases ordered <;> rfl

theorem opens : Lexeme.OpenOperand e.lexemes := by
  induction ordered with
  | number | string | localVar => exact ⟨_, _, rfl, nofun, nofun⟩
  | column ref =>
    obtain ⟨first, more, parts⟩ := ref.parts_eq_cons
    rw [lexemes, parts, Lexeme.intersperse_dot]
    exact ⟨_, _, rfl, nofun, fun _ => rfl⟩
  | paren => exact ⟨_, _, rfl, nofun, nofun⟩
  | unary span op => exact ⟨_, _, rfl, by cases op <;> simp [UnaryOp.lexeme, Lexeme.keyword, Lexeme.symbol]⟩
  | binary _ _ _ _ _ _ left _ => exact left.append _
  | isNull _ _ _ _ operand => exact (operand.append _).append _
  | inList _ _ _ _ _ _ operand _ | between _ _ _ _ _ _ _ _ operand _ _ => exact ((operand.append _).append _).append _
  | like _ _ _ _ _ _ operand _ => exact (operand.append _).append _
  | collate _ _ _ _ operand => exact operand.append _

/-- By induction on the tree, one case for each kind of expression. -/
theorem proper : ∀ l ∈ e.lexemes, l.Proper := by
  have word (k : Keyword) (operator : k ∈ Lexeme.operatorWords) : (Lexeme.keyword k).Proper := .keyword operator
  induction ordered with
  | number _ value => exact List.forall_mem_singleton.2 (.number value)
  | string _ value => exact List.forall_mem_singleton.2 (.string value)
  | localVar _ name => exact List.forall_mem_singleton.2 (.localVar name)
  | column ref =>
    obtain ⟨first, more, parts⟩ := ref.parts_eq_cons
    rw [lexemes, parts, Lexeme.intersperse_dot, List.forall_mem_cons, List.forall_mem_flatMap]
    refine ⟨.bracketed first, fun part _ => ?_⟩
    exact List.forall_mem_cons.2 ⟨.symbol _, List.forall_mem_singleton.2 (.bracketed part)⟩
  | paren _ _ inner => simpa [lexemes, or_imp, forall_and, Lexeme.Proper.symbol] using inner
  | unary _ op _ _ operand => exact List.forall_mem_cons.2 ⟨.unaryOp op, operand⟩
  | binary _ op _ _ _ _ left right =>
    exact List.forall_mem_append.2 ⟨left, List.forall_mem_cons.2 ⟨.binaryOp op, right⟩⟩
  | isNull _ negated _ _ operand =>
    simpa [lexemes, or_imp, forall_and] using
      ⟨operand, word .IS (by decide), Lexeme.Proper.negation negated, word .NULL (by decide)⟩
  | inList _ negated _ _ _ _ operand values =>
    have list := forall_mem_listLexemes (.symbol .comma) values
    simpa [lexemes, or_imp, forall_and, Lexeme.Proper.symbol] using
      ⟨operand, Lexeme.Proper.negation negated, word .IN (by decide), list⟩
  | between _ negated _ _ _ _ _ _ operand low high =>
    simpa [lexemes, or_imp, forall_and] using
      ⟨operand, Lexeme.Proper.negation negated, word .BETWEEN (by decide), low, word .AND (by decide), high⟩
  | like _ negated _ _ _ _ operand pattern =>
    simpa [lexemes, or_imp, forall_and] using
      ⟨operand, Lexeme.Proper.negation negated, word .LIKE (by decide), pattern⟩
  | collate _ collation _ _ operand =>
    simpa [lexemes, or_imp, forall_and, Lexeme.Proper.name] using ⟨operand, word .COLLATE (by decide)⟩

variable {tokens : List Token} (spelled : tokens.map Token.lexeme = e.lexemes)

include spelled

theorem noQuery_tokens : ∀ t ∈ tokens, t.lexeme.NoQuery :=
  fun _ member => (ordered.proper _ (spelled ▸ List.mem_map_of_mem member)).noQuery

theorem tokens_eq_cons :
    ∃ first more, tokens = first :: more ∧ first.kind ≠ Keyword.ALL ∧ (first.kind = .ident → first.quoted = true) := by
  obtain ⟨l, ls, same, head⟩ := ordered.opens
  obtain ⟨first, more, rfl, rfl, -⟩ := List.map_eq_cons_iff.1 (spelled.trans same)
  exact ⟨first, more, rfl, head⟩

theorem tokens_ne_nil : tokens ≠ [] := by
  obtain ⟨first, more, rfl, -⟩ := ordered.tokens_eq_cons spelled
  exact List.cons_ne_nil first more

end Expr.Ordered

namespace Expr

theorem listNesting_le {values : List Expr} (each : ∀ e ∈ values, e.nesting < e.lexemes.length) :
    listNesting values ≤ (listLexemes values).length := by
  induction values with
  | nil => exact Nat.le_refl 0
  | cons e values ih =>
    obtain ⟨first, each⟩ := List.forall_mem_cons.1 each
    have others := ih each
    cases values with
    | nil => exact Nat.max_le.2 ⟨first, Nat.zero_le _⟩
    | cons f values =>
      rw [listNesting, listLexemes, List.length_append, List.length_cons]
      · omega
      · exact List.cons_ne_nil f values

/-- The parser goes down no further than there are tokens. -/
theorem Ordered.nesting_lt {e : Expr} (ordered : e.Ordered) : e.nesting < e.lexemes.length := by
  induction ordered with
  | number | string | localVar => exact Nat.zero_lt_one
  | column ref =>
    obtain ⟨first, more, same, -⟩ := (Ordered.column ref).opens
    rw [same]
    exact Nat.zero_lt_succ _
  | inList _ _ _ _ _ _ operand values =>
    have list := listNesting_le values
    simp only [nesting, lexemes, List.length_append, List.length_cons]
    omega
  | paren | unary | binary | isNull | between | like | collate =>
    simp only [nesting, lexemes, List.length_append, List.length_cons]
    omega

end Expr

end ColumnFlow
