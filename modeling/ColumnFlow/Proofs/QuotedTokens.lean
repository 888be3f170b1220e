import ColumnFlow.Proofs.ExpressionRoundTrip
import ColumnFlow.Proofs.TokenPositions

/-!
# Quoted texts

A text is quoted by writing it between two delimiters, with every closing delimiter in it doubled. Any text without a NUL
character can be written so and is read back, whatever follows that is not another closing delimiter; and every string
and every quoted name that is closed has been written so.
-/

namespace ColumnFlow

open Text Piece

/-- The text between the delimiters, every closing delimiter in it doubled. -/
def Piece.Quoting.write (q : Quoting) (text : String) : String :=
  String.ofList (q.opening ++ (Lexeme.doubled q.closing text.toList ++ [q.closing]))

namespace Piece

/-! ### Reading what was written -/

theorem first_opening {q : Quoting} (known : q ∈ quotings) :
    ∃ c more, q.opening = c :: more ∧ c ≠ nul ∧ ∀ lineBlank inside,
      first lineBlank c (more ++ inside) = delimited q.opening q.closing q.kind q.quoted q.fault inside := by
  simp only [quotings, List.mem_cons, List.not_mem_nil, or_false] at known
  rcases known with rfl | rfl | rfl | rfl | rfl <;> exact ⟨_, _, rfl, by decide, fun _ _ => rfl⟩

/-- A quoted text is one piece. -/
theorem cut_write {q : Quoting} (known : q ∈ quotings) {text : String} {rest : List Char} (noNul : nul ∉ text.toList)
    (single : rest.head? ≠ some q.closing) (lineBlank : Bool) :
    ∃ lineBlank', cut lineBlank 0 ((q.write text).toList ++ rest) =
      { raw := (q.write text).toList, content := .token q.kind text q.quoted } :: cut lineBlank' 0 rest := by
  obtain ⟨c, more, opening, notNul, first⟩ := first_opening known
  have written : (q.write text).toList = c :: (more ++ (Lexeme.doubled q.closing text.toList ++ [q.closing])) := by
    rw [Quoting.write, String.toList_ofList, opening, List.cons_append]
  have piece := first lineBlank (Lexeme.doubled q.closing text.toList ++ [q.closing] ++ rest)
  rw [delimited_doubled (quotings_proper q known).2.2.1 noNul single, String.ofList_toList, opening,
    List.cons_append, ← written, ← List.append_assoc] at piece
  have whole : (q.write text).toList ++ rest =
      c :: (more ++ (Lexeme.doubled q.closing text.toList ++ [q.closing]) ++ rest) := by rw [written, List.cons_append]
  rw [whole, Lexer.cut_first notNul (by rw [piece, written]), piece]
  exact ⟨_, rfl⟩

/-! ### What was read has been written -/

theorem takeDelimited_closed {closing : Char} {cs : List Char} (closed : (takeDelimited closing cs).closed = true) :
    (takeDelimited closing cs).raw = Lexeme.doubled closing (takeDelimited closing cs).literal ++ [closing] := by
  fun_induction takeDelimited closing cs with
  | case1 | case2 => simp at closed
  | case3 c notNul isClosing d cs double inner ih => simp [Lexeme.doubled, ih closed, inner]
  | case4 | case5 => rfl
  | case6 c cs notNul inside inner ih => simp [Lexeme.doubled, ih closed, inner, show c ≠ closing by simpa using inside]

theorem ofWord_ne_string (key : String) : TokenKind.ofWord key ≠ .string := by
  unfold TokenKind.ofWord
  split <;> simp

theorem first_form {lineBlank : Bool} {c : Char} {cs : List Char} {kind : TokenKind} {literal : String} {quoted : Bool}
    (content : (first lineBlank c cs).content = .token kind literal quoted) :
    TokenForm lineBlank c cs (first lineBlank c cs) := by
  unfold first at content ⊢
  split at content
  · cases content
  split at content
  · cases content
  split at content
  · cases content
  rename_i noBlank noLine noBlock
  rw [if_neg noBlank, if_neg noLine, if_neg noBlock]
  exact token_form lineBlank c cs

/-- A string or a quoted name that is closed. -/
theorem TokenForm.written {lineBlank : Bool} {c : Char} {cs : List Char} {piece : Piece}
    (form : TokenForm lineBlank c cs piece) {kind : TokenKind} {literal : String} {quoted : Bool}
    (content : piece.content = .token kind literal quoted) (delimits : kind = .string ∨ quoted = true)
    (clean : piece.fault = none) :
    ∃ q ∈ quotings, q.kind = kind ∧ q.quoted = quoted ∧ String.ofList piece.raw = q.write literal := by
  cases form with
  | @quoted opening inside closing _ _ _ known =>
    cases content
    have closed : (takeDelimited closing inside).closed = true := by
      cases isOpen : (takeDelimited closing inside).closed with
      | true => rfl
      | false => simp [delimited, isOpen] at clean
    refine ⟨_, known, rfl, rfl, ?_⟩
    rw [Quoting.write, String.toList_ofList, ← takeDelimited_closed closed]
    rfl
  | variableName =>
    unfold Piece.variableName at content
    split at content <;> cases content <;> simp at delimits
  | word =>
    unfold Piece.word at content
    dsimp only at content
    split at content <;> cases content
    · simp at delimits
    · simp [ofWord_ne_string] at delimits
  | number | symbol | illegal =>
    cases content
    simp at delimits

end Piece

theorem faults_offset_le {cursor : Cursor} {pieces : List Piece} {e : LexError} (mem : e ∈ Lexer.faults cursor pieces) :
    cursor.offset ≤ e.position.offset := by
  obtain ⟨front, piece, back, -, -, position⟩ := Lexer.mem_faults_iff.mp mem
  rw [position, Lexer.offset_position, advanceAll_offset]
  exact Nat.le_add_right _ _

/-- A quoted text in front of anything but another closing delimiter is read as one token with the text as its literal,
which ends behind the closing delimiter, and nothing is reported about it. Conversely a string or a quoted name about
which nothing is reported is in the source its literal as it is quoted. -/
theorem quoting_round_trip :
    (∀ q ∈ quotings, ∀ text rest : String, nul ∉ text.toList → rest.toList.head? ≠ some q.closing →
      ∃ t later, tokenize (q.write text ++ rest) = t :: later ∧
        t.kind = q.kind ∧ t.literal = text ∧ t.quoted = q.quoted ∧
        t.start.offset = 0 ∧ t.stop.offset = (q.write text).utf8ByteSize ∧
        ∀ e ∈ lexErrors (q.write text ++ rest), t.stop.offset ≤ e.position.offset) ∧
      ∀ source : String, ∀ t ∈ tokenize source, t.kind = .string ∨ t.quoted = true →
        (∀ e ∈ lexErrors source, e.position ≠ t.start) →
        ∃ q ∈ quotings, q.kind = t.kind ∧ q.quoted = t.quoted ∧
          Extent.slice source t.start.offset t.stop.offset = q.write t.literal := by
  constructor
  · intro q known text rest noNul single
    obtain ⟨lineBlank, cuts⟩ := cut_write known noNul single true
    have stop : (Cursor.advanceAll {} (q.write text).toList).offset = (q.write text).utf8ByteSize := by
      rw [advanceAll_offset, byteLength, String.ofList_toList, Nat.zero_add]
    rw [tokenize, lexErrors, pieces, String.toList_append, cuts]
    refine ⟨_, _, rfl, rfl, rfl, rfl, Lexer.offset_position _ _, (Lexer.offset_position _ _).trans stop, ?_⟩
    intro e mem
    rw [Lexer.offset_position]
    exact faults_offset_le mem
  · intro source t mem delimits clean
    rcases Lexer.mem_place mem with rfl | ⟨front, piece, back, split, content, start, stop⟩
    · simp [Lexer.endToken] at delimits
    obtain ⟨c, more, after, whole, raw, same, -⟩ := Lexer.cut_split split
    have noFault : piece.fault = none := by
      cases fault : piece.fault with
      | none => rfl
      | some f => exact absurd start.symm (clean ⟨_, f⟩ (Lexer.mem_faults_iff.mpr ⟨front, piece, back, split, fault, rfl⟩))
    have form := same ▸ first_form (same ▸ content)
    obtain ⟨q, known, kind, quoted, written⟩ := form.written content delimits noFault
    refine ⟨q, known, kind, quoted, ?_⟩
    rw [start, stop, Lexer.offset_position, Lexer.offset_position, advanceAll_offset, advanceAll_offset, byteLength_append,
      Nat.zero_add, Nat.zero_add, ← written]
    have text : source.toList = Lexer.rawOf front ++ piece.raw ++ after := by rw [whole, raw, List.append_assoc]
    exact slice_middle text

/-- A bracketed name with closing brackets at both its ends, and a string right behind it. -/
theorem quoting_round_trip_brackets :
    let source := "[]]a]]]'it''s'"
    (∃ t later, tokenize source = t :: later ∧ t.literal = "]a]" ∧ t.stop.offset = 7) ∧
      ∃ q ∈ quotings, q.kind = .string ∧ Extent.slice source 7 14 = q.write "it's" := by
  intro source
  let q : Quoting := ⟨['['], ']', .ident, true, .unterminatedIdent⟩
  let string : Token := ⟨.string, "it's", ⟨1, 8, 7⟩, ⟨1, 15, 14⟩, false⟩
  obtain ⟨read, written⟩ := quoting_round_trip
  constructor
  · obtain ⟨t, later, tokens, -, literal, -, -, stop, -⟩ :=
      read q (by simp [q, quotings]) "]a]" "'it''s'" (by decide) (by decide)
    exact ⟨t, later, tokens, literal, stop⟩
  · have none : lexErrors source = [] := by decide +kernel
    obtain ⟨q, known, kind, -, slice⟩ :=
      written source string (by decide +kernel) (.inl rfl) (by simp [none])
    exact ⟨q, known, kind, slice⟩

end ColumnFlow
