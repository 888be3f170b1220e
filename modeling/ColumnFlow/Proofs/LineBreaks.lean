import ColumnFlow.Proofs.QuotedTokens

/-!
# Texts put together at a line break

What stands behind a line break is lexed as if it stood alone, and what stands in front of it as if nothing followed. Only
separators are recognized by what stands around a word, and that is no more than the rest of its line.
-/

namespace ColumnFlow

open Text Piece

/-! ### Separators -/

/-- What stands on a line in front of a place, the nearest character first. -/
def lineBefore (read : List Char) : List Char := read.reverse.takeWhile (· != '\n')

/-- What stands on a line from a place on. -/
def lineFrom (rest : List Char) : List Char := rest.takeWhile (· != '\n')

/-- Whether the word in front of `after` separates batches: it reads `GO`, has only blanks before it on its line, and
behind it blanks, a count or a comment. -/
def separatesAt (before after : List Char) : Bool :=
  Text.lower (String.ofList (after.takeWhile isWordPart)) == "go" && before.all isLineBlank &&
    endsLine (after.dropWhile isWordPart)

namespace Piece

/-- What stands on other lines makes no difference. -/
theorem separatesAt_lineFrom (before rest : List Char) : separatesAt before (lineFrom rest) = separatesAt before rest := by
  have split := List.takeWhile_append_dropWhile (p := (· != '\n')) (l := rest)
  have stops := List.head?_dropWhile_not (· != '\n') rest
  cases behind : rest.dropWhile (· != '\n') with
  | nil => rw [lineFrom, ← congrArg (separatesAt before) split, behind, List.append_nil]
  | cons c more =>
    rw [behind] at split stops
    obtain rfl : c = '\n' := by simpa using stops
    rw [← congrArg (separatesAt before) split, separatesAt, separatesAt, takeWhile_append_stop (by decide),
      dropWhile_append_stop (by decide), endsLine_append]
    rfl

theorem lineBlankAfterAll_eq (read : List Char) : lineBlankAfterAll true read = (lineBefore read).all isLineBlank := by
  rw [lineBefore, ← List.reverse_reverse read, List.reverse_reverse read.reverse]
  induction read.reverse with
  | nil => rfl
  | cons c cs ih =>
    rw [List.reverse_cons, Lexer.lineBlankAfterAll_append, ih, List.takeWhile_cons]
    by_cases newline : c = '\n'
    · simp [lineBlankAfterAll, lineBlankAfter, newline]
    · simp [lineBlankAfterAll, lineBlankAfter, newline, Bool.and_comm]

/-- A word that reads like `go` starts as words do, and not like a quoted text. -/
theorem starts_of_lowerChar {c : Char} (isG : lowerChar c = 'g') : isWordStart c = true ∧ c ≠ 'N' ∧ c ≠ 'n' := by
  by_cases ascii : c.toNat < 128
  · have all : ∀ n < 128, lowerChar (Char.ofNat n) = 'g' →
        isWordStart (Char.ofNat n) = true ∧ Char.ofNat n ≠ 'N' ∧ Char.ofNat n ≠ 'n' := by decide +kernel
    simpa using all c.toNat ascii (by simpa using isG)
  · refine ⟨by simp [isWordStart, isLetter, Nat.le_of_not_lt ascii], ?_, ?_⟩ <;> rintro rfl <;> exact ascii (by decide)

theorem ofWord_ne_separator (key : String) : TokenKind.ofWord key ≠ .separator := by
  unfold TokenKind.ofWord
  split <;> simp

/-- A separator is cut exactly where a line holds nothing else; every other form of a piece is another kind of token. -/
theorem first_separates_iff (before : List Char) (c : Char) (cs : List Char) :
    (∃ literal quoted, (first (before.all isLineBlank) c cs).content = .token .separator literal quoted) ↔
      separatesAt before (c :: cs) = true := by
  constructor
  · rintro ⟨literal, quoted, content⟩
    have form := first_form content
    generalize first (before.all isLineBlank) c cs = piece at form content
    cases form with
    | quoted known =>
      cases content
      have kinds : ∀ q ∈ quotings, q.kind ≠ .separator := by simp [quotings]
      exact absurd rfl (kinds _ known)
    | variableName =>
      unfold Piece.variableName at content
      split at content <;> cases content
    | word =>
      unfold Piece.word at content
      dsimp only at content
      split at content
      · assumption
      · exact absurd (PieceContent.token.inj content).1 (ofWord_ne_separator _)
    | number | symbol | illegal => cases content
  · intro separates
    unfold separatesAt at separates
    have spelled : lower (String.ofList ((c :: cs).takeWhile isWordPart)) = "go" := by
      simp only [Bool.and_eq_true, beq_iff_eq] at separates
      exact separates.1.1
    have isG : lowerChar c = 'g' := by
      have chars := congrArg String.toList spelled
      rw [lower, String.toList_map, String.toList_ofList, List.takeWhile_cons] at chars
      split at chars
      · exact (List.cons.inj chars).1
      · cases chars
    obtain ⟨starts, notN, notn⟩ := starts_of_lowerChar isG
    rw [first_eq_word _ starts (by simp [notN, notn]), word, if_pos separates]
    exact ⟨_, _, rfl⟩

end Piece

/-! ### Places of tokens -/

theorem split_unique {a b a' b' : List Char} (same : a ++ b = a' ++ b') (length : byteLength a = byteLength a') :
    a = a' ∧ b = b' := by
  have front := takeBytes_append a b
  rw [same, length, takeBytes_append] at front
  subst front
  exact ⟨rfl, List.append_cancel_left same⟩

/-- Whether a token is a separator shows on its line. -/
theorem separator_iff {source : String} {t : Token} (mem : t ∈ tokenize source) {read rest : List Char}
    (whole : source.toList = read ++ rest) (start : t.start.offset = byteLength read) :
    t.kind = .separator ↔ separatesAt (lineBefore read) (lineFrom rest) = true := by
  rw [separatesAt_lineFrom]
  rcases Lexer.mem_place mem with rfl | ⟨front, piece, back, split, content, start', -⟩
  · obtain ⟨rest', whole', ends⟩ := Lexer.cut_raw true source.toList
    rw [Lexer.endToken, Lexer.offset_position, advanceAll_offset, Nat.zero_add] at start
    obtain ⟨-, rfl⟩ := split_unique (whole'.symm.trans whole) start
    have noWord : rest'.takeWhile isWordPart = [] := by
      cases rest' with
      | nil => rfl
      | cons c rest' =>
        obtain rfl := ends c rfl
        rfl
    have noGo : (lower (String.ofList []) == "go") = false := by decide +kernel
    rw [separatesAt, noWord, noGo]
    simp [Lexer.endToken]
  · obtain ⟨c, more, after, whole', raw, same, -⟩ := Lexer.cut_split split
    rw [start', Lexer.offset_position, advanceAll_offset, Nat.zero_add] at start
    obtain ⟨rfl, rfl⟩ := split_unique (whole'.symm.trans whole) start
    rw [lineBlankAfterAll_eq] at same
    rw [List.cons_append, ← first_separates_iff, ← same, content]
    constructor
    · exact fun separator => ⟨_, _, by rw [separator]⟩
    · rintro ⟨_, _, other⟩
      exact (PieceContent.token.inj other).1

/-! ### Putting texts together -/

/-- What of a token does not depend on what follows it. -/
def Token.face (t : Token) : TokenKind × String × Bool × Position := (t.kind, t.literal, t.quoted, t.start)

theorem Lexer.SameTokens.face {tokens tokens' : List Token} (same : SameTokens tokens tokens') :
    tokens'.map Token.face = tokens.map Token.face := by
  induction same with
  | nil | last => rfl
  | cons t _ _ ih => rw [List.map_cons, List.map_cons, ih]

/-- Behind a text without errors and NUL characters a line break ends all its tokens: they are followed by the tokens of
the text behind the line break, moved down, and the errors are those of that text. Whether a token is a separator depends
only on its own line. -/
theorem tokenize_append_line :
    (∀ first second : String, lexErrors first = [] → nul ∉ first.toList →
      let lines := 1 + first.toList.count '\n'
      let bytes := first.utf8ByteSize + 1
      (∃ front, tokenize (first ++ "\n" ++ second) = front ++ (tokenize second).map (Lexer.movedToken lines bytes) ∧
          front.map Token.face = (tokenize first).dropLast.map Token.face) ∧
        lexErrors (first ++ "\n" ++ second) = (lexErrors second).map (Lexer.movedError lines bytes)) ∧
      ∀ source : String, ∀ t ∈ tokenize source, ∀ read rest, source.toList = read ++ rest →
        t.start.offset = byteLength read →
        (t.kind = .separator ↔ separatesAt (lineBefore read) (lineFrom rest) = true) := by
  refine ⟨?_, fun source t mem read rest whole start => separator_iff mem whole start⟩
  intro first second clean noNul lines bytes
  have text : (first ++ "\n" ++ second).toList = first.toList ++ '\n' :: second.toList := by simp
  obtain ⟨tokens, tokens', same, left, right, errors⟩ := Lexer.place_append {} true first.toList second.toList noNul clean
  have cursor : (Cursor.advanceAll {} first.toList).advance '\n' = Lexer.movedCursor lines bytes {} := by
    rw [Lexer.advance_newline, Lexer.advanceAll_line, advanceAll_offset, byteLength, String.ofList_toList, Nat.zero_add]
  rw [cursor, Lexer.place_moved] at right
  rw [cursor, Lexer.faults_moved] at errors
  refine ⟨⟨tokens', ?_, ?_⟩, ?_⟩
  · rw [tokenize, pieces, text]
    exact right
  · rw [same.face, tokenize, pieces, left, List.dropLast_concat]
  · rw [lexErrors, pieces, text]
    exact errors

/-- A separator behind a line break, with a count behind it. -/
theorem tokenize_append_line_separator :
    let second := " go 2\ngo x"
    let go : Token := ⟨.separator, "go", ⟨2, 2, 3⟩, ⟨3, 0, 7⟩, false⟩
    (∃ front, tokenize ("x" ++ "\n" ++ second) = front ++ (tokenize second).map (Lexer.movedToken 1 2) ∧
        front.map Token.face = [(.ident, "x", false, ⟨1, 1, 0⟩)]) ∧
      go ∈ tokenize ("x" ++ "\n" ++ second) ∧ (go.kind = .separator ↔ separatesAt [' '] "go 2".toList = true) := by
  intro second go
  obtain ⟨append, separators⟩ := tokenize_append_line
  have clean : lexErrors "x" = [] := by decide +kernel
  have mem : go ∈ tokenize ("x" ++ "\n" ++ second) := by decide +kernel
  obtain ⟨⟨front, tokens, faces⟩, -⟩ := append "x" second clean (by decide)
  have line := separators _ go mem "x\n ".toList "go 2\ngo x".toList (by decide) (by decide)
  exact ⟨⟨front, tokens, faces.trans (by decide +kernel)⟩, mem, line⟩

end ColumnFlow
