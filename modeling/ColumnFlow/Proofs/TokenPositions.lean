import ColumnFlow.Lineage.Dynamic
import ColumnFlow.Proofs.FrontMatterComment

/-!
# Positions are a function of the offset

Lines and columns are counted while a text is read. Every token and every error comes from one piece of the text, and its
positions are those of places in the text: of the beginning of the piece and of its end. The line of a place is one more
than the line feeds up to it, itself included, and its column is counted from the last of them. So positions are ordered
by line and column as they are by offset.
-/

namespace ColumnFlow

open Text Piece

namespace Lexer

/-! ### Pieces behind others -/

/-- The characters of some pieces. -/
def rawOf (pieces : List Piece) : List Char := pieces.flatMap (·.raw)

theorem rawOf_cons (piece : Piece) (pieces : List Piece) : rawOf (piece :: pieces) = piece.raw ++ rawOf pieces := rfl

/-- A piece is the first one of what stands behind the pieces in front of it. -/
theorem cut_split {lineBlank : Bool} {text : List Char} {front back : List Piece} {piece : Piece}
    (split : cut lineBlank 0 text = front ++ piece :: back) :
    ∃ c more after, text = rawOf front ++ (c :: more ++ after) ∧ piece.raw = c :: more ∧
      piece = Piece.first (lineBlankAfterAll lineBlank (rawOf front)) c (more ++ after) ∧
      back = cut (lineBlankAfterAll lineBlank (rawOf front ++ piece.raw)) 0 after := by
  induction front generalizing lineBlank text with
  | nil =>
    obtain ⟨c, more, after, -, rfl, raw, same, rfl⟩ := cut_eq_cons split
    exact ⟨c, more, after, rfl, raw, same, by rw [raw]; rfl⟩
  | cons first front ih =>
    obtain ⟨c, more, after, -, rfl, raw, -, later⟩ := cut_eq_cons split
    obtain ⟨d, more', after', whole, raw', same, behind⟩ := ih later.symm
    refine ⟨d, more', after', ?_, raw', ?_, ?_⟩
    · rw [rawOf_cons, raw, whole, List.append_assoc]
      rfl
    · rw [rawOf_cons, raw, lineBlankAfterAll_append]
      exact same
    · rw [rawOf_cons, raw, List.append_assoc, lineBlankAfterAll_append]
      exact behind

/-- What follows a piece starts like the text behind it. -/
theorem position_following_cut (cursor : Cursor) (lineBlank : Bool) (text : List Char) :
    cursor.position (following (cut lineBlank 0 text)) = cursor.position text := by
  cases text with
  | nil => rfl
  | cons c text =>
    by_cases isNul : c = nul
    · subst isNul
      rfl
    · rw [position_following cursor lineBlank isNul, position_head cursor c [] text]

theorem position_end (cursor : Cursor) {rest : List Char} (ends : EndsText rest) :
    cursor.position [] = cursor.position rest := by
  cases rest with
  | nil => rfl
  | cons c rest =>
    obtain rfl := ends c rfl
    rfl

/-- The pieces are the text up to its end. -/
theorem cut_raw (lineBlank : Bool) (text : List Char) :
    ∃ rest, text = rawOf (cut lineBlank 0 text) ++ rest ∧ EndsText rest := by
  induction pieces : cut lineBlank 0 text generalizing lineBlank text with
  | nil =>
    refine ⟨text, rfl, fun c first => ?_⟩
    obtain ⟨more, rfl⟩ := List.head?_eq_some_iff.mp first
    exact Decidable.byContradiction fun notNul => by simp [cut, notNul] at pieces
  | cons piece back ih =>
    obtain ⟨c, more, after, whole, raw, -, behind⟩ := cut_split (show _ = [] ++ _ from pieces)
    obtain ⟨rest, later, ends⟩ := ih _ after behind.symm
    refine ⟨rest, ?_, ends⟩
    rw [whole, rawOf_cons, raw, List.append_assoc, ← later]
    rfl

/-- A token is a piece behind others, or stands for the end of the text. -/
theorem mem_place {cursor : Cursor} {pieces : List Piece} {t : Token} (mem : t ∈ place cursor pieces) :
    t = endToken (cursor.advanceAll (rawOf pieces)) ∨
      ∃ front piece back, pieces = front ++ piece :: back ∧ piece.content = .token t.kind t.literal t.quoted ∧
        t.start = (cursor.advanceAll (rawOf front)).position piece.raw ∧
        t.stop = (cursor.advanceAll (rawOf front ++ piece.raw)).position (following back) := by
  induction pieces generalizing cursor with
  | nil => exact .inl (List.mem_singleton.mp mem)
  | cons piece rest ih =>
    have either : (piece.content = .token t.kind t.literal t.quoted ∧ t.start = cursor.position piece.raw ∧
        t.stop = (cursor.advanceAll piece.raw).position (following rest)) ∨
          t ∈ place (cursor.advanceAll piece.raw) rest := by
      simp only [place] at mem
      split at mem
      · rename_i content
        rcases List.mem_cons.mp mem with rfl | mem
        · exact .inl ⟨content, rfl, rfl⟩
        · exact .inr mem
      · exact .inr mem
    rcases either with ⟨content, start, stop⟩ | mem
    · exact .inr ⟨[], piece, rest, rfl, content, start, stop⟩
    · rcases ih mem with same | ⟨front, later, back, rfl, content, start, stop⟩
      · exact .inl (by rw [same, rawOf_cons, advanceAll_append])
      · rw [← advanceAll_append] at start stop
        exact .inr ⟨piece :: front, later, back, rfl, content, start, by rw [stop, rawOf_cons, List.append_assoc]⟩

/-- The errors are those of the pieces, each at the beginning of its piece. -/
theorem mem_faults_iff {cursor : Cursor} {pieces : List Piece} {e : LexError} :
    e ∈ faults cursor pieces ↔ ∃ front piece back, pieces = front ++ piece :: back ∧ piece.fault = some e.fault ∧
      e.position = (cursor.advanceAll (rawOf front)).position piece.raw := by
  induction pieces generalizing cursor with
  | nil => simp [faults]
  | cons piece rest ih =>
    have split : e ∈ faults cursor (piece :: rest) ↔
        (piece.fault = some e.fault ∧ e.position = cursor.position piece.raw) ∨
          e ∈ faults (cursor.advanceAll piece.raw) rest := by
      obtain ⟨position, fault⟩ := e
      cases own : piece.fault <;> simp [faults, own, and_comm, eq_comm]
    rw [split, ih]
    constructor
    · rintro (⟨fault, position⟩ | ⟨front, later, back, rfl, fault, position⟩)
      · exact ⟨[], piece, rest, rfl, fault, position⟩
      · exact ⟨piece :: front, later, back, rfl, fault, by rw [position, rawOf_cons, advanceAll_append]⟩
    · rintro ⟨_ | ⟨first, front⟩, later, back, same, fault, position⟩
      · obtain ⟨rfl, rfl⟩ := List.cons.inj same
        exact .inl ⟨fault, position⟩
      · obtain ⟨rfl, rfl⟩ := List.cons.inj same
        exact .inr ⟨front, later, back, rfl, fault, by rw [position, rawOf_cons, advanceAll_append]⟩

end Lexer

/-! ### Line feeds -/

/-- The indexes below the bound at which the bytes of the text are line feeds. -/
def lineFeedsBelow (source : String) (bound : Nat) : List Nat :=
  (List.range bound).filter fun i => source.toByteArray.data[i]? == some 10

/-- The indexes of the line feeds up to the offset, a line feed at the offset included. -/
def lineFeeds (source : String) (offset : Nat) : List Nat := lineFeedsBelow source (offset + 1)

/-- The last of some indexes, or -1 if there are none. -/
def lastIndex (indexes : List Nat) : Int := (indexes.getLast?.map Int.ofNat).getD (-1)

@[simp] theorem lastIndex_concat (indexes : List Nat) (i : Nat) : lastIndex (indexes ++ [i]) = i := by simp [lastIndex]

/-- A line feed is no byte of another character. -/
theorem lineFeed_notMem {c : Char} (other : c ≠ '\n') : (10 : UInt8) ∉ String.utf8EncodeChar c := by
  have value : c.val.toNat ≠ 10 := fun same => other (Char.ext (UInt32.toNat.inj same))
  have apart : ∀ {n : Nat}, n ≠ 10 → n < 256 → (10 : UInt8) ≠ UInt8.ofNat n := by
    intro n different bound same
    have values := congrArg UInt8.toNat same
    rw [UInt8.toNat_ofNat', Nat.mod_eq_of_lt bound] at values
    exact different values.symm
  rw [String.utf8EncodeChar]
  repeat' split
  all_goals
    simp only [List.mem_cons, List.not_mem_nil, or_false, not_or]
    and_intros
  all_goals exact apart (by omega) (by omega)

theorem byteLength_eq (cs : List Char) : byteLength cs = (cs.flatMap String.utf8EncodeChar).length := by
  induction cs with
  | nil => rfl
  | cons c cs ih => simp [ih]

variable {source : String} {read rest : List Char}

/-- The byte behind some characters belongs to what follows them. -/
theorem byte_behind (whole : source.toList = read ++ rest) (k : Nat) :
    source.toByteArray.data[byteLength read + k]? = (rest.flatMap String.utf8EncodeChar)[k]? := by
  have bytes : source.toByteArray.data = (source.toList.flatMap String.utf8EncodeChar).toArray := by
    rw [← String.ofList_toList (s := source), String.toByteArray_ofList, String.toList_ofList]
    exact List.data_toByteArray
  rw [bytes, whole, List.flatMap_append, List.getElem?_toArray, byteLength_eq,
    List.getElem?_append_right (Nat.le_add_right _ _), Nat.add_sub_cancel_left]

/-- Up to and into a character there are as many line feeds as in front of it, and the character itself if it is one. -/
theorem lineFeedsBelow_char {c : Char}
    (whole : source.toList = read ++ c :: rest) {m : Nat} (pos : 0 < m) (le : m ≤ c.utf8Size) :
    lineFeedsBelow source (byteLength read + m) =
      lineFeedsBelow source (byteLength read) ++ if c = '\n' then [byteLength read] else [] := by
  have byte {k : Nat} (lt : k < m) : source.toByteArray.data[byteLength read + k]? = (String.utf8EncodeChar c)[k]? := by
    rw [byte_behind whole, List.flatMap_cons,
      List.getElem?_append_left (by rw [String.length_utf8EncodeChar]; exact Nat.lt_of_lt_of_le lt le)]
  rw [lineFeedsBelow, List.range_add, List.filter_append]
  refine congrArg (lineFeedsBelow source _ ++ ·) ?_
  by_cases newline : c = '\n'
  · subst newline
    obtain rfl : m = 1 := Nat.le_antisymm le pos
    have feed := byte pos
    rw [Nat.add_zero] at feed
    simpa using feed.trans (show (String.utf8EncodeChar '\n')[0]? = some 10 from rfl)
  · rw [if_neg newline, List.filter_eq_nil_iff]
    intro i mem
    obtain ⟨k, lt, rfl⟩ := List.mem_map.mp mem
    rw [byte (List.mem_range.mp lt)]
    simpa using fun same => lineFeed_notMem newline (List.mem_of_getElem? same)

/-- The line and the column are counted from the line feeds. -/
structure Counted (feeds : List Nat) (line column offset : Nat) : Prop where
  line : line = 1 + feeds.length
  column : (column : Int) = offset - lastIndex feeds

/-- Step by step over the characters: a line feed starts a line, and any other character widens the column. -/
theorem advanceAll_counted {before read rest : List Char} (whole : source.toList = before ++ (read ++ rest))
    {cursor : Cursor} (offset : cursor.offset = byteLength before)
    (counted : Counted (lineFeedsBelow source cursor.offset) cursor.line cursor.column cursor.offset) :
    let after := cursor.advanceAll read
    Counted (lineFeedsBelow source after.offset) after.line after.column after.offset := by
  induction read generalizing before cursor with
  | nil => exact counted
  | cons c read ih =>
    refine @ih (before ++ [c]) (by simpa using whole) (cursor.advance c) ?_ ?_
    · rw [byteLength_append, ← offset, Cursor.advance]
      split <;> simp
    · have feeds := lineFeedsBelow_char whole c.utf8Size_pos (Nat.le_refl _)
      rw [← offset] at feeds
      obtain ⟨line, column⟩ := counted
      unfold Cursor.advance
      split
      · rename_i newline
        rw [if_pos newline] at feeds
        simp only [feeds]
        refine ⟨by simp [line]; omega, ?_⟩
        rw [lastIndex_concat, newline, show '\n'.utf8Size = 1 from rfl]
        omega
      · rename_i other
        rw [if_neg other, List.append_nil] at feeds
        simp only [feeds]
        exact ⟨line, by omega⟩

/-- The position of a place is counted from the line feeds up to it. -/
theorem position_counted (whole : source.toList = read ++ rest) : let p := (Cursor.advanceAll {} read).position rest
    Counted (lineFeeds source p.offset) p.line p.column p.offset := by
  have offset : (Cursor.advanceAll {} read).offset = byteLength read := by simp [advanceAll_offset]
  have start : Counted (lineFeedsBelow source 0) 1 1 0 := ⟨rfl, rfl⟩
  obtain ⟨line, column⟩ := @advanceAll_counted _ [] _ _ whole {} rfl start
  rw [offset] at line column
  unfold Cursor.position
  split
  · rename_i more
    have feeds := lineFeedsBelow_char whole Nat.one_pos (Nat.le_refl 1)
    simp only [lineFeeds, offset, feeds, if_true]
    exact ⟨by simp [line]; omega, by rw [lastIndex_concat]; omega⟩
  · rename_i other
    have feeds : lineFeedsBelow source (byteLength read + 1) = lineFeedsBelow source (byteLength read) := by
      cases rest with
      | nil =>
        have none := byte_behind whole 0
        rw [Nat.add_zero] at none
        rw [lineFeedsBelow, List.range_succ, List.filter_append]
        simp [lineFeedsBelow, none]
      | cons c more =>
        have notFeed : c ≠ '\n' := fun same => other more (by rw [same])
        rw [lineFeedsBelow_char whole Nat.one_pos c.utf8Size_pos, if_neg notFeed, List.append_nil]
    simp only [lineFeeds, offset, feeds]
    exact ⟨line, column⟩

/-! ### Order -/

/-- Positions that are counted from the line feeds are ordered by line and column as they are by offset. -/
theorem counted_lt {line column offset line' column' offset' : Nat}
    (p : Counted (lineFeeds source offset) line column offset) (q : Counted (lineFeeds source offset') line' column' offset')
    (lt : offset < offset') : line < line' ∨ line = line' ∧ column < column' := by
  obtain ⟨more, split⟩ : ∃ more, lineFeeds source offset' = lineFeeds source offset ++ more := by
    obtain ⟨k, rfl⟩ := Nat.exists_eq_add_of_lt lt
    rw [lineFeeds, lineFeedsBelow, show offset + k + 1 + 1 = offset + 1 + (k + 1) by omega, List.range_add,
      List.filter_append]
    exact ⟨_, rfl⟩
  obtain ⟨pLine, pColumn⟩ := p
  obtain ⟨qLine, qColumn⟩ := q
  rw [split] at qLine qColumn
  cases more with
  | nil =>
    rw [List.append_nil] at qLine qColumn
    exact .inr ⟨by omega, by omega⟩
  | cons i more =>
    rw [List.length_append, List.length_cons] at qLine
    exact .inl (by omega)

/-- Where tokens start and end, and where errors are reported. -/
def lexPositions (source : String) : List Position :=
  (tokenize source).flatMap (fun t => [t.start, t.stop]) ++ (lexErrors source).map (·.position)

/-- The position of a place in the text. -/
def PlaceIn (source : String) (p : Position) : Prop :=
  ∃ read rest, source.toList = read ++ rest ∧ p = (Cursor.advanceAll {} read).position rest

theorem placeIn_of_split {front back : List Piece} {piece : Piece}
    (split : pieces source.toList = front ++ piece :: back) :
    PlaceIn source ((Cursor.advanceAll {} (Lexer.rawOf front)).position piece.raw) ∧
      PlaceIn source ((Cursor.advanceAll {} (Lexer.rawOf front ++ piece.raw)).position (Lexer.following back)) := by
  obtain ⟨c, more, after, whole, raw, -, rfl⟩ := Lexer.cut_split split
  refine ⟨⟨_, _, whole, ?_⟩, _, after, by rw [whole, raw, List.append_assoc], Lexer.position_following_cut ..⟩
  rw [raw]
  exact Lexer.position_head _ c more _

/-- Tokens start and stop, and errors lie, at places of the text. -/
theorem placeIn_of_mem {p : Position} (mem : p ∈ lexPositions source) : PlaceIn source p := by
  rcases List.mem_append.mp mem with mem | mem
  · obtain ⟨t, token, mem⟩ := List.mem_flatMap.mp mem
    have either : p = t.start ∨ p = t.stop := by simpa using mem
    rcases Lexer.mem_place token with rfl | ⟨front, piece, back, split, -, start, stop⟩
    · obtain ⟨rest, whole, ends⟩ := Lexer.cut_raw true source.toList
      exact ⟨_, rest, whole, (or_self_iff.mp either).trans (Lexer.position_end _ ends)⟩
    · obtain ⟨first, last⟩ := placeIn_of_split split
      rw [← start] at first
      rw [← stop] at last
      rcases either with rfl | rfl
      · exact first
      · exact last
  · obtain ⟨e, error, rfl⟩ := List.mem_map.mp mem
    obtain ⟨front, piece, back, split, -, position⟩ := Lexer.mem_faults_iff.mp error
    rw [position]
    exact (placeIn_of_split split).1

theorem counted_of_mem {p : Position} (mem : p ∈ lexPositions source) :
    Counted (lineFeeds source p.offset) p.line p.column p.offset := by
  obtain ⟨read, rest, whole, rfl⟩ := placeIn_of_mem mem
  exact position_counted whole

/-- The line of a position of the lexer is one more than the line feeds up to its offset, its column is the distance to
the last of them. So positions are ordered by line and column as they are by offset, and so are findings. -/
theorem positions_of_offsets (source : String) :
    (∀ p ∈ lexPositions source, p.line = 1 + (lineFeeds source p.offset).length ∧
        (p.column : Int) = p.offset - lastIndex (lineFeeds source p.offset)) ∧
      ∀ p ∈ lexPositions source, ∀ q ∈ lexPositions source,
        (p.line < q.line ∨ p.line = q.line ∧ p.column < q.column ↔ p.offset < q.offset) ∧
          ∀ a b : Finding, (a.line, a.column) = (p.line, p.column) → (b.line, b.column) = (q.line, q.column) →
            (a.isBefore b ↔ p.offset ≤ q.offset) := by
  refine ⟨fun p mem => ⟨(counted_of_mem mem).line, (counted_of_mem mem).column⟩, fun p mem q mem' => ?_⟩
  have first := counted_of_mem mem
  have second := counted_of_mem mem'
  have less := counted_lt first second
  have greater := counted_lt second first
  have equal : p.offset = q.offset → p.line = q.line ∧ p.column = q.column := by
    intro same
    rw [← same] at second
    exact ⟨first.line.trans second.line.symm, Int.ofNat.inj (first.column.trans second.column.symm)⟩
  refine ⟨⟨fun before => ?_, less⟩, ?_⟩
  · omega
  · intro a b at_ at_'
    simp only [Prod.mk.injEq] at at_ at_'
    simp only [Finding.isBefore, at_, at_', beq_iff_eq]
    split <;> simp <;> omega

/-- A name that ends at a line feed, and behind it a string that is not closed. -/
theorem positions_of_offsets_break :
    let source := "x\n 'y"
    let p : Position := ⟨2, 0, 1⟩
    let q : Position := ⟨2, 2, 3⟩
    p ∈ lexPositions source ∧ q ∈ lexPositions source ∧ p.line = 1 + (lineFeeds source 1).length ∧
      (q.column : Int) = 3 - lastIndex (lineFeeds source 3) ∧
      (p.line < q.line ∨ p.line = q.line ∧ p.column < q.column ↔ p.offset < q.offset) := by
  intro source p q
  obtain ⟨mem, mem'⟩ : p ∈ lexPositions source ∧ q ∈ lexPositions source := by decide +kernel
  obtain ⟨counted, ordered⟩ := positions_of_offsets source
  exact ⟨mem, mem', (counted p mem).1, (counted q mem').2, (ordered p mem q mem').1⟩

end ColumnFlow
