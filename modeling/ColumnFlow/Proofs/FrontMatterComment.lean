import ColumnFlow.Project.FrontMatter
import ColumnFlow.Proofs.TokenTiling

/-!
# Front matter as a comment

The end of a block of front matter is the first `---*/` behind its opening line; the end of a comment is found by counting
the comments that are open. The lexer passes over a block, and over nothing else, exactly if the block reads as blanks
and comments. The tokens behind it are then those of the rest of the text, at their places in the file.
-/

namespace ColumnFlow

open Text Piece

/-! ### The block -/

namespace FrontMatter

theorem isBlank_of_isSpace {c : Char} (space : isSpace c = true) : Piece.isBlank c = true := by
  simp only [isSpace, Piece.isBlank, Bool.or_eq_true, beq_iff_eq] at space ⊢
  grind

theorem cutAt_eq_some {mark cs before after : List Char} (found : cutAt mark cs = some (before, after)) :
    cs = before ++ mark ++ after := by
  induction cs generalizing before with
  | nil => simp [cutAt] at found
  | cons c cs ih =>
    rw [cutAt] at found
    split at found
    · rename_i here
      obtain ⟨rest, whole⟩ := List.isPrefixOf_iff_prefix.mp here
      obtain ⟨rfl, rfl⟩ := Prod.mk.inj (Option.some.inj found)
      rw [← whole, List.drop_left, List.nil_append]
    · obtain ⟨⟨part, behind⟩, later, same⟩ := Option.map_eq_some_iff.mp found
      obtain ⟨rfl, rfl⟩ := Prod.mk.inj same
      rw [ih later]
      rfl

theorem afterLineBreak_suffix {cs body : List Char} (found : afterLineBreak cs = some body) : body <:+ cs := by
  simp only [afterLineBreak] at found
  split at found
  · exact Option.some.inj found ▸ List.drop_suffix _ _
  · simp at found

/-- A block is a part of the text, from its start up to a `*/`, and only blanks stand in front of its `/*`. -/
theorem Block.find?_eq_some {text : List Char} {block : Block} (found : Block.find? text = some block) :
    text = block.header ++ block.rest ∧
      ∃ lead inner, block.header = lead ++ '/' :: '*' :: (inner ++ ['*', '/']) ∧ ∀ c ∈ lead, c ∈ blanks := by
  simp only [Block.find?] at found
  split at found
  · rename_i opens
    obtain ⟨body, broken, found⟩ := Option.bind_eq_some_iff.mp found
    obtain ⟨⟨inside, rest⟩, cut, found⟩ := Option.bind_eq_some_iff.mp found
    obtain rfl := Option.some.inj found
    obtain ⟨behind, opened⟩ := List.isPrefixOf_iff_prefix.mp opens
    rw [← opened, List.drop_left] at broken
    obtain ⟨line, split⟩ := afterLineBreak_suffix broken
    obtain ⟨lead, blank, rfl⟩ : ∃ lead : List Char, (∀ c ∈ lead, c ∈ blanks) ∧
        text = (lead ++ openMark ++ line ++ inside ++ closeMark) ++ rest := by
      refine ⟨text.takeWhile isSpace, ?_, ?_⟩
      · intro c mem
        exact (isBlank_iff c).mp (isBlank_of_isSpace (List.all_eq_true.mp List.all_takeWhile c mem))
      · calc text = text.takeWhile isSpace ++ text.dropWhile isSpace := List.takeWhile_append_dropWhile.symm
          _ = text.takeWhile isSpace ++ (openMark ++ (line ++ (inside ++ closeMark ++ rest))) := by
              rw [← cutAt_eq_some cut, split, opened]
          _ = _ := by simp only [List.append_assoc]
    dsimp only
    rw [List.length_append, Nat.add_sub_cancel, List.take_left]
    exact ⟨rfl, lead, ['-', '-', '-'] ++ line ++ inside ++ ['-', '-', '-'], by simp [openMark, closeMark], blank⟩
  · simp at found

end FrontMatter

/-! ### Passing over blanks and comments -/

/-- The piece stands between tokens, and nothing is wrong with it. -/
def Piece.IsGap (piece : Piece) : Prop :=
  piece.fault = none ∧ ∀ kind literal quoted, piece.content ≠ .token kind literal quoted

namespace Separation

theorem dropBlanks {rest gap : List Char} (h : Separation rest gap) :
    Separation rest (gap.dropWhile Piece.isBlank) := by
  induction h with
  | nil => exact .nil
  | blank blank _ ih => rwa [List.dropWhile_cons_of_pos ((isBlank_iff _).mpr blank)]
  | line chars ends later _ => exact .line chars ends later
  | block closed later _ => exact .block closed later

end Separation

namespace Lexer

/-- The lexer cuts the characters into blanks and comments, and goes on with what follows them. -/
def Skips (lineBlank : Bool) (read rest : List Char) : Prop :=
  ∃ gaps : List Piece, gaps.flatMap (·.raw) = read ∧ (∀ piece ∈ gaps, piece.IsGap) ∧
    cut lineBlank 0 (read ++ rest) = gaps ++ cut (lineBlankAfterAll lineBlank read) 0 rest

variable (lineBlank : Bool) (cursor : Cursor)

theorem lineBlankAfterAll_append (read read' : List Char) :
    lineBlankAfterAll lineBlank (read ++ read') = lineBlankAfterAll (lineBlankAfterAll lineBlank read) read' :=
  List.foldl_append

/-! #### The first piece -/

theorem first_blank {c : Char} {more after : List Char} (blank : Piece.isBlank c = true)
    (all : ∀ d ∈ more, Piece.isBlank d = true) (stops : ∀ d, after.head? = some d → Piece.isBlank d = false) :
    Piece.first lineBlank c (more ++ after) = { raw := c :: more, content := .blank } := by
  have run : (more ++ after).takeWhile Piece.isBlank = more := by
    rw [List.takeWhile_append_of_pos all]
    cases after with
    | nil => simp
    | cons d after => simp [stops d rfl]
  rw [Piece.first, if_pos blank, run]

theorem first_line {body after : List Char} (chars : ∀ c ∈ body, c ≠ '\n' ∧ c ≠ nul) (ends : EndsLine after) :
    Piece.first lineBlank '-' ('-' :: (body ++ after)) = { raw := '-' :: '-' :: body, content := .lineComment } := by
  have line : (body ++ after).takeWhile continuesLine = body := by
    rw [List.takeWhile_append_of_pos fun c mem => by simpa [continuesLine] using chars c mem]
    cases after with
    | nil => simp
    | cons c after => rcases ends c rfl with rfl | rfl <;> simp [continuesLine]
  rw [Piece.first, if_neg (by decide), if_pos (by simp), List.takeWhile_cons_of_pos (by decide), line]

theorem first_block {body : List Char} (closed : CommentRest 1 body) (after : List Char) :
    Piece.first lineBlank '/' ('*' :: (body ++ after)) = { raw := '/' :: '*' :: body, content := .blockComment } := by
  simp [Piece.first, Piece.isBlank, takeComment_of_commentRest closed]

theorem cut_first {lineBlank : Bool} {c : Char} {more after : List Char} (notNul : c ≠ nul)
    (raw : (Piece.first lineBlank c (more ++ after)).raw = c :: more) :
    cut lineBlank 0 (c :: (more ++ after)) =
      Piece.first lineBlank c (more ++ after) :: cut (lineBlankAfterAll lineBlank (c :: more)) 0 after := by
  obtain ⟨more', after', raw', split, pieces⟩ := cut_cons lineBlank (more ++ after) notNul
  obtain rfl : more = more' := (List.cons.inj (raw.symm.trans raw')).2
  obtain rfl : after = after' := List.append_cancel_left split
  exact pieces

namespace Skips

variable {lineBlank : Bool} {read rest : List Char}

theorem nil (lineBlank : Bool) (rest : List Char) : Skips lineBlank [] rest := ⟨[], rfl, by simp, rfl⟩

/-- One more blank or comment in front. -/
theorem cons (c : Char) (more : List Char) {piece : Piece} (notNul : c ≠ nul)
    (cuts : Piece.first lineBlank c (more ++ (read ++ rest)) = piece) (raw : piece.raw = c :: more) (gap : piece.IsGap)
    (h : Skips (lineBlankAfterAll lineBlank (c :: more)) read rest) : Skips lineBlank (c :: more ++ read) rest := by
  obtain ⟨gaps, all, each, later⟩ := h
  refine ⟨piece :: gaps, ?_, ?_, ?_⟩
  · rw [List.flatMap_cons, raw, all]
  · rintro _ (_ | ⟨_, mem⟩)
    · exact gap
    · exact each _ mem
  · subst cuts
    show _ = _ :: (gaps ++ _)
    rw [lineBlankAfterAll_append, ← later, List.append_assoc]
    exact cut_first notNul raw

/-- What the lexer passes over reads as blanks and comments. -/
theorem separation (h : Skips lineBlank read rest) : Separation rest read := by
  obtain ⟨gaps, all, each, cuts⟩ := h
  induction gaps generalizing lineBlank read with
  | nil => exact (show [] = read from all) ▸ .nil
  | cons piece gaps ih =>
    obtain ⟨gap, each⟩ := List.forall_mem_cons.mp each
    obtain ⟨c, more, after, notNul, text, raw, same, cuts⟩ := cut_eq_cons cuts
    have kind := first_cuts lineBlank notNul (same ▸ raw)
    rw [← same] at kind
    rw [List.flatMap_cons, raw] at all
    obtain rfl := all
    obtain rfl : after = gaps.flatMap (·.raw) ++ rest := by simpa using text.symm
    rw [lineBlankAfterAll_append] at cuts
    have later := ih rfl each cuts.symm
    rw [← raw]
    cases kind with
    | blank _ chars => exact Extends.blanks chars _ _ _ rfl later
    | line _ whole chars ends => exact (whole ▸ Extends.line chars ends) _ _ rfl later
    | block _ whole closed => exact (whole ▸ Extends.block closed _) _ _ rfl later
    | unclosed _ _ _ _ _ fault => simp [gap.1] at fault
    | token isToken _ => exact absurd isToken.content (gap.2 _ _ _)

/-- Blanks that are not the last of what is read end inside it. -/
theorem head?_dropBlanks {c : Char} {gap : List Char} (blank : Piece.isBlank c = true)
    (ends : ∀ d, (c :: gap).getLast? = some d → Piece.isBlank d = false) :
    ∀ d, (gap.dropWhile Piece.isBlank ++ rest).head? = some d → Piece.isBlank d = false := by
  cases left : gap.dropWhile Piece.isBlank with
  | nil =>
    have run : gap.takeWhile Piece.isBlank = gap := by
      simpa [left] using List.takeWhile_append_dropWhile (p := Piece.isBlank) (l := gap)
    have all : ∀ d ∈ c :: gap, Piece.isBlank d = true :=
      List.forall_mem_cons.mpr ⟨blank, List.all_eq_true.mp (run ▸ List.all_takeWhile)⟩
    obtain ⟨last, isLast⟩ : ∃ last, (c :: gap).getLast? = some last := ⟨_, List.getLast?_cons⟩
    exact absurd (all last (List.mem_of_getLast? isLast)) (by simp [ends last isLast])
  | cons d later =>
    rintro _ ⟨⟩
    have stop := List.head?_dropWhile_not Piece.isBlank gap
    rw [left] at stop
    exact stop

/-- Blanks and comments are passed over, unless blanks at their end go on behind them. -/
theorem ofSeparation (lineBlank : Bool) (h : Separation rest read)
    (ends : ∀ c, read.getLast? = some c → Piece.isBlank c = false) : Skips lineBlank read rest := by
  -- a run of blanks is one piece, so that the induction is not on the separation but on what is left to read
  induction bound : read.length using Nat.strongRecOn generalizing lineBlank read with
  | ind length ih =>
    have behind : ∀ (front : List Char) {gap : List Char} (lineBlank : Bool), read = front ++ gap → front ≠ [] →
        Separation rest gap → Skips lineBlank gap rest := by
      rintro front gap lineBlank rfl some later
      refine ih gap.length ?_ lineBlank later ?_ rfl
      · have := List.length_pos_iff.mpr some
        rw [← bound, List.length_append]
        omega
      · exact fun c last => ends c (by rw [List.getLast?_append, last]; rfl)
    cases h with
    | nil => exact .nil lineBlank rest
    | @blank c gap blank later =>
      have isBlank := (isBlank_iff c).mpr blank
      have notNul : c ≠ nul := by
        rintro rfl
        exact absurd blank (by decide)
      have run : ∀ d ∈ gap.takeWhile Piece.isBlank, Piece.isBlank d = true := List.all_eq_true.mp List.all_takeWhile
      have split : gap = gap.takeWhile Piece.isBlank ++ gap.dropWhile Piece.isBlank :=
        List.takeWhile_append_dropWhile.symm
      have rest := behind (c :: gap.takeWhile Piece.isBlank)
        (lineBlankAfterAll lineBlank (c :: gap.takeWhile Piece.isBlank)) (congrArg (List.cons c) split) (by simp)
        later.dropBlanks
      rw [split]
      exact cons c _ notNul (first_blank lineBlank isBlank run (head?_dropBlanks isBlank ends)) rfl ⟨rfl, by simp⟩ rest
    | @line body gap chars endsLine later =>
      exact cons '-' ('-' :: body) (by decide) (first_line lineBlank chars endsLine) rfl ⟨rfl, by simp⟩
        (behind ('-' :: '-' :: body) _ rfl (by simp) later)
    | @block body gap closed later =>
      exact cons '/' ('*' :: body) (by decide) (first_block lineBlank closed (gap ++ rest)) rfl ⟨rfl, by simp⟩
        (behind ('/' :: '*' :: body) _ rfl (by simp) later)

end Skips

/-! ### Tokens and errors behind a block -/

/-- The error in a text that starts so many lines and bytes further on. -/
def movedError (lines bytes : Nat) (e : LexError) : LexError := { e with position := movedPosition lines bytes e.position }

theorem faults_moved (lines bytes : Nat) (cursor : Cursor) (pieces : List Piece) :
    faults (movedCursor lines bytes cursor) pieces = (faults cursor pieces).map (movedError lines bytes) := by
  induction pieces generalizing cursor with
  | nil => rfl
  | cons piece rest ih =>
    simp only [faults, advanceAll_moved, position_moved, ih]
    split <;> rfl

theorem place_gap {piece : Piece} (gap : piece.IsGap) (rest : List Piece) :
    place cursor (piece :: rest) = place (cursor.advanceAll piece.raw) rest := by
  simp only [place]
  split
  · rename_i isToken
    exact absurd isToken (gap.2 _ _ _)
  · rfl

theorem faults_gap {piece : Piece} (gap : piece.IsGap) (rest : List Piece) :
    faults cursor (piece :: rest) = faults (cursor.advanceAll piece.raw) rest := by
  simp only [faults, gap.1]

theorem advanceAll_line (cs : List Char) : (cursor.advanceAll cs).line = cursor.line + cs.count '\n' := by
  induction cs generalizing cursor with
  | nil => rfl
  | cons c cs ih =>
    show ((cursor.advance c).advanceAll cs).line = _
    rw [ih, List.count_cons, Cursor.advance]
    by_cases newline : c = '\n'
    · simp only [newline, if_true, beq_self_eq_true]
      omega
    · simp [newline]

section Passing

variable {β : Type} {F : Cursor → List Piece → β}
  (skip : ∀ cursor piece rest, Piece.IsGap piece → F cursor (piece :: rest) = F (cursor.advanceAll piece.raw) rest)
  (cursor : Cursor) {lineBlank : Bool} {read rest : List Char}

include skip

/-- What passes over each gap passes over all that the lexer skips. -/
theorem Skips.pass (h : Skips lineBlank read rest) :
    F cursor (cut lineBlank 0 (read ++ rest)) =
      F (cursor.advanceAll read) (cut (lineBlankAfterAll lineBlank read) 0 rest) := by
  obtain ⟨gaps, rfl, each, cuts⟩ := h
  have run : ∀ (gaps : List Piece) (cursor : Cursor), (∀ piece ∈ gaps, piece.IsGap) → ∀ pieces,
      F cursor (gaps ++ pieces) = F (cursor.advanceAll (gaps.flatMap (·.raw))) pieces := by
    intro gaps
    induction gaps with
    | nil => exact fun _ _ _ => rfl
    | cons piece gaps ih =>
      intro cursor each pieces
      obtain ⟨gap, each⟩ := List.forall_mem_cons.mp each
      rw [List.cons_append, skip cursor piece _ gap, ih _ each, List.flatMap_cons, advanceAll_append]
  rw [cuts, run gaps cursor each]

/-- Behind a line end nothing depends on what stood in front of it on its line, and all places move by as much as the
line does. -/
theorem pass_lineBreak {lines bytes : Nat} {move : β → β}
    (moved : ∀ cursor pieces, F (movedCursor lines bytes cursor) pieces = move (F cursor pieces))
    (lineBreak : '\n' ∈ rest.takeWhile Piece.isBlank) {cursor' : Cursor} (lineBlank lineBlank' : Bool)
    (line : cursor'.line = cursor.line + lines) (offset : cursor'.offset = cursor.offset + bytes) :
    F cursor' (cut lineBlank' 0 rest) = move (F cursor (cut lineBlank 0 rest)) := by
  have blanks : ∀ (cursor : Cursor) cs rest, F cursor ({ raw := cs, content := .blank } :: rest) =
      F (cursor.advanceAll cs) rest := fun _ _ _ => skip _ _ _ ⟨rfl, by simp⟩
  induction rest generalizing cursor cursor' lineBlank lineBlank' with
  | nil => simp at lineBreak
  | cons c rest ih =>
    cases blank : Piece.isBlank c with
    | false => simp [blank] at lineBreak
    | true =>
      rw [skip_blank blanks cursor lineBlank blank, skip_blank blanks cursor' lineBlank' blank]
      by_cases newline : c = '\n'
      · subst newline
        have behind : cursor'.advance '\n' = movedCursor lines bytes (cursor.advance '\n') := by
          rw [advance_newline, advance_newline, line, offset]
          simp only [movedCursor, Cursor.mk.injEq, true_and]
          omega
        rw [behind, moved]
        rfl
      · refine ih (cursor.advance c) (by simpa [blank, Ne.symm newline] using lineBreak) _ _ ?_ ?_
        · simp [Cursor.advance, newline, line]
        · simp only [Cursor.advance, newline, if_false, offset]
          omega

end Passing

/-- A text whose start is passed over, up to the end of a line. -/
theorem Skips.moved {text : String} {read rest : List Char} (h : Skips true read rest) (whole : text.toList = read ++ rest)
    (lineBreak : '\n' ∈ rest.takeWhile Piece.isBlank) :
    tokenize text = (tokenize (String.ofList rest)).map (movedToken (read.count '\n') (byteLength read)) ∧
      lexErrors text = (lexErrors (String.ofList rest)).map (movedError (read.count '\n') (byteLength read)) := by
  have line : (Cursor.advanceAll {} read).line = ({} : Cursor).line + read.count '\n' := advanceAll_line {} read
  have offset : (Cursor.advanceAll {} read).offset = ({} : Cursor).offset + byteLength read := advanceAll_offset {} read
  constructor
  · unfold tokenize pieces
    rw [whole, h.pass (fun cursor _ rest gap => place_gap cursor gap rest), String.toList_ofList]
    exact pass_lineBreak (fun cursor _ rest gap => place_gap cursor gap rest) {} (place_moved _ _) lineBreak true _ line offset
  · unfold lexErrors pieces
    rw [whole, h.pass (fun cursor _ rest gap => faults_gap cursor gap rest), String.toList_ofList]
    exact pass_lineBreak (fun cursor _ rest gap => faults_gap cursor gap rest) {} (faults_moved _ _) lineBreak true _ line
      offset

end Lexer

/-- Front matter on lines of its own is passed over, and nothing else is, exactly if it reads as blanks and comments; so
it does if the comment that opens it is closed at its end. The tokens and the errors are then those of the rest of the
text, moved down by the lines of the front matter. -/
theorem frontMatter_skipped_iff {text : String} {block : FrontMatter.Block}
    (found : FrontMatter.Block.find? text.toList = some block) (lineBreak : '\n' ∈ block.rest.takeWhile Piece.isBlank) :
    text.toList = block.header ++ block.rest ∧
      (Lexer.Skips true block.header block.rest ↔ Separation block.rest block.header) ∧
      (∀ lead inner, block.header = lead ++ '/' :: '*' :: inner → (∀ c ∈ lead, c ∈ blanks) → CommentRest 1 inner →
        Lexer.Skips true block.header block.rest) ∧
      (Lexer.Skips true block.header block.rest →
        let rest := String.ofList block.rest
        let lines := block.header.count '\n'
        let bytes := byteLength block.header
        tokenize text = (tokenize rest).map (Lexer.movedToken lines bytes) ∧
          lexErrors text = (lexErrors rest).map (Lexer.movedError lines bytes)) := by
  obtain ⟨whole, start, inside, header, _⟩ := FrontMatter.Block.find?_eq_some found
  have ends : ∀ c, block.header.getLast? = some c → Piece.isBlank c = false := by
    intro c last
    rw [header] at last
    obtain rfl : '/' = c := by simpa [List.getLast?_append, List.getLast?_cons] using last
    rfl
  have skipped : Separation block.rest block.header → Lexer.Skips true block.header block.rest :=
    fun separation => .ofSeparation true separation ends
  refine ⟨whole, ⟨fun h => h.separation, skipped⟩, ?_, fun h => h.moved whole lineBreak⟩
  intro lead inner header blank closed
  refine skipped ?_
  rw [header]
  exact Extends.blanks blank _ _ _ rfl (by simpa using Extends.block closed block.rest [] _ rfl .nil)

theorem frontMatter_skipped_iff_separator :
    let text := "/*---\nname: p\n---*/\nGO\nSELECT 1"
    let block : FrontMatter.Block :=
      { header := "/*---\nname: p\n---*/".toList, document := "name: p".toList, rest := "\nGO\nSELECT 1".toList }
    FrontMatter.Block.find? text.toList = some block ∧ '\n' ∈ block.rest.takeWhile Piece.isBlank ∧
      Lexer.Skips true block.header block.rest ∧
      tokenize text = (tokenize (String.ofList block.rest)).map (Lexer.movedToken 2 19) ∧
      lexErrors text = (lexErrors (String.ofList block.rest)).map (Lexer.movedError 2 19) := by
  intro text block
  have found : FrontMatter.Block.find? text.toList = some block := by decide +kernel
  have lineBreak : '\n' ∈ block.rest.takeWhile Piece.isBlank := by decide +kernel
  have header : block.header = [] ++ '/' :: '*' :: "---\nname: p\n---*/".toList := by decide +kernel
  have taken : takeComment 1 "---\nname: p\n---*/".toList = ("---\nname: p\n---*/".toList, true) := by decide +kernel
  have closed := commentRest_of_takeComment (Nat.le_refl 1) (congrArg Prod.snd taken)
  rw [taken] at closed
  obtain ⟨_, _, skipped, moved⟩ := frontMatter_skipped_iff found lineBreak
  have skips := skipped [] _ header (by simp) closed
  have lines : block.header.count '\n' = 2 := by decide +kernel
  have bytes : byteLength block.header = 19 := by decide +kernel
  have places := moved skips
  rw [lines, bytes] at places
  exact ⟨found, lineBreak, skips, places⟩

-- A pattern of file names opens a comment inside the front matter, and the code behind it is lost.
example :
    let text := "/*---\ndescription: loads src/*.sql\n---*/\nSELECT 1"
    (FrontMatter.Block.find? text.toList).map (String.ofList ·.rest) = some "\nSELECT 1" ∧
      (tokenize text).map (·.kind) = [.eof] ∧ (lexErrors text).map (·.fault) = [.unterminatedComment] ∧
      (tokenize "\nSELECT 1").length = 3 ∧ lexErrors "\nSELECT 1" = [] := by
  decide +kernel

end ColumnFlow
