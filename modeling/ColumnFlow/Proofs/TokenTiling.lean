import ColumnFlow.Proofs.LexAppend

/-!
# Tokens tile the text

Every character of a text up to its end belongs to one token or to what separates tokens: blanks, comments up to the
end of a line, and block comments with as many ends as beginnings. `Tiles` follows a text from left to right, gap by
gap and token by token; what is known of the places and the literals of tokens is read off it.

A block comment that is never closed takes the rest of the text. It is the only one, no token follows it, and it is
reported.
-/

namespace ColumnFlow

open Text Piece

/-! ### Bytes -/

/-- The bytes that characters take in a text. -/
def byteLength (cs : List Char) : Nat := (String.ofList cs).utf8ByteSize

@[simp] theorem byteLength_nil : byteLength [] = 0 := String.utf8ByteSize_empty

@[simp] theorem byteLength_append (cs cs' : List Char) : byteLength (cs ++ cs') = byteLength cs + byteLength cs' := by
  rw [byteLength, String.ofList_append, String.utf8ByteSize_append]
  rfl

@[simp] theorem byteLength_cons (c : Char) (cs : List Char) : byteLength (c :: cs) = c.utf8Size + byteLength cs := by
  rw [← List.singleton_append, byteLength_append]
  exact congrArg (· + _) String.utf8ByteSize_singleton

theorem byteLength_pos {cs : List Char} (some : cs ≠ []) : 0 < byteLength cs := by
  obtain ⟨c, cs, rfl⟩ := List.exists_cons_of_ne_nil some
  have := c.utf8Size_pos
  simp only [byteLength_cons]
  omega

theorem advanceAll_offset (cursor : Cursor) (cs : List Char) :
    (cursor.advanceAll cs).offset = cursor.offset + byteLength cs := by
  induction cs generalizing cursor with
  | nil => rfl
  | cons c cs ih =>
    show ((cursor.advance c).advanceAll cs).offset = _
    have step : (cursor.advance c).offset = cursor.offset + c.utf8Size := by
      unfold Cursor.advance
      split <;> rfl
    rw [ih, step, byteLength_cons, Nat.add_assoc]

theorem dropBytes_append (read cs : List Char) : Extent.dropBytes (byteLength read) (read ++ cs) = cs := by
  induction read with
  | nil => cases cs <;> rfl
  | cons c read ih =>
    have := c.utf8Size_pos
    rw [List.cons_append, Extent.dropBytes, if_neg (by simp only [byteLength_cons]; omega), byteLength_cons,
      Nat.add_sub_cancel_left, ih]

theorem takeBytes_append (read cs : List Char) : Extent.takeBytes (byteLength read) (read ++ cs) = read := by
  induction read with
  | nil => cases cs <;> rfl
  | cons c read ih =>
    have := c.utf8Size_pos
    rw [List.cons_append, Extent.takeBytes, if_neg (by simp only [byteLength_cons]; omega), byteLength_cons,
      Nat.add_sub_cancel_left, ih]

/-- The text between two places is what stands there. -/
theorem slice_middle {source : String} {read middle rest : List Char} (text : source.toList = read ++ middle ++ rest) :
    Extent.slice source (byteLength read) (byteLength read + byteLength middle) = String.ofList middle := by
  rw [Extent.slice, text, List.append_assoc, dropBytes_append, Nat.add_sub_cancel_left, takeBytes_append]

/-! ### What separates tokens -/

/-- The characters that are blanks. -/
def blanks : List Char := [' ', '\t', '\n', '\r', '\x0c', '\x0b']

/-- The end of the text, by its length or by a NUL character. -/
def EndsText (rest : List Char) : Prop := ∀ c, rest.head? = some c → c = nul

/-- The end of a line or of the text. -/
def EndsLine (rest : List Char) : Prop := ∀ c, rest.head? = some c → c = '\n' ∨ c = nul

/-- The rest of a block comment inside which so many comments are open: the last of them ends where it ends. -/
inductive CommentRest : Nat → List Char → Prop
  | close : CommentRest 1 ['*', '/']
  | closeInner {depth cs} : CommentRest (depth + 1) cs → CommentRest (depth + 2) ('*' :: '/' :: cs)
  | openInner {depth cs} : CommentRest (depth + 1) cs → CommentRest depth ('/' :: '*' :: cs)
  | char {depth c cs} : c ≠ nul → ¬(c = '/' ∧ cs.head? = some '*') → ¬(c = '*' ∧ cs.head? = some '/') →
      CommentRest depth cs → CommentRest depth (c :: cs)

/-- Blanks and comments in front of `rest`. -/
inductive Separation (rest : List Char) : List Char → Prop
  | nil : Separation rest []
  | blank {c gap} : c ∈ blanks → Separation rest gap → Separation rest (c :: gap)
  | line {body gap} : (∀ c ∈ body, c ≠ '\n' ∧ c ≠ nul) → EndsLine (gap ++ rest) → Separation rest gap →
      Separation rest ('-' :: '-' :: (body ++ gap))
  | block {body gap} : CommentRest 1 body → Separation rest gap → Separation rest ('/' :: '*' :: (body ++ gap))

/-- Blanks and comments up to the end of the text, the last of which is not closed. `reported` says at which offsets
such a comment is reported. -/
inductive Unclosed (reported : Nat → Prop) (offset : Nat) (rest : List Char) : List Char → Prop
  | intro {gap body} : Separation ('/' :: '*' :: (body ++ rest)) gap → nul ∉ body → EndsText rest →
      (∀ closed, closed <+: body → ¬CommentRest 1 closed) → reported (offset + byteLength gap) →
      Unclosed reported offset rest (gap ++ '/' :: '*' :: body)

theorem CommentRest.noNul {depth : Nat} {cs : List Char} (h : CommentRest depth cs) : nul ∉ cs := by
  induction h with
  | close => decide
  | closeInner _ ih | openInner _ ih => simpa [nul] using ih
  | char notNul _ _ _ ih => simpa [notNul.symm] using ih

theorem Separation.noNul {rest gap : List Char} (h : Separation rest gap) : nul ∉ gap := by
  induction h with
  | nil => simp
  | blank blank _ ih =>
    rintro (_ | ⟨_, mem⟩)
    · exact absurd blank (by decide)
    · exact ih mem
  | line body _ _ ih =>
    have noNul := fun mem => (body nul mem).2 rfl
    simpa [nul] using And.intro noNul ih
  | block body _ ih => simpa [nul] using And.intro body.noNul ih

theorem Unclosed.noNul {reported : Nat → Prop} {offset : Nat} {rest gap : List Char}
    (h : Unclosed reported offset rest gap) : nul ∉ gap := by
  obtain ⟨separation, noNul, -⟩ := h
  simpa [nul] using And.intro separation.noNul noNul

/-- Tokens whose literal is their source text. -/
structure Token.Verbatim (t : Token) : Prop where
  string : t.kind ≠ .string
  quoted : t.quoted = false
  separator : t.kind ≠ .separator
  eof : t.kind ≠ .eof

/-- The tokens of a text that starts at the offset, with what stands between them. -/
inductive Tiles (reported : Nat → Prop) : Nat → List Char → List Token → Prop
  | token {offset gap raw rest t ts} : Separation (raw ++ rest) gap → raw ≠ [] → nul ∉ raw → t.kind ≠ .eof →
      t.start.offset = offset + byteLength gap → t.stop.offset = t.start.offset + byteLength raw →
      (t.Verbatim → t.literal = String.ofList raw) → Tiles reported t.stop.offset rest ts →
      Tiles reported offset (gap ++ (raw ++ rest)) (t :: ts)
  | last {offset gap rest t} : EndsText rest → Separation rest gap ∨ Unclosed reported offset rest gap →
      t.kind = .eof → t.start.offset = offset + byteLength gap → Tiles reported offset (gap ++ rest) [t]

namespace Piece

/-! ### Comments -/

theorem isBlank_iff (c : Char) : Piece.isBlank c = true ↔ c ∈ blanks := by
  simp [Piece.isBlank, blanks, or_assoc]

variable {cs : List Char} {depth : Nat}

/-- What the scan of a comment takes, when it ends the comment, is the rest of one; by the recursion of the scan. -/
theorem commentRest_of_takeComment (pos : 1 ≤ depth)
    (closed : (takeComment depth cs).2 = true) : CommentRest depth (takeComment depth cs).1 := by
  fun_induction takeComment depth cs with
  | case1 | case2 => simp at closed
  | case3 depth inner raw isClosed found notNul ih =>
    rw [found] at ih
    exact .openInner (ih (Nat.le_add_left 1 depth) closed)
  | case4 depth inner top notNul =>
    obtain rfl : depth = 1 := Nat.le_antisymm top pos
    exact .close
  | case5 depth inner deep raw isClosed found notNul ih =>
    rw [found] at ih
    obtain ⟨depth, rfl⟩ : ∃ i, depth = i + 2 := ⟨depth - 2, by omega⟩
    exact .closeInner (ih (by omega) closed)
  | case6 depth c cs notOpening notClosing raw isClosed found notNul ih =>
    rw [found] at ih
    have rest := ih pos closed
    have isPrefix := (takeComment_live depth cs).1
    rw [found] at isPrefix
    have head : ∀ d, raw.head? = some d → ∃ more, cs = d :: more := by
      intro d first
      obtain ⟨more, rfl⟩ := List.head?_eq_some_iff.mp first
      obtain ⟨after, rfl⟩ := isPrefix
      exact ⟨_, rfl⟩
    refine .char (by simpa using notNul) ?_ ?_ rest
    · rintro ⟨slash, star⟩
      obtain ⟨more, same⟩ := head _ star
      exact notOpening more slash same
    · rintro ⟨star, slash⟩
      obtain ⟨more, same⟩ := head _ slash
      exact notClosing more star same

/-- The scan of a comment takes the rest of one whole, and no more. -/
theorem takeComment_of_commentRest (h : CommentRest depth cs) (rest : List Char) :
    takeComment depth (cs ++ rest) = (cs, true) := by
  induction h with
  | close => simp [takeComment, nul]
  | closeInner _ ih | openInner _ ih => simp [takeComment, nul, ih]
  | @char depth c cs notNul notOpening notClosing more ih =>
    obtain ⟨d, cs, rfl⟩ := List.exists_cons_of_ne_nil (show cs ≠ [] by cases more <;> simp)
    rw [List.cons_append, takeComment, if_neg (by simpa using notNul)]
    · rw [ih]
    · exact fun _ slash star => notOpening ⟨slash, by rw [List.cons_append] at star; simp [(List.cons.inj star).1]⟩
    · exact fun _ star slash => notClosing ⟨star, by rw [List.cons_append] at slash; simp [(List.cons.inj slash).1]⟩

/-- A comment that is not closed reaches to the end of the text. -/
theorem takeComment_open (isOpen : (takeComment depth cs).2 = false) :
    ∃ rest, cs = (takeComment depth cs).1 ++ rest ∧ EndsText rest := by
  fun_induction takeComment depth cs with
  | case1 => exact ⟨[], rfl, by simp [EndsText]⟩
  | case2 depth c cs isNul =>
    refine ⟨c :: cs, rfl, ?_⟩
    rintro d ⟨⟩
    simpa using isNul
  | case4 => simp at isOpen
  | case3 _ _ _ _ found _ ih | case5 _ _ _ _ _ found _ ih | case6 _ _ _ _ _ _ _ found _ ih =>
    rw [found] at ih
    obtain ⟨rest, rfl, ends⟩ := ih isOpen
    exact ⟨rest, rfl, ends⟩

/-! ### Literals of tokens -/

/-- What a piece becomes: a token whose literal is its source text, unless it is delimited or a separator. -/
structure IsToken (piece : Piece) (kind : TokenKind) (literal : String) (quoted : Bool) : Prop where
  content : piece.content = .token kind literal quoted
  notEof : kind ≠ .eof
  literal : kind ≠ .string → quoted = false → kind ≠ .separator → literal = String.ofList piece.raw

theorem plain_isToken {kind : TokenKind} (notEof : kind ≠ .eof) (raw : List Char) :
    (plain kind raw).IsToken kind (String.ofList raw) false := ⟨rfl, notEof, fun _ _ _ => rfl⟩

theorem ofWord_ne_eof (key : String) : TokenKind.ofWord key ≠ .eof := by
  unfold TokenKind.ofWord
  split <;> simp

theorem TokenForm.isToken {lineBlank : Bool} {c : Char} {piece : Piece}
    (form : TokenForm lineBlank c cs piece) : ∃ kind literal quoted, piece.IsToken kind literal quoted := by
  cases form with
  | quoted known =>
    obtain ⟨-, -, -, notEof, delimited⟩ := quotings_proper _ known
    refine ⟨_, _, _, rfl, notEof, fun notString notQuoted => ?_⟩
    simp_all
  | variableName =>
    unfold Piece.variableName
    split <;> exact ⟨_, _, _, plain_isToken (by decide) _⟩
  | word =>
    unfold Piece.word
    dsimp only
    split
    · exact ⟨_, _, _, rfl, by decide, by simp⟩
    · exact ⟨_, _, _, plain_isToken (ofWord_ne_eof _) _⟩
  | number => exact ⟨_, _, _, plain_isToken (by decide) _⟩
  | symbol => exact ⟨_, _, _, plain_isToken (by simp) _⟩
  | illegal => exact ⟨_, _, _, plain_isToken (by decide) _⟩

/-! ### The first piece of a text -/

/-- What a piece can be that stands in front of `after`. -/
inductive Cuts (piece : Piece) (after : List Char) : Prop
  | blank : piece.content = .blank → (∀ c ∈ piece.raw, c ∈ blanks) → Cuts piece after
  | line {body} : piece.content = .lineComment → piece.raw = '-' :: '-' :: body → (∀ c ∈ body, c ≠ '\n' ∧ c ≠ nul) →
      EndsLine after → Cuts piece after
  | block {body} : piece.content = .blockComment → piece.raw = '/' :: '*' :: body → CommentRest 1 body →
      Cuts piece after
  | unclosed {body} : piece.content = .blockComment → piece.raw = '/' :: '*' :: body → nul ∉ body → EndsText after →
      (∀ closed, closed <+: body → ¬CommentRest 1 closed) → piece.fault = some .unterminatedComment → Cuts piece after
  | token {kind literal quoted} : piece.IsToken kind literal quoted → nul ∉ piece.raw → Cuts piece after

theorem lineComment_cuts {cs after : List Char} {body : List Char} (split : cs = body ++ after)
    (taken : cs.takeWhile continuesLine = body) : (∀ c ∈ body, c ≠ '\n' ∧ c ≠ nul) ∧ EndsLine after := by
  constructor
  · intro c mem
    have all := List.all_takeWhile (p := continuesLine) (l := cs)
    rw [taken] at all
    simpa [continuesLine] using List.all_eq_true.mp all c mem
  · obtain rfl : after = cs.dropWhile continuesLine := by
      have whole := List.takeWhile_append_dropWhile (p := continuesLine) (l := cs)
      rw [taken] at whole
      exact List.append_cancel_left (split.symm.trans whole.symm)
    intro c first
    have stops := List.head?_dropWhile_not continuesLine cs
    rw [first] at stops
    by_cases newline : c = '\n'
    · exact .inl newline
    · exact .inr (by simpa [continuesLine, newline] using stops)

theorem blockComment_cuts (more : List Char) {after : List Char} {piece : Piece} (content : piece.content = .blockComment)
    (raw : piece.raw = '/' :: '*' :: (takeComment 1 (more ++ after)).1) (taken : (takeComment 1 (more ++ after)).1 = more)
    (fault : piece.fault = if (takeComment 1 (more ++ after)).2 then none else some .unterminatedComment) :
    Cuts piece after := by
  cases closed : (takeComment 1 (more ++ after)).2 with
  | true => exact .block content raw (commentRest_of_takeComment (Nat.le_refl 1) closed)
  | false =>
    obtain ⟨rest, split, ends⟩ := takeComment_open closed
    obtain rfl : after = rest := List.append_cancel_left (split.trans (by rw [taken]))
    refine .unclosed content raw (takeComment_live 1 _).2 ends ?_ (by rw [fault, closed]; rfl)
    -- what closes the comment early closes it in the whole text
    rintro part ⟨later, whole⟩ isClosed
    have early := takeComment_of_commentRest isClosed (later ++ after)
    rw [← List.append_assoc, whole, ← split] at early
    simp [early] at closed

/-- Blank, comment or token, the first piece of a text is what it says to be. -/
theorem first_cuts (lineBlank : Bool) {c : Char} {more after : List Char} (notNul : c ≠ nul)
    (raw : (first lineBlank c (more ++ after)).raw = c :: more) : Cuts (first lineBlank c (more ++ after)) after := by
  unfold first at raw ⊢
  split at raw
  · rename_i blank
    rw [if_pos blank]
    refine .blank rfl ?_
    intro d mem
    rw [← isBlank_iff]
    rcases List.mem_cons.mp mem with rfl | mem
    · exact blank
    · exact List.all_eq_true.mp List.all_takeWhile d mem
  rename_i notBlank
  rw [if_neg notBlank]
  split at raw
  · rename_i dashes
    rw [if_pos dashes]
    simp only [Bool.and_eq_true, beq_iff_eq] at dashes
    obtain ⟨body, split⟩ := List.head?_eq_some_iff.mp dashes.2
    have taken : (more ++ after).takeWhile continuesLine = more := (List.cons.inj raw).2
    rw [split, List.takeWhile_cons_of_pos (by decide)] at taken
    subst taken
    have inner : body = body.takeWhile continuesLine ++ after := by simpa using split.symm
    obtain ⟨body', ends⟩ := lineComment_cuts inner rfl
    refine .line rfl ?_ body' ends
    rw [dashes.1, split, List.takeWhile_cons_of_pos (by decide)]
  rename_i noLine
  rw [if_neg noLine]
  split at raw
  · rename_i opening
    rw [if_pos opening]
    simp only [Bool.and_eq_true, beq_iff_eq] at opening
    obtain ⟨body, split⟩ := List.head?_eq_some_iff.mp opening.2
    have taken : '*' :: (takeComment 1 (more ++ after).tail).1 = more := (List.cons.inj raw).2
    rw [split, List.tail_cons] at taken
    subst taken
    have inner : body = (takeComment 1 body).1 ++ after := by simpa using split.symm
    refine blockComment_cuts (takeComment 1 body).1 rfl ?_ ?_ ?_ <;> rw [← inner]
    · exact congrArg (fun cs => '/' :: '*' :: (takeComment 1 cs).1) (congrArg List.tail split)
    · exact congrArg (fun cs : List Char => if (takeComment 1 cs).2 then none else some LexFault.unterminatedComment)
        (congrArg List.tail split)
  · rename_i noBlock
    rw [if_neg noBlock]
    have form := token_form lineBlank c (more ++ after)
    obtain ⟨kind, literal, quoted, isToken⟩ := form.isToken
    exact .token isToken (form.raw notNul).2.2

end Piece

/-! ### Tiling -/

/-- Characters that can stand in front of a gap. -/
def Extends (read after : List Char) : Prop :=
  ∀ gap rest, after = gap ++ rest → Separation rest gap → Separation rest (read ++ gap)

theorem Extends.blanks {read : List Char} (all : ∀ c ∈ read, c ∈ blanks) (after : List Char) : Extends read after := by
  intro gap rest _ separation
  induction read with
  | nil => exact separation
  | cons c read ih => exact .blank (all c List.mem_cons_self) (ih fun d mem => all d (List.mem_cons_of_mem c mem))

theorem Extends.line {body after : List Char} (chars : ∀ c ∈ body, c ≠ '\n' ∧ c ≠ nul) (ends : EndsLine after) :
    Extends ('-' :: '-' :: body) after := by
  rintro gap rest rfl separation
  exact .line chars ends separation

theorem Extends.block {body : List Char} (closed : CommentRest 1 body) (after : List Char) :
    Extends ('/' :: '*' :: body) after := fun _ _ _ separation => .block closed separation

namespace Tiles

variable {reported reported' : Nat → Prop} {offset : Nat} {read text : List Char} {tokens : List Token}

theorem mono (le : ∀ n, reported n → reported' n) (h : Tiles reported offset text tokens) :
    Tiles reported' offset text tokens := by
  induction h with
  | token separation some noNul notEof start stop literal _ ih =>
    exact .token separation some noNul notEof start stop literal ih
  | last ends gap isEof start =>
    refine .last ends (gap.imp_right ?_) isEof start
    rintro ⟨separation, noNul, ends, notClosed, isReported⟩
    exact .intro separation noNul ends notClosed (le _ isReported)

/-- A blank or a comment in front of a text belongs to its first gap. -/
theorem skip (extend : Extends read text) (h : Tiles reported (offset + byteLength read) text tokens) :
    Tiles reported offset (read ++ text) tokens := by
  cases h with
  | token separation some noNul notEof start stop literal rest =>
    rw [← List.append_assoc]
    refine .token (extend _ _ rfl separation) some noNul notEof ?_ stop literal rest
    rw [start, byteLength_append, Nat.add_assoc]
  | last ends gap isEof start =>
    rw [← List.append_assoc]
    refine .last ends ?_ isEof (by rw [start, byteLength_append, Nat.add_assoc])
    rcases gap with separation | ⟨separation, noNul, ends, notClosed, isReported⟩
    · exact .inl (extend _ _ rfl separation)
    · refine .inr ?_
      rw [← List.append_assoc]
      refine .intro (extend _ _ (by simp) separation) noNul ends notClosed ?_
      rwa [byteLength_append, ← Nat.add_assoc]

end Tiles

namespace Lexer

theorem cut_ended (lineBlank : Bool) {text : List Char} (ends : EndsText text) : cut lineBlank 0 text = [] := by
  cases text with
  | nil => rfl
  | cons c text => simp [cut, ends c rfl]

/-- The errors report a comment at the offset that is not closed. -/
def Reported (errors : List LexError) (offset : Nat) : Prop :=
  ∃ e ∈ errors, e.fault = .unterminatedComment ∧ e.position.offset = offset

theorem Reported.later {offset : Nat} (cursor : Cursor) (piece : Piece) {rest : List Piece}
    (h : Reported (faults (cursor.advanceAll piece.raw) rest) offset) :
    Reported (faults cursor (piece :: rest)) offset := by
  obtain ⟨e, mem, isComment⟩ := h
  refine ⟨e, ?_, isComment⟩
  unfold faults
  dsimp only
  split
  · exact List.mem_cons_of_mem _ mem
  · exact mem

theorem place_ended (cursor : Cursor) {text : List Char} (ends : EndsText text) (reported : Nat → Prop) :
    Tiles reported cursor.offset text [endToken cursor] :=
  show Tiles reported cursor.offset ([] ++ text) _ from .last ends (.inl .nil) rfl (offset_position cursor [])

/-- The tokens of a text tile it. -/
theorem place_tiles (cursor : Cursor) (lineBlank : Bool) (text : List Char) :
    Tiles (Reported (faults cursor (cut lineBlank 0 text))) cursor.offset text (place cursor (cut lineBlank 0 text)) := by
  match text with
  | [] => exact place_ended cursor (by simp [EndsText]) _
  | c :: text =>
    by_cases isNul : c = nul
    · have ends : EndsText (c :: text) := by simpa [EndsText] using isNul
      rw [cut_ended lineBlank ends]
      exact place_ended cursor ends _
    obtain ⟨more, after, raw, rfl, pieces⟩ := cut_cons lineBlank text isNul
    have cuts := first_cuts lineBlank isNul raw
    rw [pieces]
    generalize Piece.first lineBlank c (more ++ after) = piece at raw cuts
    rw [← raw, show c :: (more ++ after) = piece.raw ++ after by rw [raw]; rfl]
    have rest := place_tiles (cursor.advanceAll piece.raw) (lineBlankAfterAll lineBlank piece.raw) after
    rw [advanceAll_offset] at rest
    have rest := rest.mono fun n (isReported : Reported _ n) => isReported.later cursor piece
    cases cuts with
    | blank content blanks =>
      rw [place]
      simp only [content]
      exact rest.skip (.blanks blanks after)
    | line content whole body ends =>
      rw [place]
      simp only [content]
      exact rest.skip (whole ▸ .line body ends)
    | block content whole closed =>
      rw [place]
      simp only [content]
      exact rest.skip (whole ▸ .block closed after)
    | unclosed content whole noNul ends notClosed fault =>
      have isReported : Reported (faults cursor [piece]) cursor.offset := by
        refine ⟨⟨cursor.position piece.raw, .unterminatedComment⟩, ?_, rfl, offset_position cursor piece.raw⟩
        simp [faults, fault]
      simp only [place, content, cut_ended _ ends]
      refine .last ends (.inr ?_) rfl ((offset_position _ _).trans (advanceAll_offset cursor piece.raw))
      rw [whole]
      exact show Unclosed _ _ _ ([] ++ _) from .intro .nil noNul ends notClosed isReported
    | token isToken noNul =>
      have some : piece.raw ≠ [] := by simp [raw]
      have start := offset_position cursor piece.raw
      have stop := offset_position (cursor.advanceAll piece.raw)
        (following (cut (lineBlankAfterAll lineBlank piece.raw) 0 after))
      rw [advanceAll_offset] at stop
      simp only [place, isToken.content]
      refine show Tiles _ _ ([] ++ _) _ from
        .token .nil some noNul isToken.notEof start (by rw [stop, start]) ?_ (by rwa [stop])
      intro verbatim
      exact isToken.literal verbatim.string verbatim.quoted verbatim.separator
termination_by text.length

end Lexer

/-! ### What tiling says -/

/-- Where the text behind some tokens starts. -/
def lastStop (offset : Nat) (tokens : List Token) : Nat := (tokens.getLast?.map fun t => t.stop.offset).getD offset

@[simp] theorem lastStop_nil (offset : Nat) : lastStop offset [] = offset := rfl

@[simp] theorem lastStop_cons (offset : Nat) (t : Token) (tokens : List Token) :
    lastStop offset (t :: tokens) = lastStop t.stop.offset tokens := by
  cases tokens <;> simp [lastStop, List.getLast?_cons]

/-- Blanks and comments stand between the offset and the token. -/
def GapBefore (source : String) (errors : List LexError) (stop : Nat) (t : Token) : Prop :=
  ∃ read gap rest, source.toList = read ++ gap ++ rest ∧ byteLength read = stop ∧
    byteLength read + byteLength gap = t.start.offset ∧
    (Separation rest gap ∨ t.kind = .eof ∧ Unclosed (Lexer.Reported errors) (byteLength read) rest gap)

/-- Tokens and what separates them make up a text, up to its end or its first NUL character. -/
structure Tiling (source : String) (tokens : List Token) (errors : List LexError) : Prop where
  /-- The last token stands for the end of the text, and no other one does. -/
  last : ∃ front eof, tokens = front ++ [eof] ∧ (∀ t ∈ front, t.kind ≠ .eof) ∧ eof.kind = .eof ∧
    eof.start.offset = byteLength (source.toList.takeWhile (· != nul))
  extent : ∀ t ∈ tokens, t.kind ≠ .eof → t.start.offset < t.stop.offset ∧ t.stop.offset ≤ source.utf8ByteSize
  ordered : ∀ before t u after, tokens = before ++ t :: u :: after → t.stop.offset ≤ u.start.offset
  gaps : ∀ before t after, tokens = before ++ t :: after → GapBefore source errors (lastStop 0 before) t
  literal : ∀ t ∈ tokens, t.Verbatim → t.literal = Extent.slice source t.start.offset t.stop.offset

namespace Tiles

variable {source : String} {errors : List LexError} {text : List Char} {offset : Nat} {tokens : List Token}

theorem takeWhile_ended {rest : List Char} (ends : EndsText rest) : rest.takeWhile (· != nul) = [] := by
  cases rest with
  | nil => rfl
  | cons c rest => simp [ends c rfl]

theorem takeWhile_noNul {read : List Char} (noNul : nul ∉ read) (rest : List Char) :
    (read ++ rest).takeWhile (· != nul) = read ++ rest.takeWhile (· != nul) := by
  refine List.takeWhile_append_of_pos fun c mem => ?_
  have notNul : c ≠ nul := fun isNul => noNul (isNul ▸ mem)
  simpa using notNul

theorem last_eof (h : Tiles (Lexer.Reported errors) offset text tokens) :
    ∃ front eof, tokens = front ++ [eof] ∧ (∀ t ∈ front, t.kind ≠ .eof) ∧ eof.kind = .eof ∧
      eof.start.offset = offset + byteLength (text.takeWhile (· != nul)) := by
  induction h with
  | token separation some noNul notEof start stop literal _ ih =>
    obtain ⟨front, eof, rfl, others, isEof, place⟩ := ih
    refine ⟨_ :: front, eof, rfl, ?_, isEof, ?_⟩
    · rintro u (_ | ⟨_, mem⟩)
      · exact notEof
      · exact others u mem
    · rw [takeWhile_noNul separation.noNul, takeWhile_noNul noNul, byteLength_append, byteLength_append]
      omega
  | @last offset gap rest t ends separation isEof start =>
    have noNul : nul ∉ gap := separation.elim Separation.noNul Unclosed.noNul
    refine ⟨[], t, rfl, by simp, isEof, ?_⟩
    rw [start, takeWhile_noNul noNul, takeWhile_ended ends, List.append_nil]

/-- A token that is not the end has its own characters at its offsets; by induction on the tiling. -/
theorem token_text (h : Tiles (Lexer.Reported errors) offset text tokens) (read : List Char)
    (whole : source.toList = read ++ text) (at_ : byteLength read = offset) {t : Token} (mem : t ∈ tokens)
    (notEof : t.kind ≠ .eof) :
    ∃ read raw rest, source.toList = read ++ raw ++ rest ∧ raw ≠ [] ∧ t.start.offset = byteLength read ∧
      t.stop.offset = byteLength read + byteLength raw ∧ (t.Verbatim → t.literal = String.ofList raw) := by
  induction h generalizing read with
  | @token offset gap raw rest u ts separation some noNul _ start stop literal _ ih =>
    rcases List.mem_cons.mp mem with rfl | mem
    · refine ⟨read ++ gap, raw, rest, by simpa using whole, some, ?_, ?_, literal⟩
      · rw [start, byteLength_append, at_]
      · rw [stop, start, byteLength_append, at_]
    · refine ih (read ++ gap ++ raw) (by simpa using whole) ?_ mem
      rw [stop, start, byteLength_append, byteLength_append, at_]
  | last ends separation isEof start =>
    obtain rfl := List.mem_singleton.mp mem
    exact absurd isEof notEof

/-- What lies between a token and the one before it; by induction on the tiling. -/
theorem gap_before (h : Tiles (Lexer.Reported errors) offset text tokens) (read : List Char)
    (whole : source.toList = read ++ text) (at_ : byteLength read = offset) {before after : List Token} {t : Token}
    (split : tokens = before ++ t :: after) :
    GapBefore source errors (lastStop offset before) t := by
  induction h generalizing read before with
  | @token offset gap raw rest u ts separation some noNul _ start stop literal _ ih =>
    cases before with
    | nil =>
      obtain ⟨rfl, rfl⟩ := List.cons.inj split
      exact ⟨read, gap, raw ++ rest, by simpa using whole, at_, by rw [start, at_], .inl separation⟩
    | cons v before =>
      obtain ⟨rfl, rfl⟩ := List.cons.inj split
      rw [lastStop_cons]
      refine ih (read ++ gap ++ raw) (by simpa using whole) ?_ rfl
      rw [stop, start, byteLength_append, byteLength_append, at_]
  | @last offset gap rest u ends separation isEof start =>
    cases before with
    | nil =>
      obtain ⟨rfl, rfl⟩ := List.cons.inj split
      refine ⟨read, gap, rest, by simpa using whole, at_, by rw [start, at_], ?_⟩
      rw [at_]
      exact separation.imp_right (And.intro isEof)
    | cons v before => simp at split

/-- What a text from its start is made of. -/
theorem tiling (h : Tiles (Lexer.Reported errors) 0 source.toList tokens) : Tiling source tokens errors where
  last := by simpa using h.last_eof
  extent := by
    intro t mem notEof
    obtain ⟨read, raw, rest, whole, some, start, stop, _⟩ := h.token_text [] rfl rfl mem notEof
    have size : source.utf8ByteSize = byteLength source.toList := by rw [byteLength, String.ofList_toList]
    have pos := byteLength_pos some
    rw [size, whole, byteLength_append, byteLength_append]
    omega
  ordered := by
    intro before t u after split
    obtain ⟨read, gap, rest, _, stop, start, _⟩ :=
      h.gap_before [] rfl rfl (show tokens = (before ++ [t]) ++ u :: after by simpa using split)
    have behind : lastStop 0 (before ++ [t]) = t.stop.offset := by simp [lastStop]
    omega
  gaps := fun _ _ _ split => h.gap_before [] rfl rfl split
  literal := by
    intro t mem verbatim
    obtain ⟨read, raw, rest, whole, _, start, stop, literal⟩ := h.token_text [] rfl rfl mem verbatim.eof
    rw [literal verbatim, start, stop, slice_middle whole]

end Tiles

/-- The tokens of a text tile it, and a comment that is not closed is among its errors. -/
theorem tokenize_tiling (source : String) : Tiling source (tokenize source) (lexErrors source) :=
  (Lexer.place_tiles {} true source.toList).tiling

end ColumnFlow
