import ColumnFlow.Proofs.Lockstep
import ColumnFlow.Token.Lexer

/-!
# Texts put one after the other

A line end behind a text cuts it off from what follows: every piece of the text is the same with and without the
rest, except that blanks at its end grow into the line end. So the tokens of a text, a separator on a line of its
own and another text are the tokens of the one, the separator, and the tokens of the other moved down.

A piece that is not closed would reach into the rest, and a NUL character would end the text: both are excluded.
-/

namespace ColumnFlow

open List (cons_append head?_eq_some_iff)

/-! ### Cutting off at a line end -/

section TakeWhile

variable {α : Type} {p : α → Bool} {d : α}

theorem takeWhile_append_stop (h : p d = false) (xs ys : List α) : (xs ++ d :: ys).takeWhile p = xs.takeWhile p := by
  induction xs with
  | nil => simp [h]
  | cons x xs ih => simp [List.takeWhile_cons, ih]

theorem dropWhile_append_stop (h : p d = false) (xs ys : List α) :
    (xs ++ d :: ys).dropWhile p = xs.dropWhile p ++ d :: ys := by
  induction xs with
  | nil => simp [h]
  | cons x xs ih =>
    simp only [cons_append, List.dropWhile_cons]
    split
    · exact ih
    · rfl

end TakeWhile

namespace Piece

/-- Characters at the head of a text, all of them before its end. -/
def Live (raw cs : List Char) : Prop := raw <+: cs ∧ nul ∉ raw

namespace Live

variable {raw cs : List Char}

theorem nil (cs : List Char) : Live [] cs := ⟨List.nil_prefix, List.not_mem_nil⟩

theorem append {read : List Char} (noNul : nul ∉ read) (live : Live raw cs) : Live (read ++ raw) (read ++ cs) :=
  ⟨(List.prefix_append_right_inj _).mpr live.1, by simp [noNul, live.2]⟩

theorem cons {c : Char} (notNul : c ≠ nul) (live : Live raw cs) : Live (c :: raw) (c :: cs) :=
  show Live ([c] ++ raw) ([c] ++ cs) from append (by simpa using notNul.symm) live

theorem takeWhile_append {p : Char → Bool} (stops : p nul = false) (live : Live raw (cs.dropWhile p)) :
    Live (cs.takeWhile p ++ raw) cs := by
  have noNul : nul ∉ cs.takeWhile p := fun mem => by
    simpa [stops] using List.all_eq_true.mp (List.all_takeWhile (p := p)) nul mem
  simpa using append noNul live

theorem takeWhile {p : Char → Bool} (stops : p nul = false) (cs : List Char) : Live (cs.takeWhile p) cs := by
  simpa using takeWhile_append stops (nil _)

end Live

variable (rest : List Char)

/-- What follows a comment that is closed does not change it. -/
theorem takeComment_append {depth : Nat} {cs : List Char} (closed : (takeComment depth cs).2 = true) :
    takeComment depth (cs ++ rest) = takeComment depth cs := by
  fun_induction takeComment depth cs with
  | case1 | case2 => simp at closed
  | case3 depth inner raw isClosed found notNul ih =>
    have more := ih (by rw [found]; exact closed)
    simp [takeComment, notNul, more, found]
  | case4 depth inner top notNul => simp [takeComment, notNul, top]
  | case5 depth inner deep raw isClosed found notNul ih =>
    have more := ih (by rw [found]; exact closed)
    simp [takeComment, notNul, deep, more, found]
  | case6 depth c cs notOpening notClosing raw isClosed found notNul ih =>
    have more := ih (by rw [found]; exact closed)
    cases cs with
    | nil =>
      simp only [takeComment, Prod.mk.injEq] at found
      simp [← found.2] at closed
    | cons d cs =>
      rw [cons_append, cons_append, takeComment]
      · rw [← cons_append, more, if_neg notNul, found]
      · exact fun _ slash star => notOpening cs slash (by rw [(List.cons.inj star).1])
      · exact fun _ star slash => notClosing cs star (by rw [(List.cons.inj slash).1])

theorem takeComment_live (depth : Nat) (cs : List Char) : Live (takeComment depth cs).1 cs := by
  fun_induction takeComment depth cs with
  | case1 | case2 => exact .nil _
  | case3 _ _ _ _ found _ ih | case5 _ _ _ _ _ found _ ih =>
    rw [found] at ih
    exact .cons (by decide) (.cons (by decide) ih)
  | case4 depth inner => exact .cons (by decide) (.cons (by decide) (.nil _))
  | case6 depth c cs notOpening notClosing raw isClosed found notNul ih =>
    rw [found] at ih
    exact .cons (by simpa using notNul) ih

theorem takeDelimited_inside {closing c : Char} {cs : List Char} (notNul : ¬(c == nul) = true)
    (inside : ¬(c == closing) = true) :
    takeDelimited closing (c :: cs) =
      ⟨c :: (takeDelimited closing cs).literal, c :: (takeDelimited closing cs).raw, (takeDelimited closing cs).closed⟩ := by
  cases cs <;> simp [takeDelimited, notNul, inside]

/-- What follows a delimited text that is closed does not change it. -/
theorem takeDelimited_append {closing : Char} {cs : List Char} (other : closing ≠ '\n')
    (closed : (takeDelimited closing cs).closed = true) :
    takeDelimited closing (cs ++ '\n' :: rest) = takeDelimited closing cs := by
  fun_induction takeDelimited closing cs with
  | case1 | case2 => simp at closed
  | case3 c notNul isClosing d cs doubled inner ih => simp [takeDelimited, notNul, isClosing, doubled, ih closed, inner]
  | case4 c notNul isClosing d cs single => simp [takeDelimited, notNul, isClosing, single]
  | case5 c notNul isClosing => simp [takeDelimited, notNul, isClosing, other.symm]
  | case6 c cs notNul inside inner ih => rw [cons_append, takeDelimited_inside notNul inside, ih closed]

theorem takeDelimited_live {closing : Char} (other : closing ≠ nul) (cs : List Char) :
    Live (takeDelimited closing cs).raw cs := by
  fun_induction takeDelimited closing cs with
  | case1 | case2 => exact .nil _
  | case3 c notNul isClosing d cs doubled inner ih =>
    rw [beq_iff_eq] at isClosing doubled
    rw [isClosing, doubled]
    exact .cons other (.cons other ih)
  | case4 c notNul isClosing | case5 c notNul isClosing =>
    rw [beq_iff_eq] at isClosing
    rw [isClosing]
    exact .cons other (.nil _)
  | case6 c cs notNul inside inner ih => exact .cons (by simpa using notNul) ih

/-! ### Numbers -/

variable {c : Char} (cs : List Char) (lineBlank : Bool)

theorem takeExponent_append : takeExponent (cs ++ '\n' :: rest) = takeExponent cs := by
  match cs with
  | [] => rfl
  | [e] => simp [takeExponent]
  | e :: c :: cs =>
    have digits := takeWhile_append_stop (p := Char.isDigit) (d := '\n') rfl cs rest
    simp [takeExponent, List.takeWhile_cons, digits]

theorem takeExponent_live : Live (takeExponent cs) cs := by
  match cs with
  | [] => exact .nil _
  | [e] => simpa [takeExponent] using .nil [e]
  | e :: c :: cs =>
    simp only [takeExponent]
    split
    · rename_i mark
      have notNul : e ≠ nul := by
        rintro rfl
        exact absurd mark (by decide)
      split
      · rename_i sign
        refine .cons notNul (.cons ?_ (.takeWhile rfl cs))
        rintro rfl
        exact absurd sign (by decide)
      · split
        · exact .cons notNul (.takeWhile rfl (c :: cs))
        · exact .nil _
    · exact .nil _

theorem takeDecimal_append : takeDecimal (cs ++ '\n' :: rest) = takeDecimal cs := by
  unfold takeDecimal
  rw [takeWhile_append_stop rfl, dropWhile_append_stop rfl]
  match cs.dropWhile Char.isDigit with
  | [] => rfl
  | c :: more =>
    by_cases point : c = '.'
    · subst point
      simp [takeWhile_append_stop, dropWhile_append_stop, takeExponent_append]
    · have exponent := takeExponent_append rest (c :: more)
      simp_all

theorem takeDecimal_live : Live (takeDecimal cs) cs := by
  unfold takeDecimal
  dsimp only
  split
  · rename_i more after
    rw [List.append_assoc]
    refine .takeWhile_append rfl ?_
    rw [after, cons_append]
    exact .cons (by decide) (.takeWhile_append rfl (takeExponent_live _))
  · exact .takeWhile_append rfl (takeExponent_live _)

theorem takeNumber_decimal {cs : List Char} (h : c ≠ '0') : takeNumber (c :: cs) = takeDecimal (c :: cs) := by
  unfold takeNumber
  split <;> simp_all

/-- A number ends at a line end at the latest. -/
theorem takeNumber_append (c : Char) (cs : List Char) : takeNumber (c :: cs ++ '\n' :: rest) = takeNumber (c :: cs) := by
  have decimal := takeDecimal_append rest (c :: cs)
  by_cases zero : c = '0'
  · subst zero
    match cs with
    | [] => simpa [takeNumber] using decimal
    | x :: cs =>
      have digits := takeWhile_append_stop (p := isHexDigit) (d := '\n') rfl cs rest
      simp only [cons_append, takeNumber, digits] at decimal ⊢
      rw [decimal]
  · rw [cons_append] at decimal ⊢
    rw [takeNumber_decimal zero, takeNumber_decimal zero, decimal]

theorem takeNumber_live : Live (takeNumber cs) cs := by
  unfold takeNumber
  split
  · rename_i x cs
    split
    · rename_i mark
      refine .cons (by decide) (.cons ?_ (.takeWhile (by decide) cs))
      rintro rfl
      exact absurd mark (by decide)
    · exact takeDecimal_live _
  · exact takeDecimal_live _

theorem takeDecimal_ne_nil (h : (c.isDigit || c == '.') = true) : takeDecimal (c :: cs) ≠ [] := by
  unfold takeDecimal
  cases digit : c.isDigit with
  | true =>
    simp only [List.takeWhile_cons, digit, if_true]
    split <;> simp
  | false =>
    obtain rfl : c = '.' := by simpa [digit] using h
    simp [digit]

theorem takeNumber_ne_nil (h : (c.isDigit || c == '.') = true) : takeNumber (c :: cs) ≠ [] := by
  unfold takeNumber
  split
  · rename_i x cs same
    obtain ⟨rfl, rfl⟩ := List.cons.inj same
    split
    · simp
    · exact takeDecimal_ne_nil _ h
  · exact takeDecimal_ne_nil _ h

/-! ### Separators and symbols -/

theorem head?_append {d : Char} (other : d ≠ '\n') (cs : List Char) :
    ((cs ++ '\n' :: rest).head? == some d) = (cs.head? == some d) := by
  cases cs with
  | nil => simpa using Ne.symm other
  | cons c cs => rfl

theorem endsLine_append : endsLine (cs ++ '\n' :: rest) = endsLine cs := by
  induction cs with
  | nil => rfl
  | cons c cs ih => rw [cons_append, endsLine, endsLine, ih, head?_append rest (by decide)]

theorem symbolAt?_newline (c : Char) : symbolAt? c (some '\n') = symbolAt? c none := by
  unfold symbolAt?
  split <;> simp_all

theorem symbolAt?_length {next : Option Char} {s : Symbol} {n : Nat} (h : symbolAt? c next = some (s, n)) :
    n = 1 ∨ n = 2 ∧ ∃ d, next = some d ∧ d ≠ nul := by
  unfold symbolAt? at h
  split at h <;> simp_all [nul]

/-! ### Pieces -/

theorem delimited_append {opening cs : List Char} {closing : Char} {kind : TokenKind} {quoted : Bool} {fault : LexFault}
    (other : closing ≠ '\n') (clean : (delimited opening closing kind quoted fault cs).fault = none) :
    delimited opening closing kind quoted fault (cs ++ '\n' :: rest) = delimited opening closing kind quoted fault cs := by
  have closed : (takeDelimited closing cs).closed = true := by
    simp only [delimited] at clean
    split at clean
    · assumption
    · simp at clean
  unfold delimited
  rw [takeDelimited_append rest other closed]

theorem word_append (cs : List Char) : word lineBlank (cs ++ '\n' :: rest) = word lineBlank cs := by
  unfold word
  rw [takeWhile_append_stop (by decide), dropWhile_append_stop (by decide)]
  dsimp only
  rw [endsLine_append, takeWhile_append_stop (by decide)]

theorem variableName_append : variableName (cs ++ '\n' :: rest) = variableName cs := by
  have names := fun cs => takeWhile_append_stop (p := isWordPart) (d := '\n') (by decide) cs rest
  match cs with
  | [] => exact congrArg (fun name => plain .variableName ('@' :: name)) (names [])
  | c :: cs =>
    by_cases double : c = '@'
    · subst double
      simp [variableName, names]
    · have name := names (c :: cs)
      rw [cons_append] at name ⊢
      unfold variableName
      split <;> simp_all

theorem head?_any_append : (cs ++ '\n' :: rest).head?.any Char.isDigit = cs.head?.any Char.isDigit := by
  cases cs <;> rfl

/-- No symbol of two characters has a line end as its second. -/
theorem symbol_append (c : Char) (cs : List Char) :
    (match symbolAt? c (cs ++ '\n' :: rest).head? with
      | some (s, length) => plain (.symbol s) ((c :: (cs ++ '\n' :: rest)).take length)
      | none => plain .illegal [c]) =
      match symbolAt? c cs.head? with
      | some (s, length) => plain (.symbol s) ((c :: cs).take length)
      | none => plain .illegal [c] := by
  have same : symbolAt? c (cs ++ '\n' :: rest).head? = symbolAt? c cs.head? := by
    cases cs with
    | nil => exact symbolAt?_newline c
    | cons d cs => rfl
  rw [same]
  split
  · rename_i s length found
    rcases symbolAt?_length found with rfl | ⟨rfl, d, next, -⟩
    · rfl
    · obtain ⟨cs, rfl⟩ := head?_eq_some_iff.mp next
      rfl
  · rfl

/-- Pieces that are chosen in the same way are the same if those that can be chosen are, as long as they are closed. -/
theorem ite_append {p : Prop} [Decidable p] {a a' b b' : Piece} (yes : p → a.fault = none → a' = a)
    (no : b.fault = none → b' = b) (clean : (if p then a else b).fault = none) :
    (if p then a' else b') = if p then a else b := by
  split at clean
  · rw [if_pos ‹p›, if_pos ‹p›, yes ‹p› clean]
  · rw [if_neg ‹¬p›, if_neg ‹¬p›, no clean]

/-- A token without a fault is the same when another line follows. -/
theorem token_append {lineBlank : Bool} {cs : List Char} (clean : (token lineBlank c cs).fault = none) :
    token lineBlank c (cs ++ '\n' :: rest) = token lineBlank c cs := by
  unfold token at clean ⊢
  rw [head?_append rest (by decide), head?_any_append]
  refine ite_append (fun _ => delimited_append rest (by decide)) ?_ clean
  refine ite_append (fun _ => delimited_append rest (by decide)) ?_
  refine ite_append (fun _ => delimited_append rest (by decide)) ?_
  refine ite_append (fun _ _ => variableName_append rest cs) (ite_append (fun national clean => ?_) ?_)
  · simp only [Bool.and_eq_true, beq_iff_eq] at national
    obtain ⟨more, rfl⟩ := head?_eq_some_iff.mp national.2
    exact delimited_append rest (by decide) clean
  refine ite_append (fun _ _ => word_append rest lineBlank (c :: cs)) ?_
  exact ite_append (fun _ _ => congrArg (plain .number) (takeNumber_append rest c cs)) fun _ => symbol_append rest c cs

/-- A piece other than a blank is the same with and without the text behind the line end. -/
theorem first_append {lineBlank : Bool} {cs : List Char} (notBlank : Piece.isBlank c = false)
    (clean : (first lineBlank c cs).fault = none) : first lineBlank c (cs ++ '\n' :: rest) = first lineBlank c cs := by
  unfold first at clean ⊢
  simp only [notBlank, Bool.false_eq_true, if_false] at clean ⊢
  rw [head?_append rest (by decide), head?_append rest (by decide)]
  refine ite_append (fun _ _ => by rw [takeWhile_append_stop (by decide)])
    (ite_append (fun opening clean => ?_) (token_append rest)) clean
  simp only [Bool.and_eq_true, beq_iff_eq] at opening
  obtain ⟨more, rfl⟩ := head?_eq_some_iff.mp opening.2
  have closed : (takeComment 1 more).2 = true := by
    cases closed : (takeComment 1 more).2 with
    | true => rfl
    | false =>
      have fault : (if (takeComment 1 more).2 then none else some LexFault.unterminatedComment) = none := clean
      simp [closed] at fault
  exact congrArg (fun inner : List Char × Bool => Piece.mk ('/' :: '*' :: inner.1) .blockComment
    (if inner.2 then none else some .unterminatedComment)) (takeComment_append ('\n' :: rest) closed)

/-! ### Forms of tokens -/

/-- A way to quote a text: what stands in front of it and behind it, which token it becomes, and what is reported if it is
not closed. -/
structure Quoting where
  opening : List Char
  closing : Char
  kind : TokenKind
  quoted : Bool
  fault : LexFault

def quotings : List Quoting :=
  [⟨['\''], '\'', .string, false, .unterminatedString⟩, ⟨['N', '\''], '\'', .string, false, .unterminatedString⟩,
    ⟨['n', '\''], '\'', .string, false, .unterminatedString⟩, ⟨['['], ']', .ident, true, .unterminatedIdent⟩,
    ⟨['"'], '"', .ident, true, .unterminatedIdent⟩]

theorem quotings_proper : ∀ q ∈ quotings, q.opening ≠ [] ∧ nul ∉ q.opening ∧ q.closing ≠ nul ∧ q.kind ≠ .eof ∧
    (q.kind = .string ∨ q.quoted = true) := by
  simp [quotings, nul]

/-- What the token at the head of `c :: cs` is, by the characters it starts with. -/
inductive TokenForm (lineBlank : Bool) (c : Char) (cs : List Char) : Piece → Prop
  | quoted {opening inside closing kind quoted fault} : ⟨opening, closing, kind, quoted, fault⟩ ∈ quotings →
      opening ++ inside = c :: cs → TokenForm lineBlank c cs (delimited opening closing kind quoted fault inside)
  | variableName : c = '@' → TokenForm lineBlank c cs (variableName cs)
  | word : isWordStart c = true → TokenForm lineBlank c cs (word lineBlank (c :: cs))
  | number : (c.isDigit || c == '.') = true → TokenForm lineBlank c cs (plain .number (takeNumber (c :: cs)))
  | symbol {s n} : symbolAt? c cs.head? = some (s, n) →
      TokenForm lineBlank c cs (plain (.symbol s) ((c :: cs).take n))
  | illegal : TokenForm lineBlank c cs (plain .illegal [c])

/-- The case split of `token`, made once for all that is said of its pieces. -/
theorem token_form (c : Char) (cs : List Char) : TokenForm lineBlank c cs (token lineBlank c cs) := by
  have quote {d : Char} (same : (c == d) = true) : [d] ++ cs = c :: cs := congrArg (· :: cs) (eq_of_beq same).symm
  unfold token
  split
  · exact .quoted (by simp [quotings]) (quote ‹_›)
  split
  · exact .quoted (by simp [quotings]) (quote ‹_›)
  split
  · exact .quoted (by simp [quotings]) (quote ‹_›)
  split
  · exact .variableName (eq_of_beq ‹_›)
  split
  · rename_i national
    simp only [Bool.and_eq_true, Bool.or_eq_true, beq_iff_eq] at national
    obtain ⟨letter, rest⟩ := national
    obtain ⟨more, rfl⟩ := head?_eq_some_iff.mp rest
    exact .quoted (by rcases letter with rfl | rfl <;> simp [quotings]) rfl
  split
  · exact .word ‹_›
  split
  · rename_i number
    simp only [Bool.or_eq_true, Bool.and_eq_true] at number
    exact .number (by simpa using number.imp_right And.left)
  split
  · exact .symbol ‹_›
  · exact .illegal

theorem first_eq_word {cs : List Char} (starts : isWordStart c = true)
    (unquoted : ((c == 'N' || c == 'n') && cs.head? == some '\'') = false) :
    first lineBlank c cs = word lineBlank (c :: cs) := by
  have other {d : Char} (isNot : isWordStart d = false) : (c == d) = false :=
    beq_false_of_ne fun same => by simp [same, isNot] at starts
  simp (disch := decide) only [first, token, isBlank, other, unquoted, starts, Bool.or_self, Bool.false_and,
    Bool.false_eq_true, if_false, if_true]

theorem isWordPart_of_isWordStart (starts : isWordStart c = true) : isWordPart c = true := by
  simp only [isWordStart, isWordPart, Bool.or_eq_true] at starts ⊢
  grind

/-- Every form reads something, and never past the end of the text. -/
theorem TokenForm.raw {lineBlank : Bool} {cs : List Char} {piece : Piece} (form : TokenForm lineBlank c cs piece)
    (notNul : c ≠ nul) : piece.raw ≠ [] ∧ Live piece.raw (c :: cs) := by
  cases form with
  | quoted known split =>
    rw [← split]
    obtain ⟨opens, noNul, other, -⟩ := quotings_proper _ known
    exact ⟨fun none => opens (List.append_eq_nil_iff.mp none).1, .append noNul (takeDelimited_live other _)⟩
  | variableName sign =>
    subst sign
    unfold Piece.variableName
    split
    · exact ⟨nofun, .cons (by decide) (.cons (by decide) (.takeWhile (by decide) _))⟩
    · exact ⟨nofun, .cons (by decide) (.takeWhile (by decide) _)⟩
  | word starts =>
    have part := isWordPart_of_isWordStart starts
    unfold Piece.word
    dsimp only
    split
    · exact ⟨by simp [part], .takeWhile_append (by decide) (.takeWhile (by decide) _)⟩
    · exact ⟨by simp [plain, part], .takeWhile (by decide) _⟩
  | number starts => exact ⟨takeNumber_ne_nil cs starts, takeNumber_live _⟩
  | symbol found =>
    rcases symbolAt?_length found with rfl | ⟨rfl, d, next, notNul'⟩
    · exact ⟨nofun, .cons notNul (.nil _)⟩
    · obtain ⟨cs, rfl⟩ := head?_eq_some_iff.mp next
      exact ⟨nofun, .cons notNul (.cons notNul' (.nil _))⟩
  | illegal => exact ⟨nofun, .cons notNul (.nil _)⟩

/-- A piece is what stands at the head of the text. -/
theorem first_raw (cs : List Char) (notNul : c ≠ nul) : ∃ more, (first lineBlank c cs).raw = c :: more ∧ Live more cs := by
  unfold first
  split
  · exact ⟨_, rfl, .takeWhile (by decide) _⟩
  split
  · exact ⟨_, rfl, .takeWhile (by decide) _⟩
  split
  · rename_i opening
    simp only [Bool.and_eq_true, beq_iff_eq] at opening
    obtain ⟨more, rfl⟩ := head?_eq_some_iff.mp opening.2
    exact ⟨_, by rw [opening.1]; rfl, .cons (by decide) (takeComment_live 1 more)⟩
  · obtain ⟨some, whole, noNul⟩ := (token_form lineBlank c cs).raw notNul
    obtain ⟨d, more, raw⟩ := List.exists_cons_of_ne_nil some
    rw [raw] at whole noNul
    obtain ⟨rfl, inner⟩ := List.cons_prefix_cons.mp whole
    exact ⟨more, raw, inner, fun mem => noNul (List.mem_cons_of_mem _ mem)⟩

/-! ### Cutting -/

/-- Whether only blanks have been read on the line after the characters. -/
def lineBlankAfterAll (lineBlank : Bool) (cs : List Char) : Bool := cs.foldl lineBlankAfter lineBlank

theorem cut_passed (read cs : List Char) :
    cut lineBlank read.length (read ++ cs) = cut (lineBlankAfterAll lineBlank read) 0 cs := by
  induction read generalizing lineBlank with
  | nil => rfl
  | cons c read ih => simpa [cut, lineBlankAfterAll] using ih (lineBlankAfter lineBlank c)

/-- The first piece, and the pieces behind it. -/
theorem cut_cons (cs : List Char) (notNul : c ≠ nul) :
    ∃ more after, (first lineBlank c cs).raw = c :: more ∧ cs = more ++ after ∧
      cut lineBlank 0 (c :: cs) =
        first lineBlank c cs :: cut (lineBlankAfterAll lineBlank (c :: more)) 0 after := by
  obtain ⟨more, raw, ⟨after, rfl⟩, -⟩ := first_raw lineBlank cs notNul
  refine ⟨more, after, raw, rfl, ?_⟩
  rw [cut, if_neg (by simpa using notNul)]
  simp only [raw, List.length_cons, Nat.add_sub_cancel, cut_passed]
  rfl

/-- The first piece is cut off the head, and the others are the pieces of what it leaves. -/
theorem cut_eq_cons {lineBlank : Bool} {text : List Char} {piece : Piece} {back : List Piece}
    (cuts : cut lineBlank 0 text = piece :: back) : ∃ c more after, c ≠ nul ∧ text = c :: (more ++ after) ∧
      piece.raw = c :: more ∧ piece = first lineBlank c (more ++ after) ∧
      back = cut (lineBlankAfterAll lineBlank (c :: more)) 0 after := by
  cases text with
  | nil => simp [cut] at cuts
  | cons c text =>
    have notNul : c ≠ nul := by
      rintro rfl
      simp [cut] at cuts
    obtain ⟨more, after, raw, rfl, pieces⟩ := cut_cons lineBlank text notNul
    obtain ⟨rfl, rfl⟩ := List.cons.inj (pieces.symm.trans cuts)
    exact ⟨c, more, after, notNul, rfl, raw, rfl, rfl⟩

end Piece

namespace Lexer

open Piece Text

/-! ### Placing -/

variable {c : Char} (cursor : Cursor) (lineBlank : Bool)

/-- Blanks are passed one by one, by everything that passes over whole runs of them. -/
theorem skip_blank {β : Type} {F : Cursor → List Piece → β}
    (skip : ∀ c cs rest, F c ({ raw := cs, content := .blank } :: rest) = F (c.advanceAll cs) rest)
    (cursor : Cursor) (lineBlank : Bool) (blank : Piece.isBlank c = true) (cs : List Char) :
    F cursor (cut lineBlank 0 (c :: cs)) = F (cursor.advance c) (cut (lineBlankAfter lineBlank c) 0 cs) := by
  have first : ∀ cursor lineBlank c cs, Piece.isBlank c = true → F cursor (cut lineBlank 0 (c :: cs)) =
      F ((cursor.advance c).advanceAll (cs.takeWhile Piece.isBlank))
        (cut (lineBlankAfter lineBlank c) (cs.takeWhile Piece.isBlank).length cs) := by
    intro cursor lineBlank c cs blank
    have notNul : ¬(c == nul) = true := by
      intro isNul
      obtain rfl : c = nul := by simpa using isNul
      exact absurd blank (by decide)
    rw [cut, if_neg notNul, Piece.first, if_pos blank]
    exact skip _ _ _
  rw [first cursor lineBlank c cs blank]
  cases cs with
  | nil => rfl
  | cons d cs =>
    cases more : Piece.isBlank d with
    | false => simp [more, Cursor.advanceAll]
    | true =>
      rw [first _ _ d cs more]
      simp [more, cut, Cursor.advanceAll]

theorem place_blank (blank : Piece.isBlank c = true) (cs : List Char) :
    place cursor (cut lineBlank 0 (c :: cs)) = place (cursor.advance c) (cut (lineBlankAfter lineBlank c) 0 cs) :=
  skip_blank (fun _ _ _ => rfl) cursor lineBlank blank cs

theorem faults_blank (blank : Piece.isBlank c = true) (cs : List Char) :
    faults cursor (cut lineBlank 0 (c :: cs)) = faults (cursor.advance c) (cut (lineBlankAfter lineBlank c) 0 cs) :=
  skip_blank (fun _ _ _ => rfl) cursor lineBlank blank cs

/-- The same tokens, except that the last one may end elsewhere. -/
inductive SameTokens : List Token → List Token → Prop
  | nil : SameTokens [] []
  | last (t stop) : SameTokens [t] [{ t with stop }]
  | cons (t) {r r'} : r ≠ [] → SameTokens r r' → SameTokens (t :: r) (t :: r')

theorem SameTokens.keep (t : Token) {r r' : List Token} (h : SameTokens r r') : SameTokens (t :: r) (t :: r') := by
  cases h with
  | nil => exact .last t t.stop
  | last u stop => exact .cons t (by simp) (.last u stop)
  | cons u ne rest => exact .cons t (by simp) (.cons u ne rest)

theorem position_head (c : Char) (cs cs' : List Char) : cursor.position (c :: cs) = cursor.position (c :: cs') := by
  unfold Cursor.position
  split <;> simp_all

theorem advanceAll_append (cs cs' : List Char) :
    cursor.advanceAll (cs ++ cs') = (cursor.advanceAll cs).advanceAll cs' := List.foldl_append

theorem faults_cons {cursor : Cursor} {piece : Piece} {rest : List Piece} (clean : faults cursor (piece :: rest) = []) :
    piece.fault = none ∧ faults (cursor.advanceAll piece.raw) rest = [] := by
  unfold faults at clean
  dsimp only at clean
  split at clean
  · simp at clean
  · rename_i fault
    exact ⟨fault, clean⟩

/-- A token that is followed by `c` ends where it does whatever else follows. -/
theorem position_following (notNul : c ≠ nul) (cs : List Char) :
    cursor.position (following (cut lineBlank 0 (c :: cs))) = cursor.position [c] := by
  obtain ⟨more, after, raw, rfl, pieces⟩ := cut_cons lineBlank cs notNul
  rw [pieces, following, raw]
  exact position_head cursor c more []

/-- Behind a piece that is the same in two texts the tokens differ only as those of the rest do. -/
theorem place_cons_same (piece : Piece) {rest rest' : List Piece} {tokens tokens' last last' : List Token}
    (same : SameTokens tokens tokens') (left : place (cursor.advanceAll piece.raw) rest = tokens ++ last)
    (right : place (cursor.advanceAll piece.raw) rest' = tokens' ++ last')
    (stop : tokens = [] ∨ (cursor.advanceAll piece.raw).position (following rest) =
      (cursor.advanceAll piece.raw).position (following rest')) :
    ∃ tokens tokens', SameTokens tokens tokens' ∧ place cursor (piece :: rest) = tokens ++ last ∧
      place cursor (piece :: rest') = tokens' ++ last' := by
  simp only [place]
  split
  · rw [left, right]
    refine ⟨_ :: tokens, _ :: tokens', ?_, rfl, rfl⟩
    rcases stop with rfl | stop
    · cases same
      exact .last _ _
    · rw [stop]
      exact same.keep _
  · exact ⟨tokens, tokens', same, left, right⟩

/-- What stands behind a line end does not change the tokens in front of it. -/
theorem place_append (cursor : Cursor) (lineBlank : Bool) (text rest : List Char) (noNul : nul ∉ text)
    (clean : faults cursor (cut lineBlank 0 text) = []) :
    ∃ tokens tokens', SameTokens tokens tokens' ∧
      place cursor (cut lineBlank 0 text) = tokens ++ [endToken (cursor.advanceAll text)] ∧
      place cursor (cut lineBlank 0 (text ++ '\n' :: rest)) =
        tokens' ++ place ((cursor.advanceAll text).advance '\n') (cut true 0 rest) ∧
      faults cursor (cut lineBlank 0 (text ++ '\n' :: rest)) =
        faults ((cursor.advanceAll text).advance '\n') (cut true 0 rest) := by
  match text with
  | [] => exact ⟨[], [], .nil, rfl, place_blank cursor lineBlank rfl rest, faults_blank cursor lineBlank rfl rest⟩
  | c :: text =>
    have notNul : c ≠ nul := fun isNul => noNul (by simp [isNul])
    have restNul : nul ∉ text := fun isNul => noNul (List.mem_cons_of_mem _ isNul)
    cases blank : Piece.isBlank c with
    | true =>
      rw [faults_blank _ _ blank] at clean
      rw [cons_append, place_blank _ _ blank, place_blank _ _ blank, faults_blank _ _ blank]
      exact place_append (cursor.advance c) _ text rest restNul clean
    | false =>
      obtain ⟨more, after, raw, rfl, pieces⟩ := cut_cons lineBlank text notNul
      rw [pieces] at clean ⊢
      obtain ⟨noFault, clean⟩ := faults_cons clean
      have stays := first_append rest blank noFault
      obtain ⟨more', after', raw', split, pieces'⟩ := cut_cons lineBlank (more ++ after ++ '\n' :: rest) notNul
      rw [stays] at raw' pieces'
      obtain rfl : more = more' := (List.cons.inj (raw.symm.trans raw')).2
      obtain rfl : after ++ '\n' :: rest = after' := by simpa using split
      rw [cons_append, pieces']
      generalize Piece.first lineBlank c (more ++ after) = piece at raw noFault clean pieces' ⊢
      have end_ : cursor.advanceAll (c :: (more ++ after)) = (cursor.advanceAll piece.raw).advanceAll after := by
        rw [raw, ← advanceAll_append, cons_append]
      obtain ⟨tokens, tokens', same, left, right, errors⟩ := place_append (cursor.advanceAll piece.raw) _ after rest
        (fun isNul => restNul (List.mem_append_right _ isNul)) clean
      rw [end_]
      have stop : tokens = [] ∨
          (cursor.advanceAll piece.raw).position (following (cut (lineBlankAfterAll lineBlank (c :: more)) 0 after)) =
            (cursor.advanceAll piece.raw).position
              (following (cut (lineBlankAfterAll lineBlank (c :: more)) 0 (after ++ '\n' :: rest))) := by
        cases after with
        | nil => exact .inl (by simpa [cut, place] using congrArg List.length left)
        | cons d after =>
          have notNul : d ≠ nul := fun isNul => restNul (by simp [isNul])
          rw [cons_append, position_following _ _ notNul, position_following _ _ notNul]
          exact .inr rfl
      obtain ⟨tokens, tokens', same, left, right⟩ := place_cons_same cursor _ same left right stop
      exact ⟨tokens, tokens', same, left, right, by simpa only [faults, noFault] using errors⟩
termination_by text.length

/-! ### Texts with a separator between them -/

theorem place_ne_nil (pieces : List Piece) : place cursor pieces ≠ [] := by
  induction pieces generalizing cursor with
  | nil => simp [place]
  | cons piece rest ih =>
    simp only [place]
    split
    · simp
    · exact ih _

/-- The last token stands for the end of the text. -/
theorem place_last (pieces : List Piece) : ∃ tokens after, place cursor pieces = tokens ++ [endToken after] := by
  induction pieces generalizing cursor with
  | nil => exact ⟨[], cursor, rfl⟩
  | cons piece rest ih =>
    obtain ⟨tokens, after, found⟩ := ih (cursor.advanceAll piece.raw)
    simp only [place]
    split
    · exact ⟨_ :: tokens, after, by rw [found]; rfl⟩
    · exact ⟨tokens, after, found⟩

/-! ### Moving a text -/

section Moved

variable (lines bytes : Nat)

def movedPosition (p : Position) : Position := { p with line := p.line + lines, offset := p.offset + bytes }

def movedCursor (c : Cursor) : Cursor := { c with line := c.line + lines, offset := c.offset + bytes }

/-- The token in a text that starts so many lines and bytes further on, at the beginning of a line. -/
def movedToken (t : Token) : Token :=
  { t with start := movedPosition lines bytes t.start, stop := movedPosition lines bytes t.stop }

variable (cursor : Cursor)

theorem advance_moved (c : Char) :
    (movedCursor lines bytes cursor).advance c = movedCursor lines bytes (cursor.advance c) := by
  unfold Cursor.advance movedCursor
  split <;> simp <;> omega

theorem advanceAll_moved (cs : List Char) :
    (movedCursor lines bytes cursor).advanceAll cs = movedCursor lines bytes (cursor.advanceAll cs) := by
  induction cs generalizing cursor with
  | nil => rfl
  | cons c cs ih =>
    show ((movedCursor lines bytes cursor).advance c).advanceAll cs = _
    rw [advance_moved, ih]
    rfl

theorem position_moved (cs : List Char) :
    (movedCursor lines bytes cursor).position cs = movedPosition lines bytes (cursor.position cs) := by
  unfold Cursor.position movedCursor movedPosition
  split <;> simp
  omega

theorem place_moved (pieces : List Piece) :
    place (movedCursor lines bytes cursor) pieces = (place cursor pieces).map (movedToken lines bytes) := by
  induction pieces generalizing cursor with
  | nil => simp [place, endToken, movedToken, position_moved]
  | cons piece rest ih =>
    simp only [place, advanceAll_moved, position_moved, ih]
    split <;> rfl

/-- Behind a line end a text stands as at the beginning, further on. -/
theorem advance_newline : cursor.advance '\n' = movedCursor cursor.line (cursor.offset + 1) {} := by
  have size : '\n'.utf8Size = 1 := by decide
  simp [Cursor.advance, movedCursor, Nat.add_comm 1, size]

end Moved

/-- A separator on a line of its own, and the text behind it. -/
theorem place_separator (text : List Char) :
    ∃ go lines bytes, go.kind = .separator ∧ go.literal = "GO" ∧ go.quoted = false ∧
      place cursor (cut true 0 ('G' :: 'O' :: '\n' :: text)) =
        go :: (place {} (cut true 0 text)).map (movedToken lines bytes) := by
  have alone : Piece.first true 'G' ['O'] = { raw := ['G', 'O'], content := .token .separator "GO" false } := by
    decide +kernel
  have piece := (@first_append text 'G' true ['O'] (by decide) (by rw [alone])).trans alone
  have behind := place_blank ((cursor.advance 'G').advance 'O') false (c := '\n') rfl text
  rw [advance_newline, place_moved] at behind
  rw [cut, if_neg (by decide), show 'O' :: '\n' :: text = ['O'] ++ '\n' :: text from rfl, piece]
  exact ⟨⟨.separator, "GO", cursor.position ['G', 'O'],
    ((cursor.advance 'G').advance 'O').position (following (cut false 0 ('\n' :: text))), false⟩, _, _, rfl, rfl, rfl,
    congrArg (List.cons _) behind⟩

/-! ### Order -/

theorem offset_lt_advanceAll {cs : List Char} (some : cs ≠ []) : cursor.offset < (cursor.advanceAll cs).offset := by
  have step : ∀ (cursor : Cursor) (c : Char), cursor.offset < (cursor.advance c).offset := by
    intro cursor c
    have size := c.utf8Size_pos
    unfold Cursor.advance
    split <;> simp <;> omega
  have rest : ∀ (cs : List Char) (cursor : Cursor), cursor.offset ≤ (cursor.advanceAll cs).offset := by
    intro cs
    induction cs with
    | nil => exact fun cursor => Nat.le_refl _
    | cons c cs ih => exact fun cursor => Nat.le_trans (Nat.le_of_lt (step cursor c)) (ih (cursor.advance c))
  obtain ⟨c, cs, rfl⟩ := List.exists_cons_of_ne_nil some
  exact Nat.lt_of_lt_of_le (step cursor c) (rest cs (cursor.advance c))

theorem cut_raw_ne_nil {lineBlank : Bool} {passed : Nat} {cs : List Char} {piece : Piece}
    (mem : piece ∈ cut lineBlank passed cs) : piece.raw ≠ [] := by
  fun_induction cut lineBlank passed cs with
  | case1 => simp at mem
  | case2 _ _ _ _ ih => exact ih mem
  | case3 => simp at mem
  | case4 lineBlank c cs notNul first ih =>
    rcases List.mem_cons.mp mem with rfl | mem
    · obtain ⟨more, raw, -⟩ := first_raw lineBlank cs (by simpa using notNul)
      simp [first, raw]
    · exact ih mem

theorem offset_position (cs : List Char) : (cursor.position cs).offset = cursor.offset := by
  unfold Cursor.position
  split <;> rfl

/-- Tokens stand one behind the other. -/
theorem place_sorted {pieces : List Piece} (some : ∀ piece ∈ pieces, piece.raw ≠ []) :
    (∀ t ∈ place cursor pieces, cursor.offset ≤ t.start.offset) ∧
      (place cursor pieces).Pairwise fun t u => t.start.offset < u.start.offset := by
  induction pieces generalizing cursor with
  | nil => simp [place, endToken, offset_position]
  | cons piece rest ih =>
    obtain ⟨behind, sorted⟩ := ih (cursor.advanceAll piece.raw) fun p mem => some p (List.mem_cons_of_mem _ mem)
    have ahead := offset_lt_advanceAll cursor (some piece (List.mem_cons_self ..))
    have all : ∀ t ∈ place (cursor.advanceAll piece.raw) rest, cursor.offset < t.start.offset := fun t mem =>
      Nat.lt_of_lt_of_le ahead (behind t mem)
    simp only [place]
    split
    · refine ⟨fun t mem => ?_, List.pairwise_cons.mpr ⟨fun t mem => ?_, sorted⟩⟩
      · rcases List.mem_cons.mp mem with rfl | mem
        · simp [offset_position]
        · exact Nat.le_of_lt (all t mem)
      · simpa [offset_position] using all t mem
    · exact ⟨fun t mem => Nat.le_of_lt (all t mem), sorted⟩

end Lexer

theorem tokenize_sorted (text : String) : (tokenize text).Pairwise fun t u => t.start.offset < u.start.offset :=
  (Lexer.place_sorted {} fun _ mem => Lexer.cut_raw_ne_nil mem).2

/-! ### Alignment -/

namespace Lexer

theorem SameTokens.aligned {r r' : List Token} (h : SameTokens r r') : Aligned r r' := by
  induction h with
  | nil => exact .nil
  | last t stop => exact .last ⟨rfl, rfl, rfl⟩
  | cons t ne rest ih =>
    cases rest with
    | nil => exact absurd rfl ne
    | last u stop | cons u ne rest => exact .cons ⟨rfl, rfl, rfl⟩ ⟨rfl, rfl⟩ ih

theorem moved_aligned (lines bytes : Nat) (r : List Token) : Aligned (r.map (movedToken lines bytes)) r := by
  induction r with
  | nil => exact .nil
  | cons t r ih =>
    cases r with
    | nil => exact .last ⟨rfl, rfl, rfl⟩
    | cons u r =>
      refine .cons ⟨rfl, rfl, rfl⟩ ⟨?_, ?_⟩ ih <;> rw [Bool.eq_iff_iff] <;> simp [movedToken, movedPosition]

end Lexer

/-- The tokens of two texts with a separator between them. -/
theorem tokenize_append {first : String} (clean : lexErrors first = []) (noNul : Piece.nul ∉ first.toList)
    (second : String) :
    ∃ tokens tokens' go after, ∃ lines bytes : Nat, Lexer.SameTokens tokens tokens' ∧
      tokenize first = tokens ++ [Lexer.endToken after] ∧
      go.kind = .separator ∧ go.literal = "GO" ∧ go.quoted = false ∧
      tokenize (first ++ "\nGO\n" ++ second) = tokens' ++ go :: (tokenize second).map (Lexer.movedToken lines bytes) := by
  have text : (first ++ "\nGO\n" ++ second).toList = first.toList ++ '\n' :: 'G' :: 'O' :: '\n' :: second.toList := by
    simp
  obtain ⟨tokens, tokens', same, left, right, -⟩ :=
    Lexer.place_append {} true first.toList ('G' :: 'O' :: '\n' :: second.toList) noNul clean
  obtain ⟨go, lines, bytes, kind, literal, quoted, behind⟩ :=
    Lexer.place_separator ((Text.Cursor.advanceAll {} first.toList).advance '\n') second.toList
  refine ⟨tokens, tokens', go, _, lines, bytes, same, left, kind, literal, quoted, ?_⟩
  unfold tokenize pieces
  rw [text, right, behind]

end ColumnFlow
