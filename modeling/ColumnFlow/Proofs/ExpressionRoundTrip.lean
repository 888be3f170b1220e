import ColumnFlow.Proofs.FrontMatterComment
import ColumnFlow.Proofs.PrecedenceParsing

/-!
# The text of an expression and back

In front of a space or the end of the text each token of an expression is cut off as one piece (`Lexeme.Lexes`): numbers
because no longer one starts there, delimited texts because a delimiter inside is doubled. So the text of an expression
has its tokens, and the parser reads the expression back from them.

A token can only be read back if it can be written: a number is one (`IsNumber`), a variable starts with `@`, and nothing
holds the NUL character, which ends the text (`Lexeme.Written`).
-/

namespace ColumnFlow

open List (forall_mem_cons cons_append append_assoc)

/-! ### Numbers -/

/-- `e` or `E`, a sign, digits. Without a sign there is a digit. -/
inductive IsExponent : List Char → Prop
  | absent : IsExponent []
  | unsigned {e d digits} (mark : e = 'e' ∨ e = 'E') (first : d.isDigit = true)
      (all : ∀ d ∈ digits, d.isDigit = true) : IsExponent (e :: d :: digits)
  | signed {e sign digits} (mark : e = 'e' ∨ e = 'E') (isSign : sign = '+' ∨ sign = '-')
      (all : ∀ d ∈ digits, d.isDigit = true) : IsExponent (e :: sign :: digits)

/-- The ways to write a number. -/
inductive IsNumber : List Char → Prop
  | whole {d digits exponent} (first : d.isDigit = true) (all : ∀ d ∈ digits, d.isDigit = true)
      (behind : IsExponent exponent) : IsNumber (d :: (digits ++ exponent))
  | decimal {d digits fraction exponent} (first : d.isDigit = true) (all : ∀ d ∈ digits, d.isDigit = true)
      (parts : ∀ d ∈ fraction, d.isDigit = true) (behind : IsExponent exponent) :
      IsNumber (d :: (digits ++ '.' :: (fraction ++ exponent)))
  | fraction {d digits exponent} (first : d.isDigit = true) (all : ∀ d ∈ digits, d.isDigit = true)
      (behind : IsExponent exponent) : IsNumber ('.' :: d :: (digits ++ exponent))
  | binary {x digits} (mark : x = 'x' ∨ x = 'X') (all : ∀ d ∈ digits, Piece.isHexDigit d = true) :
      IsNumber ('0' :: x :: digits)

/-- The text ends or goes on with a space. -/
def Parted (rest : List Char) : Prop := ∀ c ∈ rest.head?, c = ' '

section Stops

variable {p : Char → Bool} {cs rest : List Char}

theorem takeWhile_append_of_stops (all : ∀ c ∈ cs, p c = true) (stops : ∀ c ∈ rest.head?, p c = false) :
    (cs ++ rest).takeWhile p = cs := by
  rw [List.takeWhile_append_of_pos all]
  cases rest with
  | nil => simp
  | cons c rest => simp [stops c rfl]

theorem dropWhile_append_of_stops (all : ∀ c ∈ cs, p c = true) (stops : ∀ c ∈ rest.head?, p c = false) :
    (cs ++ rest).dropWhile p = rest := by
  rw [List.dropWhile_append_of_pos all]
  cases rest with
  | nil => simp
  | cons c rest => simp [stops c rfl]

theorem Parted.stops (parted : Parted rest) (space : p ' ' = false) : ∀ c ∈ rest.head?, p c = false :=
  fun c first => parted c first ▸ space

end Stops

theorem digit_cases {d : Char} (digit : d.isDigit = true) : d = '0' ∨ d = '1' ∨ d = '2' ∨ d = '3' ∨ d = '4' ∨ d = '5' ∨
    d = '6' ∨ d = '7' ∨ d = '8' ∨ d = '9' := by
  have range : 48 ≤ d.toNat ∧ d.toNat ≤ 57 := by
    simpa [Char.isDigit, UInt32.le_iff_toNat_le] using digit
  have cases : d.toNat = 48 ∨ d.toNat = 49 ∨ d.toNat = 50 ∨ d.toNat = 51 ∨ d.toNat = 52 ∨ d.toNat = 53 ∨
      d.toNat = 54 ∨ d.toNat = 55 ∨ d.toNat = 56 ∨ d.toNat = 57 := by omega
  rw [← Char.ofNat_toNat d]
  rcases cases with h | h | h | h | h | h | h | h | h | h <;> rw [h] <;> decide

namespace Piece

variable {rest : List Char} {cs : List Char} {exponent : List Char} (lineBlank : Bool)

/-- A written exponent is read whole, and no more. -/
theorem takeExponent_of_isExponent (h : IsExponent exponent) (parted : Parted rest) :
    takeExponent (exponent ++ rest) = exponent := by
  cases h with
  | absent =>
    cases rest with
    | nil => rfl
    | cons c rest =>
      obtain rfl := parted c rfl
      rfl
  | @unsigned e d digits mark first all =>
    have noSign : (d == '+' || d == '-') = false := by
      rcases digit_cases first with rfl | rfl | rfl | rfl | rfl | rfl | rfl | rfl | rfl | rfl <;> rfl
    have digits := takeWhile_append_of_stops (forall_mem_cons.2 ⟨first, all⟩) (parted.stops rfl)
    rw [cons_append] at digits
    rw [cons_append, cons_append, takeExponent, if_pos (by simpa using mark)]
    simp only [noSign, first, digits]
    rfl
  | @signed e sign digits mark isSign all =>
    have digits := takeWhile_append_of_stops all (parted.stops (p := Char.isDigit) rfl)
    rw [cons_append, cons_append, takeExponent, if_pos (by simpa using mark)]
    rw [if_pos (by simpa using isSign), digits]

theorem head?_exponent (h : IsExponent exponent) (parted : Parted rest) :
    ∀ c ∈ (exponent ++ rest).head?, c = 'e' ∨ c = 'E' ∨ c = ' ' := by
  cases h with
  | absent => exact fun c first => .inr (.inr (parted c first))
  | unsigned mark | signed mark =>
    rintro c ⟨⟩
    exact mark.imp_right .inl

theorem exponent_stops (h : IsExponent exponent) (parted : Parted rest) :
    ∀ c ∈ (exponent ++ rest).head?, c.isDigit = false := by
  intro c first
  rcases head?_exponent h parted c first with rfl | rfl | rfl <;> rfl

section Decimal

variable {whole fraction exponent : List Char} (all : ∀ d ∈ whole, d.isDigit = true) (behind : IsExponent exponent)
  (parted : Parted rest)
include all behind parted

theorem takeDecimal_whole : takeDecimal (whole ++ (exponent ++ rest)) = whole ++ exponent := by
  have stops := exponent_stops behind parted
  have marks := head?_exponent behind parted
  have taken := takeExponent_of_isExponent behind parted
  unfold takeDecimal
  rw [takeWhile_append_of_stops all stops, dropWhile_append_of_stops all stops]
  dsimp only
  split
  · rename_i same
    have point := marks '.' (by rw [same]; rfl)
    simp at point
  · rw [taken]

theorem takeDecimal_point (parts : ∀ d ∈ fraction, d.isDigit = true) :
    takeDecimal (whole ++ '.' :: (fraction ++ (exponent ++ rest))) = whole ++ '.' :: (fraction ++ exponent) := by
  have stops := exponent_stops behind parted
  have point : ∀ c ∈ ('.' :: (fraction ++ (exponent ++ rest))).head?, c.isDigit = false := by
    rintro c ⟨⟩
    rfl
  unfold takeDecimal
  rw [takeWhile_append_of_stops all point, dropWhile_append_of_stops all point]
  change whole ++ '.' :: (fraction ++ (exponent ++ rest)).takeWhile Char.isDigit ++
    takeExponent ((fraction ++ (exponent ++ rest)).dropWhile Char.isDigit) = _
  rw [takeWhile_append_of_stops parts stops, dropWhile_append_of_stops parts stops,
    takeExponent_of_isExponent behind parted, append_assoc, cons_append]

end Decimal

theorem takeNumber_eq_takeDecimal {c : Char} (noMark : ∀ x ∈ cs.head?, x ≠ 'x' ∧ x ≠ 'X') :
    takeNumber (c :: cs) = takeDecimal (c :: cs) := by
  unfold takeNumber
  split
  · rename_i x more same
    obtain ⟨rfl, rfl⟩ := List.cons.inj same
    rw [if_neg (by simpa using noMark x rfl)]
  · rfl

/-- A number is read to its end. -/
theorem takeNumber_of_isNumber (number : IsNumber cs) (parted : Parted rest) : takeNumber (cs ++ rest) = cs := by
  have digitNoMark {d : Char} (digit : d.isDigit = true) : d ≠ 'x' ∧ d ≠ 'X' := by
    constructor <;> rintro rfl <;> exact absurd digit (by decide)
  cases number with
  | @whole d digits exponent first all behind =>
    have read := takeDecimal_whole (forall_mem_cons.2 ⟨first, all⟩) behind parted
    rw [cons_append, append_assoc, takeNumber_eq_takeDecimal]
    · exact read
    · cases digits with
      | nil =>
        intro x next
        rcases head?_exponent behind parted x next with rfl | rfl | rfl <;> decide
      | cons x digits =>
        rintro _ ⟨⟩
        exact digitNoMark (all x List.mem_cons_self)
  | @decimal d digits fraction exponent first all parts behind =>
    have read := takeDecimal_point (forall_mem_cons.2 ⟨first, all⟩) behind parted parts
    rw [cons_append, append_assoc, cons_append, append_assoc, takeNumber_eq_takeDecimal]
    · exact read
    · cases digits with
      | nil =>
        rintro _ ⟨⟩
        decide
      | cons x digits =>
        rintro _ ⟨⟩
        exact digitNoMark (all x List.mem_cons_self)
  | @fraction d digits exponent first all behind =>
    have empty : ∀ d ∈ ([] : List Char), d.isDigit = true := nofun
    have read := takeDecimal_point empty behind parted (forall_mem_cons.2 ⟨first, all⟩)
    rw [cons_append, cons_append, append_assoc, takeNumber_decimal (by decide)]
    exact read
  | @binary x digits mark all =>
    have read := takeWhile_append_of_stops all (parted.stops rfl)
    rw [cons_append, cons_append, takeNumber, if_pos (by simpa using mark), read]

/-- A number in front of something that parts from it is one piece. -/
theorem first_number {c : Char} (number : IsNumber (c :: cs)) (parted : Parted rest) :
    first lineBlank c (cs ++ rest) = plain .number (c :: cs) := by
  have read := takeNumber_of_isNumber number parted
  rw [cons_append] at read
  have digit {d : Char} {more : List Char} (isDigit : d.isDigit = true) :
      first lineBlank d more = plain .number (takeNumber (d :: more)) := by
    rcases digit_cases isDigit with rfl | rfl | rfl | rfl | rfl | rfl | rfl | rfl | rfl | rfl <;> rfl
  cases number with
  | whole isDigit | decimal isDigit => rw [digit isDigit, read]
  | binary => rw [digit rfl, read]
  | @fraction d digits exponent isDigit =>
    have token : first lineBlank '.' (d :: (digits ++ exponent) ++ rest) =
        plain .number (takeNumber ('.' :: (d :: (digits ++ exponent) ++ rest))) := by
      simp [first, token, isBlank, isWordStart, isLetter, isDigit]
    rw [token, read]

/-! ### Texts in delimiters -/

/-- Reading undoes the doubling of the closing character. -/
theorem takeDelimited_doubled {closing : Char} (notNul : closing ≠ nul) (noNul : nul ∉ cs)
    (single : rest.head? ≠ some closing) : takeDelimited closing (Lexeme.doubled closing cs ++ closing :: rest) =
      ⟨cs, Lexeme.doubled closing cs ++ [closing], true⟩ := by
  induction cs with
  | nil =>
    cases rest with
    | nil => simp [Lexeme.doubled, takeDelimited, notNul]
    | cons d rest =>
      have other : d ≠ closing := fun same => single (congrArg some same)
      simp [Lexeme.doubled, takeDelimited, notNul, other]
  | cons c cs ih =>
    obtain ⟨other, noNul⟩ := not_or.1 (mt List.mem_cons.2 noNul)
    by_cases same : c = closing
    · subst same
      rw [Lexeme.doubled, if_pos rfl, cons_append, cons_append, takeDelimited, if_neg (by simpa using notNul),
        if_pos (by simp)]
      simp [ih noNul]
    · rw [Lexeme.doubled, if_neg same, cons_append, takeDelimited_inside (by simpa using Ne.symm other)
        (by simpa using same), ih noNul]
      rfl

theorem delimited_doubled {opening : List Char} {closing : Char} {kind : TokenKind} {quoted : Bool} {fault : LexFault}
 (notNul : closing ≠ nul) (noNul : nul ∉ cs) (single : rest.head? ≠ some closing) :
    delimited opening closing kind quoted fault (Lexeme.doubled closing cs ++ [closing] ++ rest) =
      { raw := opening ++ (Lexeme.doubled closing cs ++ [closing]), content := .token kind (String.ofList cs) quoted } := by
  have inside := takeDelimited_doubled notNul noNul single
  rw [append_assoc, cons_append, List.nil_append, delimited, inside]
  rfl

/-! ### Words, variables and symbols -/

/-- A word ends where no part of a word follows. On a line of its own `GO` is a separator. -/
theorem first_word {c : Char} (starts : isWordStart c = true) (parts : ∀ d ∈ cs, isWordPart d = true)
    (stops : ∀ d ∈ rest.head?, isWordPart d = false ∧ d ≠ '\'') :
    first lineBlank c (cs ++ rest) =
      if Text.lower (String.ofList (c :: cs)) == "go" && lineBlank && endsLine rest then
        { raw := c :: cs ++ rest.takeWhile continuesLine
          content := .token .separator (String.ofList (c :: cs)) false }
      else plain (.ofWord (Text.lower (String.ofList (c :: cs)))) (c :: cs) := by
  have all : ∀ d ∈ c :: cs, isWordPart d = true := forall_mem_cons.2 ⟨isWordPart_of_isWordStart starts, parts⟩
  have ends : ∀ d ∈ rest.head?, isWordPart d = false := fun d next => (stops d next).1
  have unquoted : ((cs ++ rest).head? == some '\'') = false := by
    refine beq_false_of_ne fun quote => ?_
    cases cs with
    | nil => exact (stops _ quote).2 rfl
    | cons d cs =>
      obtain rfl : d = '\'' := Option.some.inj quote
      exact absurd (parts _ List.mem_cons_self) (by decide)
  rw [first_eq_word lineBlank starts (by rw [unquoted, Bool.and_false]), ← cons_append, word,
    takeWhile_append_of_stops all ends, dropWhile_append_of_stops all ends]

theorem first_variable (parts : ∀ d ∈ cs, isWordPart d = true) (parted : Parted rest) :
    first lineBlank '@' (cs ++ rest) = plain .variableName ('@' :: cs) := by
  have stops := parted.stops (p := isWordPart) (by decide)
  change variableName (cs ++ rest) = _
  unfold variableName
  split
  · rename_i more same
    cases cs with
    | nil => exact absurd (parted '@' (by rw [List.nil_append] at same; rw [same]; rfl)) (by decide)
    | cons c cs =>
      rw [cons_append] at same
      obtain ⟨rfl, rfl⟩ := List.cons.inj same
      rw [takeWhile_append_of_stops (forall_mem_cons.1 parts).2 stops]
  · rw [takeWhile_append_of_stops parts stops]

end Piece

/-! ### Tokens -/

namespace Lexeme

/-- The token has a literal of its kind. -/
def Written (l : Lexeme) : Prop :=
  match l.kind with
  | .number => IsNumber l.literal.toList
  | .variableName => ∃ name, l.literal.toList = '@' :: name ∧ ∀ c ∈ name, Piece.isWordPart c = true
  | .string | .ident => Piece.nul ∉ l.literal.toList
  | _ => True

@[simp] theorem written_symbol (s : Symbol) : (symbol s).Written := trivial

@[simp] theorem written_keyword (k : Keyword) : (keyword k).Written := trivial

@[simp] theorem written_binaryOp (op : BinaryOp) : op.lexeme.Written := by cases op <;> trivial

@[simp] theorem written_unaryOp (op : UnaryOp) : op.lexeme.Written := by cases op <;> trivial

@[simp] theorem written_bracketed {text : String} : (bracketed text).Written ↔ Piece.nul ∉ text.toList := Iff.rfl

@[simp] theorem written_name {text : String} : (name text).Written ↔ Piece.nul ∉ text.toList := Iff.rfl

/-- In front of a space or the end of the text, the characters of the token are one piece, and that is the token. -/
def Lexes (l : Lexeme) : Prop :=
  ∃ c cs, l.chars = c :: cs ∧ c ≠ Piece.nul ∧ ∀ lineBlank rest, Parted rest →
    Piece.first lineBlank c (cs ++ rest) = { raw := c :: cs, content := .token l.kind l.literal l.quoted }

namespace Lexes

theorem bracketed {name : String} (noNul : Piece.nul ∉ name.toList) : (bracketed name).Lexes := by
  refine ⟨'[', doubled ']' name.toList ++ [']'], rfl, by decide, fun lineBlank rest parted => ?_⟩
  have single : rest.head? ≠ some ']' := fun closing => absurd (parted _ closing) (by decide)
  change Piece.delimited ['['] ']' .ident true .unterminatedIdent _ = _
  rw [Piece.delimited_doubled (by decide) noNul single, String.ofList_toList]
  rfl

theorem string {value : String} (noNul : Piece.nul ∉ value.toList) : Lexes { kind := .string, literal := value } := by
  refine ⟨'\'', doubled '\'' value.toList ++ ['\''], rfl, by decide, fun lineBlank rest parted => ?_⟩
  have single : rest.head? ≠ some '\'' := fun closing => absurd (parted _ closing) (by decide)
  change Piece.delimited ['\''] '\'' .string false .unterminatedString _ = _
  rw [Piece.delimited_doubled (by decide) noNul single, String.ofList_toList]
  rfl

theorem number {value : String} (number : IsNumber value.toList) : Lexes { kind := .number, literal := value } := by
  obtain ⟨c, cs, spelled, notNul⟩ : ∃ c cs, value.toList = c :: cs ∧ c ≠ Piece.nul := by
    generalize value.toList = text at number
    cases number with
    | whole digit | decimal digit => exact ⟨_, _, rfl, fun isNul => absurd (isNul ▸ digit) (by decide)⟩
    | fraction | binary => exact ⟨_, _, rfl, by decide⟩
  rw [spelled] at number
  refine ⟨c, cs, spelled, notNul, fun lineBlank rest parted => ?_⟩
  rw [Piece.first_number lineBlank number parted, Piece.plain, ← spelled, String.ofList_toList]

theorem localVar {value : String} {name : List Char} (spelled : value.toList = '@' :: name)
    (parts : ∀ c ∈ name, Piece.isWordPart c = true) : Lexes { kind := .variableName, literal := value } := by
  refine ⟨'@', name, spelled, by decide, fun lineBlank rest parted => ?_⟩
  rw [Piece.first_variable lineBlank parts parted, Piece.plain, ← spelled, String.ofList_toList]

theorem word {text : String} {kind : TokenKind} {c : Char} {cs : List Char}
    (spelled : chars { kind, literal := text } = c :: cs) (bare : text.toList = c :: cs)
    (starts : Piece.isWordStart c = true) (parts : cs.all Piece.isWordPart = true) (notGo : Text.lower text ≠ "go")
    (isKind : TokenKind.ofWord (Text.lower text) = kind) : Lexes { kind, literal := text } := by
  have whole : String.ofList (c :: cs) = text := by rw [← bare, String.ofList_toList]
  refine ⟨c, cs, spelled, fun isNul => absurd (isNul ▸ starts) (by decide), fun lineBlank rest parted => ?_⟩
  rw [Piece.first_word lineBlank starts (List.all_eq_true.1 parts) fun d next => parted d next ▸ by decide, whole,
    if_neg (by simp [notGo]), isKind, Piece.plain, whole]

theorem symbol (s : Symbol) : (symbol s).Lexes := by
  obtain ⟨c, cs, spelled, notNul, ended, parted⟩ : ∃ c cs, s.text.toList = c :: cs ∧ c ≠ Piece.nul ∧
      (∀ lineBlank, Piece.first lineBlank c cs = Piece.plain (.symbol s) (c :: cs)) ∧
      ∀ lineBlank more, Piece.first lineBlank c (cs ++ ' ' :: more) = Piece.plain (.symbol s) (c :: cs) := by
    cases s <;> exact ⟨_, _, rfl, by decide, fun _ => rfl, fun _ _ => rfl⟩
  refine ⟨c, cs, spelled, notNul, fun lineBlank rest space => ?_⟩
  have first : Piece.first lineBlank c (cs ++ rest) = Piece.plain (.symbol s) (c :: cs) := by
    cases rest with
    | nil => rw [List.append_nil, ended]
    | cons d rest =>
      obtain rfl := space d rfl
      exact parted lineBlank rest
  rw [first, Piece.plain, ← spelled, String.ofList_toList]
  rfl

theorem keyword {k : Keyword} (operator : k ∈ operatorWords) : (keyword k).Lexes := by
  -- Decided for all of them at once, since every look-up goes over all keywords.
  have known : ∀ k ∈ operatorWords, Text.lower k.text ≠ "go" ∧ TokenKind.ofWord (Text.lower k.text) = .keyword k := by
    decide +kernel
  obtain ⟨notGo, isKind⟩ := known k operator
  simp only [operatorWords, List.mem_cons, List.not_mem_nil, or_false] at operator
  rcases operator with rfl | rfl | rfl | rfl | rfl | rfl | rfl | rfl | rfl <;>
    exact word rfl rfl (by decide) (by decide) notGo isKind

theorem name {text : String} (noNul : Piece.nul ∉ text.toList) : (name text).Lexes := by
  unfold Lexeme.name
  cases plain : isPlainName text.toList with
  | false => exact bracketed noNul
  | true =>
    unfold isPlainName at plain
    split at plain
    · cases plain
    · rename_i c cs spelled
      rw [← spelled, String.ofList_toList] at plain
      simp only [Bool.and_eq_true, bne_iff_ne, beq_iff_eq] at plain
      obtain ⟨⟨starts, parts⟩, notGo, isName⟩ := plain
      exact word spelled spelled starts parts notGo isName

end Lexes

/-- Every token that a tree is printed with is read back from its spelling. -/
theorem Proper.lexes {l : Lexeme} (proper : l.Proper) (written : l.Written) : l.Lexes := by
  cases proper with
  | number => exact .number written
  | string => exact .string written
  | localVar =>
    obtain ⟨name, spelled, parts⟩ := written
    exact .localVar spelled parts
  | bracketed => exact .bracketed written
  | name => exact .name written
  | symbol s => exact .symbol s
  | keyword operator => exact .keyword operator

/-- What the end of a text is read as. -/
def ending : Lexeme := { kind := .eof, literal := "" }

/-- The text is read as these tokens. -/
def Spells (lineBlank : Bool) (text : List Char) (ls : List Lexeme) : Prop :=
  ∀ cursor, (Lexer.place cursor (Piece.cut lineBlank 0 text)).map Token.lexeme = ls ++ [ending] ∧
    Lexer.faults cursor (Piece.cut lineBlank 0 text) = []

namespace Spells

variable {lineBlank : Bool} {c : Char} {cs rest : List Char} {l : Lexeme} {ls : List Lexeme}

theorem nil : Spells lineBlank [] [] := fun _ => ⟨rfl, rfl⟩

theorem token (notNul : c ≠ Piece.nul)
    (first : Piece.first lineBlank c (cs ++ rest) = { raw := c :: cs, content := .token l.kind l.literal l.quoted })
    (later : Spells (Piece.lineBlankAfterAll lineBlank (c :: cs)) rest ls) :
    Spells lineBlank (c :: (cs ++ rest)) (l :: ls) := by
  intro cursor
  obtain ⟨tokens, faults⟩ := later (cursor.advanceAll (c :: cs))
  rw [Lexer.cut_first notNul (congrArg Piece.raw first), first]
  dsimp only [Lexer.place, Lexer.faults]
  rw [List.map_cons, tokens]
  exact ⟨rfl, faults⟩

theorem blank (later : Spells (Piece.lineBlankAfter lineBlank ' ') rest ls) : Spells lineBlank (' ' :: rest) ls := by
  intro cursor
  rw [Lexer.place_blank _ _ rfl, Lexer.faults_blank _ _ rfl]
  exact later _

theorem tokenize {text : String} (spells : Spells true text.toList ls) :
    (tokenize text).map Token.lexeme = ls ++ [ending] ∧ lexErrors text = [] := spells {}

/-- Tokens with a space between any two are read one by one. -/
theorem spaced (each : ∀ l ∈ ls, l.Lexes) (lineBlank : Bool) :
    Spells lineBlank ([' '].intercalate (ls.map chars)) ls := by
  induction ls generalizing lineBlank with
  | nil => exact nil
  | cons l ls ih =>
    obtain ⟨⟨c, cs, spelled, notNul, first⟩, each⟩ := forall_mem_cons.1 each
    cases ls with
    | nil =>
      rw [List.map_singleton, List.intercalate_singleton, spelled, ← List.append_nil cs]
      exact token notNul (first lineBlank [] nofun) nil
    | cons next ls =>
      rw [List.map_cons, List.map_cons, List.intercalate_cons_cons, append_assoc, spelled]
      exact token notNul (first lineBlank _ fun c first => (Option.some.inj first).symm) (blank (ih each _))

end Spells

end Lexeme

namespace Expr

/-- The text of an expression is read as its tokens. -/
theorem Ordered.tokenize_text {e : Expr} (ordered : e.Ordered) (written : ∀ l ∈ e.lexemes, l.Written) :
    (tokenize e.text).map Token.lexeme = e.lexemes ++ [.ending] ∧ lexErrors e.text = [] := by
  refine Lexeme.Spells.tokenize ?_
  rw [text, String.toList_ofList]
  exact .spaced (fun l member => (ordered.proper l member).lexes (written l member)) true

end Expr

/-- A parser that reads the tokens up to the last comes to the end of the text. -/
theorem Parse.Reads.whole {α : Type} {p : Parse α} {P : α → Prop} {ls : List Lexeme} {tokens : List Token}
    (spelled : tokens.map Token.lexeme = ls ++ [.ending])
    (reads : ∀ own last, own.map Token.lexeme = ls → last.kind = .eof →
      p.Reads (.ofTokens [last]) (own ++ [last]) [last] P) :
    ∃ a s', p (.ofTokens tokens) = (a, s') ∧ P a ∧ s'.current.kind = .eof ∧ s'.ahead = [] ∧ s'.errors = [] ∧
      s'.depth = 0 := by
  obtain ⟨own, _, rfl, front, behind⟩ := List.map_eq_append_iff.1 spelled
  obtain ⟨last, rfl, ends, -⟩ := Token.spelled_singleton behind
  obtain ⟨a, stop, run, holds⟩ := reads own last front ends .unset
  have start : ParseState.ofTokens (own ++ [last]) = (ParseState.ofTokens [last]).facing .unset (own ++ [last]) := by
    cases own <;> rfl
  rw [start]
  exact ⟨a, _, run, holds, ends, rfl, rfl, rfl⟩

/-- An expression that is grouped as the levels say is read back from its tokens, up to places, wherever the tokens
behind it belong to no operand of it, and nothing is reported. It is read back from its text too: the text has the tokens
of the expression and no fault, and the parser comes to its end. -/
theorem ordered_expression_read_back {e : Expr} (ordered : e.Ordered) :
    (∀ (n : Nat) (s : ParseState) (tokens rest : List Token), tokens.map Token.lexeme = e.lexemes → e.nesting < n →
      s.depth + e.nesting < maxDepth → Parse.Follows 0 rest →
      (Grammar.ofDepth n).expr.Reads s (tokens ++ rest) rest (·.bare = e.bare)) ∧
    ((∀ l ∈ e.lexemes, l.Written) → e.nesting < maxDepth →
      (tokenize e.text).map Token.lexeme = e.lexemes ++ [.ending] ∧ lexErrors e.text = [] ∧
      ∀ n, (tokenize e.text).length ≤ n → ∃ e' s',
        (Grammar.ofDepth n).expr (.ofTokens (tokenize e.text)) = (e', s') ∧ e'.bare = e.bare ∧
        s'.current.kind = .eof ∧ s'.ahead = [] ∧ s'.errors = [] ∧ s'.depth = 0) := by
  have readsBack := ordered.readsBack
  refine ⟨fun n s tokens rest spelled deep shallow follows =>
    readsBack.exprAt spelled deep shallow e.level_pos follows, fun written shallow => ?_⟩
  obtain ⟨tokens, faults⟩ := ordered.tokenize_text written
  refine ⟨tokens, faults, fun n enough => Parse.Reads.whole tokens fun own last spelled ends => ?_⟩
  have deep : e.nesting < n := by
    have lengths := congrArg List.length tokens
    rw [List.length_map, List.length_append, List.length_singleton] at lengths
    have below := ordered.nesting_lt
    omega
  exact readsBack.exprAt spelled deep (show 0 + e.nesting < maxDepth by omega) e.level_pos (.stop (.inr (.inr ends)))

/-- A `NOT` in front of all that binds more tightly, others behind an operand, the `AND` of a `BETWEEN` beside the
operator, a doubled quote, a name that needs brackets and a number that ends with a sign. -/
theorem ordered_expression_read_back_mixed :
    let sum : Expr := .binary .unset (.column { table := "s", column := "a" }) .add
      (.binary .unset (.unary .unset .minus (.literal .unset .number "1.5")) .mul (.localVar .unset "@x"))
    let range : Expr := .between .unset sum true (.literal .unset .number "0")
      (.unary .unset .complement (.literal .unset .number "0xFF"))
    let member : Expr := .inList .unset (.collate .unset (.column { column := "b" }) "latin 1") true
      [.literal .unset .string "it's", .literal .unset .number "2e+"]
    let e : Expr := .binary .unset (.unary .unset .not range) .and member
    e.text = "NOT [s] . [a] + - 1.5 * @x NOT BETWEEN 0 AND ~ 0xFF AND [b] COLLATE [latin 1] NOT IN ( 'it''s' , 2e+ )" ∧
    ∃ e' s', (Grammar.ofDepth 32).expr (.ofTokens (tokenize e.text)) = (e', s') ∧ e'.bare = e ∧
      s'.current.kind = .eof ∧ s'.errors = [] := by
  intro sum range member e
  have ordered : e.Ordered := by
    have product := Expr.Ordered.binary .unset .mul (.unary .unset .minus (.number .unset "1.5") (by decide)) (by decide)
      (.localVar .unset "@x") (by decide)
    have sum := Expr.Ordered.binary .unset .add (.column { table := "s", column := "a" }) (by decide) product (by decide)
    have range := Expr.Ordered.between .unset true sum (by decide) (.number .unset "0") (by decide)
      (.unary .unset .complement (.number .unset "0xFF") (by decide)) (by decide)
    have member := Expr.Ordered.inList .unset true
      (.collate .unset "latin 1" (.column { column := "b" }) (by decide)) (by decide) (by simp)
      (List.forall_mem_cons.2 ⟨.string .unset "it's", List.forall_mem_singleton.2 (.number .unset "2e+")⟩)
    exact .binary .unset .and (.unary .unset .not range (by decide)) (by decide) member (by decide)
  have written : ∀ l ∈ e.lexemes, l.Written := by
    have decimal : Lexeme.Written { kind := .number, literal := "1.5" } :=
      (.decimal rfl nofun (List.forall_mem_singleton.2 rfl) .absent : IsNumber ('1' :: ([] ++ '.' :: (['5'] ++ []))))
    have zero : Lexeme.Written { kind := .number, literal := "0" } :=
      (.whole rfl nofun .absent : IsNumber ('0' :: ([] ++ [])))
    have binary : Lexeme.Written { kind := .number, literal := "0xFF" } :=
      (.binary (.inl rfl) (List.forall_mem_cons.2 ⟨rfl, List.forall_mem_singleton.2 rfl⟩) :
        IsNumber ['0', 'x', 'F', 'F'])
    have signed : Lexeme.Written { kind := .number, literal := "2e+" } :=
      (.whole rfl nofun (.signed (.inl rfl) (.inl rfl) nofun) : IsNumber ('2' :: ([] ++ ['e', '+'])))
    have quoted : Lexeme.Written { kind := .string, literal := "it's" } := (by decide : Piece.nul ∉ "it's".toList)
    have named : Lexeme.Written { kind := .variableName, literal := "@x" } := ⟨['x'], rfl, List.forall_mem_singleton.2 rfl⟩
    simp [e, range, member, sum, Expr.lexemes, Expr.listLexemes, ColumnRef.parts, Lexeme.negation, or_imp, forall_and,
      Piece.nul, decimal, zero, binary, signed, quoted, named]
  obtain ⟨-, fromText⟩ := ordered_expression_read_back ordered
  obtain ⟨tokens, -, reads⟩ := fromText written (by decide)
  have few : (tokenize e.text).length ≤ 32 := by
    rw [← List.length_map Token.lexeme, tokens]
    decide
  obtain ⟨e', s', run, same, ends, -, clean, -⟩ := reads 32 few
  exact ⟨by decide +kernel, e', s', run, same, ends, clean⟩

end ColumnFlow
