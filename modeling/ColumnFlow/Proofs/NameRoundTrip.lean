import ColumnFlow.Proofs.ExpressionRoundTrip

/-!
# The text of an object name and back

The parts of a name are joined with dots and read back from the right, so a text has to keep the dots around an empty part
in the middle. Behind a database it does. A server without a database loses one or two of its dots, and what is read back
is another name. Nor is a name read back that is `GO` and nothing else: it separates batches.
-/

namespace ColumnFlow

/-- An identifier that needs no delimiters. -/
abbrev IsRegular (s : String) : Prop :=
  s.toList.head?.any Piece.isWordStart = true ∧ s.toList.all Piece.isWordPart = true ∧
    TokenKind.ofWord (Text.lower s) = .ident

namespace IsRegular

variable {s : String} (regular : IsRegular s)

include regular

theorem ne_empty : s ≠ "" := by
  rintro rfl
  cases regular.1

theorem spelled : ∃ c cs, s.toList = c :: cs ∧ Piece.isWordStart c = true ∧ ∀ d ∈ cs, Piece.isWordPart d = true := by
  obtain ⟨starts, all, -⟩ := regular
  cases chars : s.toList with
  | nil => simp [chars] at starts
  | cons c cs =>
    rw [chars] at starts all
    exact ⟨c, cs, rfl, starts, fun d member => List.all_eq_true.1 all d (List.mem_cons_of_mem c member)⟩

end IsRegular

/-! ### Words and dots -/

theorem Piece.first_dot (lineBlank : Bool) {cs : List Char} (noDigit : ∀ d ∈ cs.head?, d.isDigit = false) :
    first lineBlank '.' cs = plain (.symbol .dot) ['.'] := by
  have other : cs.head?.any Char.isDigit = false := by
    cases next : cs.head? with
    | none => rfl
    | some d => exact noDigit d next
  simp [first, token, isBlank, isWordStart, isLetter, other, symbolAt?]

theorem lower_ne_go_of_dot {s : String} (dot : '.' ∈ s.toList) : Text.lower s ≠ "go" := by
  intro isGo
  have member : Text.lowerChar '.' ∈ (Text.lower s).toList := by
    rw [Text.lower, String.toList_map]
    exact List.mem_map_of_mem dot
  rw [isGo] at member
  exact absurd member (by decide +kernel)

namespace Lexeme

def plainName (s : String) : Lexeme := { kind := .ident, literal := s }

/-- The tokens of parts that each stand behind a dot. -/
def behindDots (parts : List String) : List Lexeme :=
  parts.flatMap fun part => symbol .dot :: if part = "" then [] else [plainName part]

/-- The text of parts that each stand behind a dot. -/
def dotted (parts : List String) : List Char := parts.flatMap fun part => '.' :: part.toList

theorem toList_intercalate_dot (first : String) (parts : List String) :
    (".".intercalate (first :: parts)).toList = first.toList ++ dotted parts := by
  induction parts generalizing first with
  | nil => simp [dotted]
  | cons part parts ih =>
    rw [String.intercalate_cons_cons, String.toList_append, String.toList_append, ih, List.append_assoc]
    rfl

theorem head?_dotted (parts : List String) : ∀ d ∈ (dotted parts).head?, d = '.' := by
  cases parts with
  | nil => simp [dotted]
  | cons part parts => exact fun d first => (Option.some.inj first).symm

namespace Spells

variable {s : String} {lineBlank : Bool} {parts : List String}

/-- One token for a regular name in front of a dot or the end of the text. -/
theorem name {ls : List Lexeme} (regular : IsRegular s)
    (notGo : Text.lower s = "go" → (lineBlank && Piece.endsLine (dotted parts)) = false)
    (later : ∀ lineBlank', Spells lineBlank' (dotted parts) ls) :
    Spells lineBlank (s.toList ++ dotted parts) (plainName s :: ls) := by
  obtain ⟨c, cs, spelled, starts, all⟩ := regular.spelled
  have whole : String.ofList (c :: cs) = s := by rw [← spelled, String.ofList_toList]
  have other : ¬(Text.lower s == "go" && lineBlank && Piece.endsLine (dotted parts)) = true := by
    rw [Bool.and_assoc, Bool.and_eq_true, beq_iff_eq]
    exact fun isGo => Bool.false_ne_true ((notGo isGo.1).symm.trans isGo.2)
  have piece := Piece.first_word lineBlank starts all fun d next => head?_dotted parts d next ▸ by decide
  rw [whole, if_neg other, regular.2.2, Piece.plain, whole] at piece
  rw [spelled, List.cons_append]
  exact .token (fun isNul => absurd (isNul ▸ starts) (by decide)) piece (later _)

theorem dotted (regular : ∀ p ∈ parts, p = "" ∨ IsRegular p) (lineBlank : Bool) :
    Spells lineBlank (dotted parts) (behindDots parts) := by
  induction parts generalizing lineBlank with
  | nil => exact .nil
  | cons part parts ih =>
    obtain ⟨here, others⟩ := List.forall_mem_cons.1 regular
    -- Only blanks come before a separator on its line, so behind a dot there is none.
    have dot {rest : List Char} {ls : List Lexeme} (noDigit : ∀ d ∈ rest.head?, d.isDigit = false)
        (later : Spells false rest ls) : Spells lineBlank ('.' :: rest) (symbol .dot :: ls) := by
      refine @token lineBlank '.' [] rest _ _ (by decide) (Piece.first_dot lineBlank noDigit) ?_
      cases lineBlank <;> exact later
    rcases here with rfl | isName
    · exact dot (fun d next => head?_dotted parts d next ▸ rfl) (ih others false)
    · have tokens : behindDots (part :: parts) = symbol .dot :: plainName part :: behindDots parts := by
        simp [behindDots, isName.ne_empty]
      rw [tokens]
      refine dot (fun d next => ?_) (name isName (fun _ => rfl) (ih others))
      obtain ⟨c, cs, spelled, starts, -⟩ := isName.spelled
      rw [spelled] at next
      obtain rfl : c = d := Option.some.inj next
      refine Bool.eq_false_iff.2 fun digit => ?_
      rcases digit_cases digit with rfl | rfl | rfl | rfl | rfl | rfl | rfl | rfl | rfl | rfl <;> cases starts

end Spells

end Lexeme

/-! ### Reading -/

namespace Parse.Reads

variable {s : ParseState} {tokens more : List Token} {t u : Token} {parts : List String}

/-- By induction on the parts; one that is left out is a dot with another dot behind it. -/
theorem dottedParts (spelled : tokens.map Token.lexeme = Lexeme.behindDots parts) (ends : parts.getLast? ≠ some "")
    (noDot : t.kind ≠ Symbol.dot) : Parse.dottedParts.Reads s (tokens ++ t :: more) (t :: more) (· = parts) := by
  unfold Parse.dottedParts collect
  refine .step (.rounds (by simp)) ?_
  obtain ⟨n, enough, bound⟩ : ∃ n, tokens.length < n ∧ (tokens ++ t :: more).length = n := ⟨_, by simp, rfl⟩
  rw [bound]
  clear bound
  induction parts generalizing n tokens with
  | nil =>
    obtain rfl : tokens = [] := List.map_eq_nil_iff.1 spelled
    obtain ⟨n, rfl⟩ := Nat.exists_eq_succ_of_ne_zero (Nat.ne_of_gt enough)
    exact .step (.step (.pass noDot) (.value rfl)) (.value rfl)
  | cons part parts ih =>
    obtain ⟨n, rfl⟩ := Nat.exists_eq_succ_of_ne_zero (Nat.ne_of_gt (Nat.zero_lt_of_lt enough))
    obtain ⟨dot, tokens, rfl, isDot, -, -, spelled⟩ := Token.spelled_cons spelled
    have last : parts.getLast? ≠ some "" := by
      cases parts with
      | nil => simp
      | cons next parts => simpa using ends
    rw [collect.go]
    by_cases empty : part = ""
    · subst empty
      obtain ⟨next, parts, rfl⟩ := List.exists_cons_of_ne_nil (l := parts) (by rintro rfl; exact ends rfl)
      obtain ⟨dot', _, rfl, isDot', -⟩ := Token.spelled_cons (id spelled)
      refine .step (a := some "") (.step (.accept isDot (by simp)) (.step (.sees _) ?_))
        (.step (ih spelled last n (by simpa using enough)) (.value rfl))
      rw [isDot']
      exact .value rfl
    · rw [if_neg empty] at spelled
      obtain ⟨name, tokens, rfl, kind, literal, -, spelled⟩ := Token.spelled_cons spelled
      refine .step (a := some part) (.step (.accept isDot (by simp)) (.step (.sees _) ?_))
        (.step (ih spelled last n (by simp at enough; omega)) (.value rfl))
      rw [kind]
      refine .step (a := part) (.step .current ?_) (.value rfl)
      rw [kind, show part = name.literal from literal.symm]
      exact .takeLiteral (by simp)

theorem objectName (isName : t.kind = .ident) (few : parts.length ≤ 3)
    (spelled : tokens.map Token.lexeme = Lexeme.behindDots parts) (ends : parts.getLast? ≠ some "")
    (noDot : u.kind ≠ Symbol.dot) :
    Parse.objectName.Reads s (t :: (tokens ++ u :: more)) (u :: more)
      (·.bare = (ObjectName.ofParts (t.literal :: parts)).bare) := by
  unfold Parse.objectName
  refine .bind .position fun _ _ => .step (.sees _) ?_
  rw [isName, beq_self_eq_true, if_pos rfl]
  refine .step (.takeLiteral (by simp)) (.step (dottedParts spelled ends noDot) ?_)
  have short : ¬4 < (t.literal :: parts).length := Nat.not_lt.2 (Nat.succ_le_succ few)
  rw [if_neg short]
  exact .spanned fun _ => .value rfl

end Parse.Reads

namespace ObjectName

/-- The parts from the first one that is not empty. -/
def parts (o : ObjectName) : List String := [o.server, o.database, o.schema].dropWhile (· == "") ++ [o.name]

/-- Up to places the text is read as the name, to its end and without a fault. -/
abbrev ReadFrom (o : ObjectName) (text : String) : Prop :=
  let read := Parse.objectName (.ofTokens (tokenize text))
  lexErrors text = [] ∧ read.1.bare = o.bare ∧ read.2.current.kind = .eof ∧ read.2.errors = []

variable {o o' : ObjectName} {first text : String} {parts : List String}

/-- The text is cut into the tokens of its parts, and these are read back; alone, a `go` would end the batch. -/
theorem readFrom_ofParts (regular : IsRegular first) (others : ∀ p ∈ parts, p = "" ∨ IsRegular p)
    (few : parts.length ≤ 3) (ends : parts.getLast? ≠ some "") (notGo : parts = [] → Text.lower first ≠ "go") :
    (ofParts (first :: parts)).ReadFrom (".".intercalate (first :: parts)) := by
  have spells : Lexeme.Spells true (".".intercalate (first :: parts)).toList
      (Lexeme.plainName first :: Lexeme.behindDots parts) := by
    rw [Lexeme.toList_intercalate_dot]
    refine .name regular (fun isGo => ?_) fun b => .dotted others b
    cases parts with
    | nil => exact absurd isGo (notGo rfl)
    | cons part parts => rfl
  obtain ⟨tokens, clean⟩ := spells.tokenize
  obtain ⟨o', s', run, same, atEnd, -, quiet, -⟩ := Parse.Reads.whole
    (p := Parse.objectName) (P := (·.bare = (ofParts (first :: parts)).bare)) tokens fun own last spelled isEnd => by
      obtain ⟨t, own, rfl, isName, literal, -, spelled⟩ := Token.spelled_cons spelled
      rw [show first = t.literal from literal.symm]
      exact .objectName isName few spelled ends (by simp [isEnd])
  rw [ReadFrom, run]
  exact ⟨clean, same, atEnd, quiet⟩

/-- The lexer takes it for the end of a batch. -/
theorem not_readFrom_go (regular : IsRegular text) (isGo : Text.lower text = "go") : ¬o.ReadFrom text := by
  obtain ⟨c, cs, spelled, starts, all⟩ := regular.spelled
  have whole : String.ofList (c :: cs) = text := by rw [← spelled, String.ofList_toList]
  have piece := @Piece.first_word [] cs true c starts all (by simp)
  rw [whole, isGo] at piece
  have spells : Lexeme.Spells true text.toList [{ kind := .separator, literal := text }] := by
    rw [spelled, ← List.append_nil cs]
    exact .token (fun isNul => absurd (isNul ▸ starts) (by decide)) (piece.trans (by simp [Piece.endsLine])) .nil
  obtain ⟨t, more, same, kind, -⟩ := Token.spelled_cons spells.tokenize.1
  rw [ReadFrom, same]
  rintro ⟨-, -, -, clean⟩
  obtain ⟨kind'⟩ := t
  obtain rfl : kind' = .separator := kind
  cases clean

theorem readFrom_iff {inner : List String} {name : String} (named : IsRegular name)
    (others : ∀ p ∈ inner, p = "" ∨ IsRegular p) (few : inner.length ≤ 3) (opens : inner.head? ≠ some "") :
    (ofParts (inner ++ [name])).ReadFrom (".".intercalate (inner ++ [name])) ↔
      Text.lower (".".intercalate (inner ++ [name])) ≠ "go" := by
  cases inner with
  | nil =>
    rw [List.nil_append, String.intercalate_singleton]
    refine ⟨fun reads isGo => not_readFrom_go named isGo reads, fun notGo => ?_⟩
    simpa using @readFrom_ofParts name [] named (by simp) (by simp) (by simp) fun _ => notGo
  | cons first inner =>
    obtain ⟨here, later⟩ := List.forall_mem_cons.1 others
    have regular := here.resolve_left fun empty => opens (congrArg some empty)
    refine iff_of_true (readFrom_ofParts regular ?_ (by simpa using few) ?_ (by simp)) (lower_ne_go_of_dot ?_)
    · exact List.forall_mem_append.2 ⟨later, List.forall_mem_singleton.2 (.inr named)⟩
    · simpa using named.ne_empty
    · rw [List.cons_append, Lexeme.toList_intercalate_dot]
      cases inner <;> simp [Lexeme.dotted]

theorem ofParts_parts (o : ObjectName) : (ofParts o.parts).bare = o.bare := by
  obtain ⟨span, server, database, schema, name⟩ := o
  by_cases noServer : server = "" <;> by_cases noDatabase : database = "" <;> by_cases noSchema : schema = "" <;>
    simp [ObjectName.parts, ofParts, bare, noServer, noDatabase, noSchema]

theorem text_eq_joined (o : ObjectName) (kept : o.server = "" ∨ o.database ≠ "") : o.text = ".".intercalate o.parts := by
  have dots (rest : String) : ".." ++ rest = "." ++ ("." ++ rest) := by rw [← String.append_assoc]; rfl
  by_cases noServer : o.server = "" <;> by_cases noDatabase : o.database = "" <;> by_cases noSchema : o.schema = "" <;>
    simp_all [ObjectName.parts, text, String.intercalate_cons_cons, String.append_assoc]

theorem text_eq_joined_of_lost (o : ObjectName) (server : o.server ≠ "") (noDatabase : o.database = "") :
    o.text = ".".intercalate ((o.server :: [o.schema].filter (· != "")) ++ [o.name]) := by
  by_cases noSchema : o.schema = "" <;>
    simp [text, server, noDatabase, noSchema, String.intercalate_cons_cons, String.append_assoc]

/-- What is read from the text of a name with a server but no database has no server. -/
theorem not_readFrom_text (named : IsRegular o.name)
    (others : ∀ p ∈ [o.server, o.database, o.schema], p = "" ∨ IsRegular p) (server : o.server ≠ "")
    (noDatabase : o.database = "") : ¬o.ReadFrom o.text := by
  have regular := (others _ List.mem_cons_self).resolve_left server
  have left : ∀ p ∈ [o.schema].filter (· != "") ++ [o.name], p = "" ∨ IsRegular p := by
    refine List.forall_mem_append.2 ⟨fun p member => ?_, List.forall_mem_singleton.2 (.inr named)⟩
    exact others p (by simp [List.mem_singleton.1 (List.mem_filter.1 member).1])
  have few : ([o.schema].filter (· != "") ++ [o.name]).length ≤ 3 :=
    Nat.le_succ_of_le (by simpa using List.length_filter_le _ [o.schema])
  have other := readFrom_ofParts regular left few (by simpa using named.ne_empty) (by simp)
  rw [o.text_eq_joined_of_lost server noDatabase]
  intro reads
  refine server ((congrArg ObjectName.server (reads.2.1.symm.trans other.2.1)).trans ?_)
  by_cases noSchema : o.schema = "" <;> simp [ofParts, bare, noSchema]

end ObjectName

/-- Any name of regular parts, of which some before the last may be empty, is read from its parts with dots between them.
It is read back from its text exactly if it has no server without a database. Only `GO` alone is read from neither. -/
theorem object_name_read_back_iff {o : ObjectName} (named : IsRegular o.name)
    (others : ∀ p ∈ [o.server, o.database, o.schema], p = "" ∨ IsRegular p) :
    (o.ReadFrom (".".intercalate o.parts) ↔ Text.lower (".".intercalate o.parts) ≠ "go") ∧
      (o.ReadFrom o.text ↔ Text.lower o.text ≠ "go" ∧ (o.server = "" ∨ o.database ≠ "")) := by
  have joined : o.ReadFrom (".".intercalate o.parts) ↔ Text.lower (".".intercalate o.parts) ≠ "go" := by
    rw [ObjectName.ReadFrom, ← o.ofParts_parts]
    refine ObjectName.readFrom_iff named (fun p member => others p ((List.dropWhile_sublist _).subset member)) ?_ ?_
    · exact (List.dropWhile_sublist _).length_le
    · intro empty
      have first := List.head?_dropWhile_not (· == "") [o.server, o.database, o.schema]
      rw [empty] at first
      simp at first
  refine ⟨joined, ?_⟩
  by_cases kept : o.server = "" ∨ o.database ≠ ""
  · rw [o.text_eq_joined kept, joined, and_iff_left kept]
  · obtain ⟨server, noDatabase⟩ : o.server ≠ "" ∧ o.database = "" := by simpa using kept
    exact iff_of_false (ObjectName.not_readFrom_text named others server noDatabase) fun both => kept both.2

/-- A name on a linked server with an empty part in the middle is read back from its text. Without a database it is still
read from its parts, but its text has fewer dots. -/
theorem object_name_read_back_linked :
    let o : ObjectName := { server := "srv", database := "db", name := "t" }
    let lost := ObjectName.ofParts ["srv", "", "", "t"]
    (o.text = "srv.db..t" ∧ o.ReadFrom o.text) ∧ lost.ReadFrom "srv...t" ∧ lost.text = "srv.t" ∧ ¬lost.ReadFrom lost.text := by
  intro o lost
  have kept := (@object_name_read_back_iff o (by decide +kernel) (by decide +kernel)).2
  obtain ⟨joined, text⟩ := @object_name_read_back_iff lost (by decide +kernel) (by decide +kernel)
  have parts : ".".intercalate lost.parts = "srv...t" := by decide +kernel
  rw [parts] at joined
  exact ⟨⟨by decide +kernel, kept.2 (by decide +kernel)⟩, joined.2 (by decide +kernel), by decide +kernel,
    fun reads => absurd (text.1 reads).2 (by decide +kernel)⟩

end ColumnFlow
