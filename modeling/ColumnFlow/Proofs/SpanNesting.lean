import ColumnFlow.Proofs.BuildsStatements
import ColumnFlow.Proofs.CompleteScripts

/-!
# Spans of the nodes of a script

The main statement is `parse_nested`: every node of a script spans a part of its text from the start of a token to the
end of one, and the nodes in it lie inside that part. Only a set operation whose left operand is a chain in parentheses
may have its right operand behind the last block of that chain.

A bound on the depth of recursion is never felt, so that it does not matter what happens where it is exceeded. The
grammar of `Grammar.ofDepth` goes on with a hole there, of which nothing is known. The one that is used here reports a
fault instead, and does the same on every text.
-/

namespace ColumnFlow

open Parse
open SpanTree
open Text (Position Span)

namespace Grammar

/-- Reads nothing, and says so. -/
def refusing : Grammar where
  exprAt _ := do report .tooDeep; return .missing
  withClause := do report .tooDeep; return { span := .unset, tables := [] }
  query _ := do report .tooDeep; return .missing
  selectBody := do report .tooDeep; return .single .unset .missing
  table := do report .tooDeep; return .missing
  stmt := do report .tooDeep; return .missing

/-- The grammar whose entry points report a fault where they are nested too deep. -/
def upTo : Nat → Grammar
  | 0 => .refusing
  | fuel + 1 => (upTo fuel).next

end Grammar

theorem GrammarBuilds.next {source : String} {g : Grammar} (hg : GrammarBuilds source g) :
    GrammarBuilds source g.next := by
  have tame {α : Type} {C : α → Mark source} {m : Parse α} (h : Builds .unset .any C m) : Tame m := h.tame
  have queries (ctes : Option WithClause) : Tame (Parse.query g ctes) :=
    have h : Builds .unset (.prior .unset ctes : Mark source) _ (Parse.query g ctes) := .query hg ctes
    h.tame
  exact ⟨⟨fun _ => tame (.exprAt hg _), tame (.withClause hg), queries, tame (.selectBody hg), tame (.tableRef hg),
    tame (.stmt hg)⟩, .exprAt hg, .withClause hg, .query hg, .selectBody hg, .tableRef hg, .stmt hg⟩

theorem GrammarBuilds.upTo (source : String) (fuel : Nat) : GrammarBuilds source (.upTo fuel) := by
  induction fuel with
  | zero =>
    -- Nothing has to be known of a value that comes with a report.
    have refused {α : Type} {start : Position} {K : Mark source} {C : α → Mark source} {a : α} :
        Builds start K C (do report .tooDeep; return a) := .refused (.report _)
    have tame {α : Type} {a : α} : Tame (do report .tooDeep; return a) :=
      .bind (.report _) fun _ => .pure _
    exact ⟨⟨fun _ => tame, tame, fun _ => tame, tame, tame, tame⟩, fun _ => refused, refused, fun _ => refused,
      refused, refused, refused⟩
  | succ fuel ih => exact ih.next

theorem ParseState.lastStop_ofText (source : String) : (ParseState.ofText source).lastStop = .unset := by
  unfold ofText ofTokens
  split <;> rfl

theorem settled_ofText (source : String) : Settled source (.ofText source) where
  rest := ParseState.tokens_ofText source ▸ List.suffix_rfl
  behind := by
    rw [ParseState.lastStop_ofText]
    exact Nat.zero_le _

theorem Grammar.Deep.upTo (source : String) : ∀ fuel, Deep fuel (.upTo fuel)
  | 0 => .any (GrammarBuilds.upTo source 0).tame
  | fuel + 1 => .next (.upTo source fuel)

theorem script_upTo (source : String) {fuel : Nat} (deep : (tokenize source).length ≤ fuel) :
    (parseAll source).1 = (script (.upTo fuel) source (.ofText source)).1 := by
  rw [script_full (.upTo source fuel) deep, ← script_ofDepth (Nat.le_add_right _ 2)]
  rfl

/-- The span of a script ends with the last token, which is never read. -/
theorem script_nested {source : String} {g : Grammar} (hg : GrammarBuilds source g) :
    (ofScript (script g source (.ofText source)).1).Nested source := by
  have settled := settled_ofText source
  have h : Builds (ParseState.ofText source).current.start .any _ (batches g) := .batches hg
  have clean := (batches_failed g (.ofText source)).trans (ParseState.fresh_ofText source).failed
  have fits := h.value settled.begun trivial clean
  have reached := settled.onward (h.tame.onward (.ofText source))
  have extent := start_le_stop reached.settled.mem_current
  have within := fits.later (Nat.le_trans reached.settled.behind extent)
  have located := Fits.located settled.begun.starts ⟨_, reached.settled.mem_current, rfl⟩
    (Nat.le_trans reached.start_le extent)
  exact .node located (fun p mem => (within p mem).1) fun p mem => (within p mem).2

/-- Every node of a script reaches from the start of a token to the end of one, in the text, and holds the nodes that it
is made of. Only what is combined with a query block may stand behind it, and then the block ends in parentheses. -/
theorem parse_nested {source : String} {script : Script} (parsed : (parse source).1 = some script) :
    (ofScript script).Nested source := by
  obtain rfl := parse_eq_some parsed
  rw [script_upTo source (Nat.le_refl _)]
  exact script_nested (.upTo source _)

/-- The block that the parentheses end with is shorter than the query, and what is combined with it stands behind it. -/
theorem parse_nested_union :
    let source := "(SELECT a FROM t UNION SELECT b FROM u) UNION SELECT c FROM v"
    ∃ script, (parse source).1 = some script ∧
      (((ofScript script).inside.flatMap inside).flatMap inside).map (fun block =>
        (block.span.start.offset, block.span.stop.offset)) = [(0, 61), (23, 38), (46, 61)] ∧
      (ofScript script).Nested source := by
  intro source
  have blocks : (parse source).1.map (fun script => (((ofScript script).inside.flatMap inside).flatMap inside).map
      fun block => (block.span.start.offset, block.span.stop.offset)) = some [(0, 61), (23, 38), (46, 61)] := by
    decide +kernel
  obtain ⟨script, parsed, three⟩ := Option.map_eq_some_iff.mp blocks
  exact ⟨script, parsed, three, parse_nested parsed⟩

end ColumnFlow
