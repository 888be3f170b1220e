import ColumnFlow.Lineage.Extract
import ColumnFlow.Proofs.NodeStarts
import ColumnFlow.Proofs.StatementPlaces
import ColumnFlow.Proofs.TokenPositions

/-!
# Findings by their places

Findings are sorted by line and column. Since every node starts where a token starts, this is the order of the offsets
in the text.
-/

namespace ColumnFlow

open Text (Position)

/-! ### Lines and columns -/

namespace Text

/-- Standing further ahead by line and column. -/
def Position.Precedes (p q : Position) : Prop := p.line < q.line ∨ p.line = q.line ∧ p.column < q.column

end Text

/-- Among the starts of tokens one that is not further back by line and column has no greater offset. -/
theorem StartsToken.offset_le {source : String} {p q : Position} (left : StartsToken source p)
    (right : StartsToken source q) (ahead : ¬q.Precedes p) : p.offset ≤ q.offset := by
  have counted {p : Position} (start : StartsToken source p) :
      Counted (lineFeeds source p.offset) p.line p.column p.offset := by
    obtain ⟨t, inText, rfl⟩ := start
    exact counted_of_mem (List.mem_append_left _ (List.mem_flatMap.mpr ⟨t, inText, List.mem_cons_self⟩))
  exact Nat.not_lt.mp fun lt => ahead (counted_lt (counted right) (counted left) lt)

/-! ### Sorting -/

namespace Finding

theorem isBefore_iff (a b : Finding) :
    a.isBefore b = true ↔ a.line < b.line ∨ a.line = b.line ∧ a.column ≤ b.column := by
  unfold isBefore
  by_cases same : a.line = b.line
  · simp [same]
  · simp [same]

theorem isBefore_trans (a b c : Finding) (h : a.isBefore b = true) (h' : b.isBefore c = true) :
    a.isBefore c = true := by
  rw [isBefore_iff] at *
  omega

theorem isBefore_total (a b : Finding) : (a.isBefore b || b.isBefore a) = true := by
  rw [Bool.or_eq_true, isBefore_iff, isBefore_iff]
  omega

end Finding

theorem parse_source {source : String} {script : Script} (parsed : (parse source).1 = some script) :
    script.source = source := by
  obtain rfl := parse_eq_some parsed
  rfl

/-- Records in the order of their findings are in the order of their offsets. -/
theorem recorded_offset_le {source : String} {script : Script} (parsed : (parse source).1 = some script)
    {a b : Recorded} (left : a ∈ script.recorded) (right : b ∈ script.recorded)
    (before : (a.finding source).isBefore (b.finding source) = true) :
    a.node.span.start.offset ≤ b.node.span.start.offset := by
  have anchored : ∀ record ∈ script.recorded, StartsToken source record.node.span.start := by
    intro record mem
    have walked : record.report ∈ (script.nodes fun _ => false).filterMap Node.report? :=
      script.recorded_report ▸ List.mem_map_of_mem mem
    obtain ⟨node, inside, reported⟩ := List.mem_filterMap.mp walked
    obtain ⟨pair, _, same⟩ := Option.map_eq_some_iff.mp reported
    have span : node.span = record.node.span := congrArg (·.2.2) same
    exact span ▸ parse_anchored parsed node inside
  refine (anchored a left).offset_le (anchored b right) fun behind => ?_
  rw [Finding.isBefore_iff] at before
  simp only [Recorded.finding] at before
  unfold Position.Precedes at behind
  omega

/-- The findings of a script come from one walk of it. -/
structure FoundInOneWalk (script : Script) (findings : List Finding) : Prop where
  /-- What is recorded is what one walk from the root meets, in the same order. -/
  walked : script.recorded.map Recorded.report = (script.nodes fun _ => false).filterMap Node.report?
  places : script.places.map (·.node) = script.nodes fun _ => false
  /-- The numbers of statements are those of the listed ones. -/
  listed : script.listed.map (·.node) = script.sites.map (·.stmt.node)
  /-- Each record is under the number of the innermost listed statement that its node lies in. -/
  innermost : List.Forall₂ (fun (record : Recorded) (place : NodePlace) =>
      place.node.recorded? record.number = some record ∧ Innermost script.listed record.number place)
    script.recorded (script.places.filter (·.node.risk?.isSome))
  /-- Findings are in the order in which the nodes stand in the text. -/
  sorted : ∃ records : List Recorded, records.Perm script.recorded ∧
    records.map (·.finding script.source) = findings ∧
    records.Pairwise fun a b => a.node.span.start.offset ≤ b.node.span.start.offset

/-- Whatever the nesting of statements, the findings of a text are those of one walk of its script. -/
theorem extractText_findings_one_walk (source : String) (options : ExtractOptions) (script : Script)
    (parsed : (parse source).1 = some script) : FoundInOneWalk script (extractText source options).findings := by
  have found : (extractText source options).findings = script.findings := by
    simp [extractText, extract, parsed]
  have read := parse_source parsed
  refine ⟨script.recorded_report, script.places_node, script.listed_node, script.recorded_accounts, ?_⟩
  let order (a b : Recorded) : Bool := (a.finding source).isBefore (b.finding source)
  have perm := List.mergeSort_perm script.recorded order
  refine ⟨script.recorded.mergeSort order, perm, ?_, ?_⟩
  · rw [found, script.findings_eq_recorded, read]
    exact List.map_mergeSort fun _ _ _ _ => rfl
  · have trans (a b c : Recorded) : order a b = true → order b c = true → order a c = true := Finding.isBefore_trans _ _ _
    have total (a b : Recorded) : (order a b || order b a) = true := Finding.isBefore_total _ _
    have ordered := List.pairwise_mergeSort trans total script.recorded
    exact ordered.imp_of_mem fun left right before =>
      recorded_offset_le parsed (perm.mem_iff.mp left) (perm.mem_iff.mp right) before

/-- A remote source in the condition of an `IF` belongs to the `IF`, calls in its block to the statements of the block.
The procedure and the block have nothing of their own. -/
theorem extractText_findings_one_walk_nested :
    let source := "CREATE PROC p AS IF EXISTS (SELECT * FROM OPENQUERY(s, 'x') r) BEGIN INSERT t EXEC q; EXEC (@s) END"
    ∃ script, (parse source).1 = some script ∧ script.recorded.map (·.number) = [1, 3, 4] ∧
      FoundInOneWalk script (extractText source {}).findings := by
  intro source
  have numbers : (parse source).1.map (fun script => script.recorded.map (·.number)) = some [1, 3, 4] := by
    decide +kernel
  obtain ⟨script, parsed, numbers⟩ := Option.map_eq_some_iff.1 numbers
  exact ⟨script, parsed, numbers, extractText_findings_one_walk source {} script parsed⟩

end ColumnFlow
