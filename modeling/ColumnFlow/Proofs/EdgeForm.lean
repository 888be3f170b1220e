import ColumnFlow.Lineage.Write
import Mathlib.Data.List.Nodup

/-!
# The form of an edge

`Edge.WellFormed` collects what every edge obeys, whichever construct it comes from: which of its markings
exclude each other, when it has sources, which fields go together. `Sources.Proper` is the part of it that an
expression has to provide, and `Column.Proper` the part that a projected column has to provide; an edge made
from a proper column is well formed.
-/

namespace ColumnFlow

/-! ### Items by their keys -/

section

variable {α : Type} {key : α → String}

/-- Keys that have been seen only take items away. -/
theorem distinctBy_go_eq_filter (seen : List String) (items : List α) :
    distinctBy.go key seen items = (distinctBy key items).filter fun a => key a ∉ seen := by
  induction items generalizing seen with
  | nil => rfl
  | cons item rest ih =>
    have reduced : distinctBy key (item :: rest) = item :: distinctBy.go key [key item] rest := rfl
    rw [distinctBy.go, reduced, ih seen, ih (key item :: seen), ih [key item]]
    by_cases known : key item ∈ seen
    · simp only [List.contains_eq_mem, known, decide_true, if_true, not_true, decide_false, Bool.false_eq_true,
        if_false, List.filter_cons, List.filter_filter]
      refine List.filter_congr fun a _ => ?_
      by_cases same : key a = key item <;> simp [same, known]
    · simp [known, Bool.and_comm]

theorem distinctBy_cons (item : α) (rest : List α) :
    distinctBy key (item :: rest) = item :: (distinctBy key rest).filter fun a => key a ≠ key item := by
  change item :: distinctBy.go key [key item] rest = _
  simp [distinctBy_go_eq_filter]

theorem distinctBy_subset (items : List α) : distinctBy key items ⊆ items := by
  induction items with
  | nil => exact List.Subset.refl _
  | cons item rest ih =>
    rw [distinctBy_cons]
    exact List.cons_subset_cons _ (List.Subset.trans (List.filter_subset_self _) ih)

theorem distinctBy_keys_nodup (items : List α) : ((distinctBy key items).map key).Nodup := by
  induction items with
  | nil => exact List.nodup_nil
  | cons item rest ih =>
    rw [distinctBy_cons, List.map_cons, List.nodup_cons]
    exact ⟨by simp, ih.sublist (List.filter_sublist.map key)⟩

/-- Where keys differ, the item with a key is the only one. -/
theorem find?_key_iff {items : List α} (distinct : (items.map key).Nodup) (k : String) (a : α) :
    items.find? (key · == k) = some a ↔ a ∈ items ∧ key a = k := by
  constructor
  · intro found
    exact ⟨List.mem_of_find?_eq_some found, by simpa using List.find?_some found⟩
  · rintro ⟨member, rfl⟩
    have any : (items.find? (key · == key a)).isSome = true := List.find?_isSome.2 ⟨a, member, beq_self_eq_true _⟩
    obtain ⟨b, found⟩ := Option.isSome_iff_exists.1 any
    have same : key b = key a := by simpa using List.find?_some found
    rw [found, List.inj_on_of_nodup_map distinct (List.mem_of_find?_eq_some found) member same]

end

namespace SourceColumn

theorem distinct_keys_nodup (cs : List SourceColumn) : ((distinct cs).map key).Nodup := distinctBy_keys_nodup cs

theorem mem_of_mem_distinct {cs : List SourceColumn} {c : SourceColumn} (member : c ∈ distinct cs) : c ∈ cs :=
  distinctBy_subset cs member

/-- The first reference is always kept, in front. -/
theorem distinct_cons (c : SourceColumn) (cs : List SourceColumn) : ∃ rest, distinct (c :: cs) = c :: rest :=
  ⟨distinctBy.go key [key c] cs, rfl⟩

theorem distinct_singleton (c : SourceColumn) : distinct [c] = [c] := rfl

end SourceColumn

/-! ### Well-formed edges -/

namespace Edge

/-- The name of the clause of a `MERGE`, empty for other edges. -/
def mergeActionText (e : Edge) : String := (e.merge.map (·.1.text)).getD ""

/-- When that clause applies, empty for other edges. -/
def conditionText (e : Edge) : String := (e.merge.map (·.2.text)).getD ""

/-- The operator of an assignment, empty for other edges. -/
def operatorText (e : Edge) : String := (e.operator.map Symbol.text).getD ""

/-- The markings of an edge whose value is not computed from columns. -/
def markings (e : Edge) : List Bool := [e.isWildcard, e.isRemoval, e.isLiteral, e.isDynamic]

structure WellFormed (e : Edge) : Prop where
  /-- An edge has at most one marking. -/
  oneMarking : e.markings.count true ≤ 1
  /-- A marked edge reads nothing. -/
  markedEmpty : true ∈ e.markings → e.sources = []
  /-- An unmarked edge without a transformation is one column as it is. -/
  bareSingle : true ∉ e.markings → e.transform.text = "" → e.sources.length = 1
  /-- No source is listed twice. -/
  keysDistinct : (e.sources.map SourceColumn.key).Nodup
  /-- An edge for a whole table is written to the wildcard column. -/
  wholeTable : e.isWildcard = true ∨ e.isRemoval = true → e.column = wildcardColumn
  /-- Removals are the edges of deletions. -/
  removal : e.kind = .delete ↔ e.isRemoval = true
  /-- The clause of a `MERGE` and its condition go together. -/
  merge : e.mergeActionText ≠ "" ↔ e.conditionText ≠ ""
  /-- Assignments, and no other edges, have an operator. -/
  operator : e.operatorText ≠ "" ↔ e.kind = .update ∨ e.mergeActionText = MergeAction.update.text
  /-- A compound assignment reads the column it writes, before all else. -/
  compound : ∀ op, e.operator = some op → op.isCompoundAssign = true →
    ∃ first rest, e.sources = first :: rest ∧ first.column = e.column

end Edge

/-! ### What makes an edge well formed -/

theorem Symbol.text_ne_empty (s : Symbol) : s.text ≠ "" := by cases s <;> decide

theorem MergeAction.text_ne_empty (a : MergeAction) : a.text ≠ "" := by cases a <;> decide

theorem MergeAction.text_eq_update {a : MergeAction} :
    a.text = MergeAction.update.text ↔ a = .update := by cases a <;> decide

theorem MergeCondition.text_ne_empty (c : MergeCondition) : c.text ≠ "" := by cases c <;> decide

/-- What the value of an edge into a column has to obey by itself. -/
def EdgeValue.Proper (column : String) : EdgeValue → Prop
  | .computed sources transform =>
      (sources.map SourceColumn.key).Nodup ∧ (transform.text = "" → sources.length = 1)
  | .wildcard _ | .removal _ => column = wildcardColumn
  | .literal _ | .dynamic _ => True

namespace Edge

theorem mergeActionText_eq_update (e : Edge) :
    e.mergeActionText = MergeAction.update.text ↔ ∃ condition, e.merge = some (.update, condition) := by
  cases h : e.merge with
  | none => simp [mergeActionText, h]; decide
  | some pair =>
    obtain ⟨action, condition⟩ := pair
    simp [mergeActionText, h, MergeAction.text_eq_update]

theorem operatorText_ne_empty (e : Edge) : e.operatorText ≠ "" ↔ e.operator.isSome = true := by
  cases h : e.operator with
  | none => simp [operatorText, h]
  | some op => simp [operatorText, h, op.text_ne_empty]

theorem mergeText_ne_empty (e : Edge) : e.mergeActionText ≠ "" ↔ e.conditionText ≠ "" := by
  cases h : e.merge with
  | none => simp [mergeActionText, conditionText, h]
  | some pair => simp [mergeActionText, conditionText, h, pair.1.text_ne_empty, pair.2.text_ne_empty]

/-- An edge is well formed when its value is proper and kind, value, clause and operator fit together. -/
theorem wellFormed_of_proper {e : Edge} (value : e.value.Proper e.column)
    (removal : e.kind = .delete ↔ e.isRemoval = true)
    (operator : e.operator.isSome = true ↔
      e.kind = .update ∨ ∃ condition, e.merge = some (.update, condition))
    (compound : ∀ op, e.operator = some op → op.isCompoundAssign = true →
      ∃ first rest, e.sources = first :: rest ∧ first.column = e.column) : e.WellFormed where
  oneMarking := by
    cases h : e.value <;> simp [markings, isWildcard, isRemoval, isLiteral, isDynamic, h]
  markedEmpty := by
    cases h : e.value <;> simp [markings, isWildcard, isRemoval, isLiteral, isDynamic, sources, h]
  bareSingle := by
    cases h : e.value with
    | computed sources transform =>
      rw [h] at value
      simpa [markings, isWildcard, isRemoval, isLiteral, isDynamic, Edge.sources, Edge.transform, h]
        using value.2
    | _ => simp [markings, isWildcard, isRemoval, isLiteral, isDynamic, h]
  keysDistinct := by
    cases h : e.value with
    | computed sources transform =>
      rw [h] at value
      simpa [Edge.sources, h] using value.1
    | _ => simp [sources, h]
  wholeTable := by
    cases h : e.value <;> rw [h] at value <;> simp_all [isWildcard, isRemoval, EdgeValue.Proper]
  removal := removal
  merge := mergeText_ne_empty e
  operator := by rw [operatorText_ne_empty, mergeActionText_eq_update, operator]
  compound := compound

/-- Edges that neither assign nor remove are well formed when their value is proper. -/
theorem wellFormed_of_write {e : Edge} (value : e.value.Proper e.column) (kept : e.isRemoval = false)
    (kind : e.kind ≠ .delete ∧ e.kind ≠ .update) (merge : ∀ condition, e.merge ≠ some (.update, condition))
    (operator : e.operator = none) : e.WellFormed := by
  refine wellFormed_of_proper value ?_ ?_ ?_
  · simp [kind.1, kept]
  · simp [operator, kind.2, merge]
  · simp [operator]

end Edge

theorem Column.edge_kind (c : Column) (kind : StatementKind) (target : Target) (name : String) :
    (c.edge kind target name).kind = kind := by
  unfold Column.edge
  split <;> rfl

theorem Column.edge_target (c : Column) (kind : StatementKind) (target : Target) (name : String) :
    (c.edge kind target name).target = target := by
  unfold Column.edge
  split <;> rfl

end ColumnFlow
