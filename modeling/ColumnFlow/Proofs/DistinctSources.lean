import ColumnFlow.Proofs.EdgeForm
import ColumnFlow.Report.Basic
import Mathlib.Data.Finset.Card

/-!
# Counting distinct sources

Sources are reduced to the first of each key more than once: those of an edge, those of a definition, and those of all
definitions for the totals. Nothing is lost or counted twice on the way, since it makes no difference whether parts are
reduced before the whole (`distinctBy_append`).
-/

namespace ColumnFlow

section

variable {α : Type} {key : α → String}

theorem mem_keys_distinctBy (items : List α) (k : String) : k ∈ (distinctBy key items).map key ↔ k ∈ items.map key := by
  induction items with
  | nil => rfl
  | cons item rest ih =>
    rw [distinctBy_cons, List.map_cons, List.map_cons, List.mem_cons, List.mem_cons, ← ih]
    by_cases here : k = key item
    · simp [here]
    · simp only [here, false_or, List.mem_map, List.mem_filter]
      exact exists_congr fun a => ⟨.imp_left And.left, fun h => ⟨⟨h.1, by simpa [h.2] using here⟩, h.2⟩⟩

theorem distinctBy_of_nodup {items : List α} (distinct : (items.map key).Nodup) : distinctBy key items = items := by
  induction items with
  | nil => rfl
  | cons item rest ih =>
    obtain ⟨fresh, later⟩ := List.nodup_cons.1 distinct
    rw [distinctBy_cons, ih later, List.filter_eq_self.2]
    intro a member
    exact decide_eq_true fun same => fresh (same ▸ List.mem_map_of_mem member)

theorem distinctBy_distinctBy (items : List α) : distinctBy key (distinctBy key items) = distinctBy key items :=
  distinctBy_of_nodup (distinctBy_keys_nodup items)

/-- Of the second part those items are left whose keys the first part does not have. -/
theorem distinctBy_append_eq (xs ys : List α) :
    distinctBy key (xs ++ ys) = distinctBy key xs ++ (distinctBy key ys).filter fun a => key a ∉ xs.map key := by
  induction xs with
  | nil => simp [distinctBy, distinctBy.go]
  | cons x rest ih =>
    simp only [List.cons_append, distinctBy_cons, ih, List.filter_append, List.filter_filter, List.map_cons, List.mem_cons,
      not_or, Bool.decide_and]

/-- Parts may be reduced before the whole. -/
theorem distinctBy_append (xs ys : List α) :
    distinctBy key (xs ++ ys) = distinctBy key (distinctBy key xs ++ distinctBy key ys) := by
  rw [distinctBy_append_eq, distinctBy_append_eq, distinctBy_distinctBy, distinctBy_distinctBy]
  simp only [mem_keys_distinctBy]

theorem distinctBy_flatMap {β : Type} (parts : List β) (f : β → List α) :
    distinctBy key (parts.flatMap fun b => distinctBy key (f b)) = distinctBy key (parts.flatMap f) := by
  induction parts with
  | nil => rfl
  | cons b rest ih =>
    rw [List.flatMap_cons, List.flatMap_cons, distinctBy_append, distinctBy_distinctBy, ih, ← distinctBy_append]

/-- An item is kept if no item before it has its key. -/
theorem distinctBy_eq_firsts (items : List α) :
    distinctBy key items = (items.zipIdx.filter fun p => key p.1 ∉ (items.take p.2).map key).map Prod.fst := by
  induction items using List.reverseRecOn with
  | nil => rfl
  | append_singleton items last ih =>
    have before : items.zipIdx.filter (fun p => key p.1 ∉ ((items ++ [last]).take p.2).map key) =
        items.zipIdx.filter fun p => key p.1 ∉ (items.take p.2).map key := by
      refine List.filter_congr fun p member => ?_
      have inside : p.2 < items.length := by simpa using (List.mem_zipIdx member).2.1
      rw [List.take_append_of_le_length inside.le]
    have alone : distinctBy key [last] = [last] := rfl
    rw [distinctBy_append_eq, alone, List.zipIdx_append, List.filter_append, before, List.map_append, ← ih]
    by_cases known : key last ∈ items.map key <;> simp [known, -List.mem_map]

end

open SourceColumn (distinct key)

theorem SourceColumn.length_distinct (cs : List SourceColumn) : (distinct cs).length = (cs.map key).toFinset.card := by
  have members : (cs.map key).toFinset = ((distinct cs).map key).toFinset := by
    ext k
    rw [List.mem_toFinset, List.mem_toFinset]
    exact (mem_keys_distinctBy cs k).symm
  rw [members, List.toFinset_card_of_nodup (distinct_keys_nodup cs), List.length_map]

/-- The reduced list holds exactly the references before which no other has the same key, in their order. Reducing
again changes nothing, and neither does reducing the parts of a list first. So the total of a report is the number of
different keys among all sources of all edges. -/
theorem distinct_sources_counted (cs ds : List SourceColumn) (paths : List String) (ls : List Lineage) :
    distinct cs = (cs.zipIdx.filter fun p => key p.1 ∉ (cs.take p.2).map key).map Prod.fst ∧
      distinct (distinct cs) = distinct cs ∧
      distinct (cs ++ ds) = distinct (distinct cs ++ distinct ds) ∧
      (Report.ofLineages paths ls).summary.distinctSources =
        (((ls.flatMap (·.edges)).flatMap (·.sources)).map key).toFinset.card := by
  have total : distinct (ls.flatMap (·.distinctSources)) = distinct ((ls.flatMap (·.edges)).flatMap (·.sources)) := by
    rw [List.flatMap_assoc]
    exact distinctBy_flatMap ls fun l => l.edges.flatMap (·.sources)
  refine ⟨distinctBy_eq_firsts cs, distinctBy_distinctBy cs, distinctBy_append cs ds, ?_⟩
  rw [← SourceColumn.length_distinct, ← total]
  rfl

end ColumnFlow
