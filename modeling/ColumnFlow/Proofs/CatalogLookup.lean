import ColumnFlow.Catalog
import ColumnFlow.Proofs.EdgeForm
import ColumnFlow.Proofs.Reachability

/-!
# Looking up tables of a catalog

A schema file is a map, so its entries come in any order, and no two of them have the same schema and table as they are
written. Their keys may be the same nevertheless. A catalog is made exactly when they are not, and then the key of a table
finds its entry wherever it stands.
-/

namespace ColumnFlow

namespace Catalog

theorem duplicate?_eq_none_iff (entries : List CatalogEntry) :
    duplicate? entries = none ↔ (entries.map (·.key)).Nodup := by
  induction entries with
  | nil => simp [duplicate?]
  | cons e rest ih =>
    rw [duplicate?, List.map_cons, List.nodup_cons, ← ih]
    cases found : rest.find? (·.key == e.key) with
    | some other =>
      have same : other.key = e.key := by simpa using List.find?_some found
      have member : e.key ∈ rest.map (·.key) := List.mem_map.2 ⟨other, List.mem_of_find?_eq_some found, same⟩
      simp [member]
    | none => simpa using fun _ e' member => by simpa using List.find?_eq_none.1 found e' member

/-- Keys differ if no two different entries have the same one. -/
theorem keys_nodup_iff {entries : List CatalogEntry} (distinct : entries.Nodup) :
    (entries.map (·.key)).Nodup ↔ ¬∃ a ∈ entries, ∃ b ∈ entries, a ≠ b ∧ a.key = b.key := by
  rw [List.nodup_map_iff_inj_on distinct]
  constructor
  · rintro apart ⟨a, memberA, b, memberB, ne, same⟩
    exact ne (apart a memberA b memberB same)
  · intro none a memberA b memberB same
    exact by_contra fun ne => none ⟨a, memberA, b, memberB, ne, same⟩

end Catalog

/-- A schema file lists tables whose names as written differ. In whatever order its entries come, no catalog is made of it
exactly if two different entries have the same key. A catalog that is made finds exactly the entry with the key of the
name, where the default schema stands for a missing one, and lists each entry once in order. -/
theorem catalog_lookup_exact (file : SchemaFile) (fallback : String)
    (decoded : (file.entries.map fun e => (e.schema, e.table)).Nodup) {entries : List CatalogEntry}
    (order : entries.Perm file.entries) :
    ((∃ e, Catalog.ofFile { file with entries } fallback = .error e) ↔
        ∃ a ∈ file.entries, ∃ b ∈ file.entries, a ≠ b ∧ a.key = b.key) ∧
      ∀ c, Catalog.ofFile { file with entries } fallback = .ok c →
        c.defaultSchema = (if file.defaultSchema ≠ "" then file.defaultSchema
          else if fallback ≠ "" then fallback else "dbo") ∧
        (∀ schema table columns, c.columns? schema table = some columns ↔ ∃ e ∈ file.entries,
          e.key = Text.fold ((if schema = "" then c.defaultSchema else schema) ++ "." ++ table) ∧ e.columns = columns) ∧
        c.tables.Pairwise (· < ·) ∧ c.tables.Perm (file.entries.map (·.qualifiedName)) := by
  have clash := (Catalog.duplicate?_eq_none_iff entries).trans ((order.map _).nodup_iff.trans
    (Catalog.keys_nodup_iff (List.Nodup.of_map _ decoded)))
  cases found : Catalog.duplicate? entries with
  | some other =>
    simp only [found, reduceCtorEq, false_iff, not_not] at clash
    simp [Catalog.ofFile, found, clash]
  | none =>
    have keys := (Catalog.duplicate?_eq_none_iff entries).1 found
    simp only [found, true_iff] at clash
    refine ⟨by simp [Catalog.ofFile, found, clash], fun c made => ?_⟩
    simp only [Catalog.ofFile, found] at made
    cases made
    refine ⟨by simp, fun schema table columns => ?_, ?_, ?_⟩
    · simp only [Catalog.columns?, Option.map_eq_some_iff, find?_key_iff keys, order.mem_iff, beq_iff_eq, and_assoc]
    · have names : (entries.map (·.key)) = (entries.map (·.qualifiedName)).map Text.fold := by
        rw [List.map_map]
        rfl
      exact sortTexts_increasing (List.Nodup.of_map Text.fold (names ▸ keys))
    · exact (List.mergeSort_perm _ _).trans (order.map _)

/-- A table that two schemas have, and a second spelling of one of them. -/
theorem catalog_lookup_spellings :
    let plain : CatalogEntry := ⟨"dbo", "Orders", ["Id"]⟩
    let sales : CatalogEntry := ⟨"Sales", "Orders", ["Id", "Total"]⟩
    let loud : CatalogEntry := ⟨"DBO", "ORDERS", ["ID"]⟩
    (∃ c, Catalog.ofFile { entries := [sales, plain] } "" = .ok c ∧ c.columns? "" "ORDERS" = some ["Id"]) ∧
      ∃ e, Catalog.ofFile { entries := [loud, sales, plain] } "" = .error e := by
  intro plain sales loud
  obtain ⟨fails, finds⟩ :=
    catalog_lookup_exact { entries := [plain, sales] } "" (by decide) (List.reverse_perm [plain, sales])
  obtain ⟨clashes, -⟩ :=
    catalog_lookup_exact { entries := [plain, sales, loud] } "" (by decide) (List.reverse_perm [plain, sales, loud])
  refine ⟨?_, clashes.2 ⟨plain, by simp, loud, by simp, by decide, by decide +kernel⟩⟩
  cases made : Catalog.ofFile { entries := [sales, plain] } "" with
  | error e => exact absurd (fails.1 ⟨e, made⟩) (by decide +kernel)
  | ok c =>
    obtain ⟨schema, columns, -⟩ := finds c made
    exact ⟨c, rfl, (columns "" "ORDERS" ["Id"]).2 ⟨plain, by simp, by rw [schema]; decide +kernel, rfl⟩⟩

end ColumnFlow
