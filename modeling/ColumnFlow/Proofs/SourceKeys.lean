import ColumnFlow.Proofs.DistinctSources
import ColumnFlow.Proofs.FoldedNames

/-!
# Keys of source columns

The key of a column of a plain table joins the parts of its name with dots and folds them. Parts with dots in them
may be joined to the same key, and so may a database without a schema and a schema. There are no other clashes: the
parts of a key are those between its dots, since folding makes no dots.
-/

namespace ColumnFlow

namespace Text

theorem fold_intercalate (parts : List String) : fold (".".intercalate parts) = ".".intercalate (parts.map fold) := by
  have dot : fold "." = "." := by decide +kernel
  induction parts with
  | nil => rfl
  | cons part rest ih =>
    cases rest with
    | nil => simp
    | cons next rest =>
      rw [String.intercalate_cons_cons, fold_append, fold_append, dot, ih, List.map_cons, List.map_cons,
        List.map_cons, String.intercalate_cons_cons]

theorem dot_notMem_fold {s : String} (absent : '.' ∉ s.toList) : '.' ∉ (fold s).toList := by
  rw [fold, String.toList_ofList, List.mem_flatMap]
  rintro ⟨c, member, dot⟩
  exact absent (IsMark.eq_of_mem_fullFold ⟨by decide, by decide⟩ dot ▸ member)

theorem fold_eq_empty_iff (s : String) : fold s = "" ↔ s = "" := by
  rw [← String.toList_eq_nil_iff, ← String.toList_eq_nil_iff, fold, String.toList_ofList, List.flatMap_eq_nil_iff]
  refine ⟨fun none => List.eq_nil_iff_forall_not_mem.2 fun c member => ?_, fun none => by simp [none]⟩
  exact fullFold_ne_nil c (none c member)

/-- What stands between dots is known. -/
theorem intercalate_dot_inj {parts parts' : List String} (some : parts ≠ []) (some' : parts' ≠ [])
    (absent : ∀ p ∈ parts, '.' ∉ p.toList) (absent' : ∀ p ∈ parts', '.' ∉ p.toList) :
    ".".intercalate parts = ".".intercalate parts' ↔ parts = parts' := by
  refine ⟨fun same => ?_, congrArg _⟩
  have chars : ['.'].intercalate (parts.map String.toList) = ['.'].intercalate (parts'.map String.toList) := by
    simpa [String.toList_intercalate] using congrArg String.toList same
  have cut := congrArg (List.splitOn '.') chars
  rw [List.splitOn_intercalate, List.splitOn_intercalate] at cut
  · exact List.map_injective_iff.2 (fun a b => String.toList_inj.1) cut
  all_goals simpa

end Text

namespace SourceColumn

/-- A column that was found in a plain table. -/
@[mk_iff] structure IsPlain (c : SourceColumn) : Prop where
  kind : c.kind = some .plain
  resolved : c.table ≠ ""

/-- What names the column, from the database on. -/
def parts (c : SourceColumn) : List String := [c.database, c.schema, c.table, c.column]

/-- No part has a dot in it. -/
abbrev Dotless (c : SourceColumn) : Prop := ∀ part ∈ c.parts, '.' ∉ part.toList

/-- The columns have the same parts up to case. -/
abbrev Same (a b : SourceColumn) : Prop := a.parts.map Text.fold = b.parts.map Text.fold

/-- One column is named by its database without a schema, the other by a schema of that name without a database. -/
abbrev Crosses (a b : SourceColumn) : Prop :=
  a.schema = "" ∧ b.database = "" ∧ a.database ≠ "" ∧
    [a.database, a.table, a.column].map Text.fold = [b.schema, b.table, b.column].map Text.fold

variable {a b : SourceColumn}

/-- What a key joins. -/
def keyParts (c : SourceColumn) : List String :=
  ([c.database, c.schema].map Text.fold).filter (· != "") ++ [c.table, c.column].map Text.fold

theorem IsPlain.key_eq (plain : a.IsPlain) : a.key = ".".intercalate a.keyParts := by
  have resolved : a.isResolved = true := by simpa [isResolved] using plain.resolved
  have kept : (· != "") ∘ Text.fold = (· != "") := by
    funext s
    simp [bne, Text.fold_eq_empty_iff]
  rw [keyParts, List.filter_map, kept, ← List.map_append, ← Text.fold_intercalate]
  simp [key, qualifiedName, qualifiers, plain.kind, resolved]

/-- The parts that are left out cannot be told from the one that stays. -/
theorem filter_ne_empty_eq_iff (d s d' s' : String) : [d, s].filter (· != "") = [d', s'].filter (· != "") ↔
    (d = d' ∧ s = s') ∨ (s = "" ∧ d' = "" ∧ d ≠ "" ∧ d = s') ∨ (s' = "" ∧ d = "" ∧ d' ≠ "" ∧ d' = s) := by
  simp only [List.filter_cons, List.filter_nil, bne_iff_ne]
  split <;> split <;> split <;> split <;> grind

/-- The clashes of keys. -/
theorem key_eq_iff (plain : a.IsPlain) (plain' : b.IsPlain) (dotless : a.Dotless) (dotless' : b.Dotless) :
    a.key = b.key ↔ a.Same b ∨ a.Crosses b ∨ b.Crosses a := by
  have absent {c : SourceColumn} (dotless : c.Dotless) : ∀ p ∈ c.keyParts, '.' ∉ p.toList := by
    intro p member
    have kept : p ∈ c.parts.map Text.fold := (List.filter_sublist.append_right _).subset member
    obtain ⟨part, found, rfl⟩ := List.mem_map.1 kept
    exact Text.dot_notMem_fold (dotless part found)
  have ends {xs ys : List String} {t c t' c' : String} : xs ++ [t, c] = ys ++ [t', c'] ↔ xs = ys ∧ t = t' ∧ c = c' := by
    refine ⟨fun same => ?_, by rintro ⟨rfl, rfl, rfl⟩; rfl⟩
    obtain ⟨fronts, backs⟩ := List.append_inj' same rfl
    exact ⟨fronts, by simpa using backs⟩
  rw [plain.key_eq, plain'.key_eq, Text.intercalate_dot_inj (by simp [keyParts]) (by simp [keyParts]) (absent dotless)
    (absent dotless')]
  simp only [keyParts, List.map_cons, List.map_nil, ends, filter_ne_empty_eq_iff, ne_eq, Text.fold_eq_empty_iff, Same,
    Crosses, parts, List.cons.injEq, and_true, or_and_right, and_assoc]
  grind

end SourceColumn

/-- Among columns of plain tables whose names have no dots in them, two have the same key if they have the same parts up
to case, or if one of them has a database without a schema and the other a schema of that name. Where the latter does not
happen to a column, it is still there among the distinct ones. -/
theorem source_keys_merge_same {cs : List SourceColumn} (plain : ∀ c ∈ cs, c.IsPlain) (dotless : ∀ c ∈ cs, c.Dotless) :
    (∀ a ∈ cs, ∀ b ∈ cs, a.key = b.key ↔ a.Same b ∨ a.Crosses b ∨ b.Crosses a) ∧
      ∀ a ∈ cs, (∀ b ∈ cs, ¬a.Crosses b ∧ ¬b.Crosses a) → ∃ b ∈ SourceColumn.distinct cs, a.Same b := by
  have keys {a b : SourceColumn} (left : a ∈ cs) (right : b ∈ cs) :=
    SourceColumn.key_eq_iff (plain a left) (plain b right) (dotless a left) (dotless b right)
  refine ⟨fun a left b right => keys left right, fun a left apart => ?_⟩
  have kept : a.key ∈ (SourceColumn.distinct cs).map (·.key) := (mem_keys_distinctBy cs _).2 (List.mem_map_of_mem left)
  obtain ⟨b, member, same⟩ := List.mem_map.1 kept
  have right := SourceColumn.mem_of_mem_distinct member
  refine ⟨b, member, ((keys left right).1 same.symm).resolve_right ?_⟩
  exact not_or.2 (apart b right)

/-- Two spellings of one column and a column of another schema. -/
theorem source_keys_merge_spellings :
    let spelled (schema table column : String) : SourceColumn := { column, schema, table, kind := some .plain }
    let cs := [spelled "dbo" "Orders" "Id", spelled "DBO" "ORDERS" "id", spelled "sales" "Orders" "Id"]
    (spelled "DBO" "ORDERS" "id").key = (spelled "dbo" "Orders" "Id").key ∧
      ∃ b ∈ SourceColumn.distinct cs, (spelled "sales" "Orders" "Id").Same b := by
  intro spelled cs
  have plain : ∀ c ∈ cs, c.IsPlain := by simp [cs, spelled, SourceColumn.isPlain_iff]
  obtain ⟨keys, kept⟩ := source_keys_merge_same plain (by decide +kernel)
  exact ⟨(keys _ (by simp [cs]) _ (by simp [cs])).2 (.inl (by decide +kernel)), kept _ (by simp [cs]) (by decide +kernel)⟩

/-- A dot in a name may be taken for one between names, and a database without a schema for a schema. -/
theorem source_keys_merge_different :
    let dotted : SourceColumn := { column := "d", schema := "a", table := "b.c", kind := some .plain }
    let shifted : SourceColumn := { column := "d", schema := "a.b", table := "c", kind := some .plain }
    let database : SourceColumn := { column := "d", database := "a", table := "b", kind := some .plain }
    let schema : SourceColumn := { column := "d", schema := "a", table := "b", kind := some .plain }
    (dotted.key = shifted.key ∧ ¬dotted.Same shifted ∧ SourceColumn.distinct [dotted, shifted] = [dotted]) ∧
      database.key = schema.key ∧ ¬database.Same schema ∧ SourceColumn.distinct [database, schema] = [database] := by
  decide +kernel

end ColumnFlow
