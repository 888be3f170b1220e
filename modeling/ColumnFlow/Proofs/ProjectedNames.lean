import ColumnFlow.Lineage.Query
import ColumnFlow.Proofs.FoldedNames
import Mathlib.Data.List.Forall2
import Mathlib.Data.List.Nodup

/-!
# Positions and names of a select list

A select list is projected item by item, and then the names of the columns are made distinct. `SelectItem.Projects`
says what one item gives, and `Column.Renamed` how a column differs from what it was before its name was numbered. Names
are numbered until one is free. The numbered names of one name all have different keys, so fewer keys are taken than
there are names, and the search ends (`freeName_spec`).
-/

namespace ColumnFlow

open Text (fold)

/-! ### Numbered names -/

namespace Text

theorem fullFold_of_isDigit {c : Char} (digit : c.isDigit = true) : fullFold c = [c] := by
  have range : 48 ≤ c.toNat ∧ c.toNat ≤ 57 := by simpa [Char.isDigit, UInt32.le_iff_toNat_le] using digit
  have ascii : ∀ code, 48 ≤ code → code < 58 → fullFold (Char.ofNat code) = [Char.ofNat code] := by decide +kernel
  have checked := ascii c.toNat range.1 (Nat.lt_succ_of_le range.2)
  rwa [Char.ofNat_toNat] at checked

/-- A number is its own key. -/
theorem fold_toString (n : Nat) : fold (toString n) = toString n := by
  rw [Nat.toString_eq_ofList_toDigits, fold, String.toList_ofList]
  refine congrArg String.ofList ?_
  have digits : ∀ c ∈ Nat.toDigits 10 n, fullFold c = [c] := fun c member =>
    fullFold_of_isDigit (Nat.isDigit_of_mem_toDigits (by decide) (by decide) member)
  rw [List.flatMap_congr digits, List.flatMap_singleton']

end Text

namespace Column

/-- The names that are tried in turn: `base`, `base_2`, `base_3`, ... -/
def numbered (base : String) : Nat → String
  | 0 => base
  | i + 1 => base ++ "_" ++ toString (i + 2)

theorem fold_numbered_succ (base : String) (i : Nat) :
    fold (numbered base (i + 1)) = fold base ++ ("_" ++ toString (i + 2)) := by
  have mark : fold "_" = "_" := by decide +kernel
  rw [numbered, Text.fold_append, Text.fold_append, mark, Text.fold_toString, String.append_assoc]

/-- No two of them have the same key. -/
theorem fold_numbered_injective (base : String) : Function.Injective fun i => fold (numbered base i) := by
  have apart (i : Nat) : fold base ≠ fold (numbered base (i + 1)) := by
    intro same
    rw [fold_numbered_succ] at same
    have longer := congrArg String.length same
    simp only [String.length_append] at longer
    have mark : "_".length = 1 := rfl
    omega
  intro i j same
  match i, j with
  | 0, 0 => rfl
  | 0, j + 1 => exact absurd same (apart j)
  | i + 1, 0 => exact absurd same.symm (apart i)
  | i + 1, j + 1 =>
    simp only [fold_numbered_succ, String.append_right_inj] at same
    rw [Nat.toString_eq_ofList_toDigits, Nat.toString_eq_ofList_toDigits, String.ofList_inj] at same
    have number := congrArg (Nat.ofDigitChars 10 · 0) same
    simp only [Nat.ofDigitChars_ten_toDigits] at number
    omega

/-! ### The search for a free name -/

/-- A search over `n` names from the `i`-th on passes over those that are taken. -/
theorem freeName_go (taken : List String) (base : String) (n i : Nat) : ∃ j, i ≤ j ∧ j ≤ i + n ∧
    freeName.go taken base n (numbered base i) (i + 2) = numbered base j ∧
    (∀ m, i ≤ m → m < j → fold (numbered base m) ∈ taken) ∧
    (j < i + n → fold (numbered base j) ∉ taken) := by
  induction n generalizing i with
  | zero => exact ⟨i, Nat.le_refl i, Nat.le_refl i, rfl, by omega, by omega⟩
  | succ n ih =>
    rw [freeName.go]
    by_cases used : fold (numbered base i) ∈ taken
    · obtain ⟨j, le, bound, found, before, free⟩ := ih (i + 1)
      refine ⟨j, by omega, by omega, ?_, fun m least less => ?_, fun less => free (by omega)⟩
      · rw [if_pos (List.contains_iff_mem.2 used)]
        exact found
      · rcases Nat.eq_or_lt_of_le least with rfl | later
        · exact used
        · exact before m later less
    · refine ⟨i, Nat.le_refl i, by omega, ?_, by omega, fun _ => used⟩
      rw [if_neg (by simpa using used)]

/-- The first of the numbered names whose key is free is found, whatever is taken. -/
theorem freeName_spec (taken : List String) (base : String) : ∃ j ≤ taken.length,
    freeName taken base = numbered base j ∧ fold (numbered base j) ∉ taken ∧
      ∀ m < j, fold (numbered base m) ∈ taken := by
  obtain ⟨j, -, bound, found, before, free⟩ := freeName_go taken base taken.length 0
  rw [Nat.zero_add] at bound free
  refine ⟨j, bound, found, fun used => ?_, fun m => before m (Nat.zero_le m)⟩
  rcases Nat.eq_or_lt_of_le bound with last | less
  · -- One key more than there are keys that are taken would be among them.
    have keys : ((List.range (j + 1)).map fun i => fold (numbered base i)).Nodup :=
      List.Nodup.map (fold_numbered_injective base) List.nodup_range
    have inside : ((List.range (j + 1)).map fun i => fold (numbered base i)) ⊆ taken := by
      intro key member
      obtain ⟨m, within, rfl⟩ := List.mem_map.1 member
      rcases Nat.eq_or_lt_of_le (Nat.le_of_lt_succ (List.mem_range.1 within)) with rfl | earlier
      · exact used
      · exact before m (Nat.zero_le m) earlier
    have count := keys.length_le_of_subset inside
    rw [List.length_map, List.length_range] at count
    omega
  · exact free less used

/-! ### Distinct names -/

/-- The second column is the first one, under a number if its name is derived. -/
structure Renamed (c d : Column) : Prop where
  value : d.value = c.value
  isAlias : d.isAlias = c.isAlias
  line : d.line = c.line
  name : d.name = c.name ∨ c.isAlias = false ∧ c.isWildcard = false ∧ ∃ i, d.name = numbered c.name (i + 1)

theorem Renamed.refl (c : Column) : c.Renamed c := ⟨rfl, rfl, rfl, .inl rfl⟩

/-- Two columns with the same key, neither of which stands for unknown ones, are both named by an alias. -/
def Apart (c d : Column) : Prop :=
  c.isWildcard = false → d.isWildcard = false → fold c.name = fold d.name → c.isAlias = true ∧ d.isAlias = true

/-- A column that keeps to the names that are taken: an alias is one of `aliases`, the key of a derived name is free. -/
structure Keeps (aliases taken : List String) (d : Column) : Prop where
  alias_mem : d.isAlias = true → fold d.name ∈ aliases
  derived_free : d.isAlias = false → d.isWildcard = false → fold d.name ∉ taken

/-- Where all aliases are taken from the start, names keep apart from what is taken and from each other. -/
theorem uniqueNames_go {aliases : List String} (cs : List Column) (taken : List String) (within : aliases ⊆ taken)
    (known : ∀ c ∈ cs, c.isAlias = true → fold c.name ∈ aliases) :
    List.Forall₂ Renamed cs (uniqueNames.go taken cs) ∧ (∀ d ∈ uniqueNames.go taken cs, d.Keeps aliases taken) ∧
      (uniqueNames.go taken cs).Pairwise Apart := by
  induction cs generalizing taken with
  | nil => exact ⟨.nil, by simp [uniqueNames.go], .nil⟩
  | cons c rest ih =>
    obtain ⟨first, later⟩ := List.forall_mem_cons.1 known
    rw [uniqueNames.go]
    by_cases kept : (c.isAlias || c.isWildcard) = true
    · obtain ⟨renamed, keeps, apart⟩ := ih taken within later
      rw [if_pos kept]
      refine ⟨.cons (.refl c) renamed, List.forall_mem_cons.2 ⟨⟨first, fun derived shown => ?_⟩, keeps⟩,
        .cons (fun d member shown shown' same => ?_) apart⟩
      · rw [derived, shown] at kept
        cases kept
      · have isAlias : c.isAlias = true := by simpa [shown] using kept
        refine ⟨isAlias, Bool.of_not_eq_false fun derived => (keeps d member).derived_free derived shown' ?_⟩
        exact same ▸ within (first isAlias)
    · obtain ⟨j, -, name, free, -⟩ := freeName_spec taken c.name
      rw [← name] at free
      obtain ⟨derived, shown⟩ : c.isAlias = false ∧ c.isWildcard = false := by simpa using kept
      obtain ⟨renamed, keeps, apart⟩ :=
        ih (fold (freeName taken c.name) :: taken) (List.subset_cons_of_subset _ within) later
      rw [if_neg kept]
      refine ⟨.cons ⟨rfl, rfl, rfl, ?_⟩ renamed, List.forall_mem_cons.2 ⟨⟨?_, fun _ _ => free⟩, fun d member => ?_⟩,
        .cons (fun d member _ shown' same => ?_) apart⟩
      · cases j with
        | zero => exact .inl name
        | succ j => exact .inr ⟨derived, shown, j, name⟩
      · exact fun isAlias => absurd isAlias (Bool.eq_false_iff.1 derived)
      · refine ⟨(keeps d member).alias_mem, fun derived shown used => ?_⟩
        exact (keeps d member).derived_free derived shown (List.mem_cons_of_mem _ used)
      · -- Neither a derived name that comes later nor an alias is the one that was free.
        cases isAlias : d.isAlias with
        | false => exact absurd (same ▸ List.mem_cons_self) ((keeps d member).derived_free isAlias shown')
        | true => exact absurd (same ▸ within ((keeps d member).alias_mem isAlias)) free

theorem uniqueNames_spec (cs : List Column) :
    List.Forall₂ Renamed cs (uniqueNames cs) ∧ (uniqueNames cs).Pairwise Apart := by
  obtain ⟨renamed, -, apart⟩ := uniqueNames_go cs _ (List.Subset.refl _) fun c member isAlias =>
    List.mem_map_of_mem (f := fun c : Column => fold c.name) (List.mem_filter.2 ⟨member, isAlias⟩)
  exact ⟨renamed, apart⟩

/-! ### Stars -/

/-- The column of a table that a star stands for. -/
def ofTable (b : Binding) (line : Nat) (name : String) : Column :=
  { name, value := .reads { columns := [b.read name], transform := .bare }, line }

/-- A star is expanded when the columns of all tables are known, and not otherwise. -/
theorem mapM_columns (tables : List Binding) :
    (∀ b ∈ tables, b.columns.isSome = true) ∧ tables.mapM (·.columns) = some (tables.map (·.columns.getD [])) ∨
      (∃ b ∈ tables, b.columns = none) ∧ tables.mapM (·.columns) = none := by
  induction tables with
  | nil => exact .inl ⟨nofun, rfl⟩
  | cons b rest ih =>
    rw [List.mapM_cons]
    cases found : b.columns with
    | none => exact .inr ⟨⟨b, List.mem_cons_self, found⟩, rfl⟩
    | some columns =>
      obtain ⟨known, lists⟩ | ⟨⟨c, member, absent⟩, lists⟩ := ih
      · exact .inl ⟨List.forall_mem_cons.2 ⟨by simp [found], known⟩, by simp [lists, found]⟩
      · exact .inr ⟨⟨c, List.mem_cons_of_mem b member, absent⟩, by simp [lists]⟩

/-- A star stands for the columns of all its tables where all are known, else for itself. -/
theorem expand_cases (tables : List Binding) (qualifier : String) (line : Nat) :
    (tables ≠ [] ∧ (∀ b ∈ tables, b.columns.isSome = true) ∧
      expand tables qualifier line = tables.flatMap fun b => (b.columns.getD []).map (ofTable b line)) ∨
    (tables = [] ∨ ∃ b ∈ tables, b.columns = none) ∧
      expand tables qualifier line = [{ name := wildcardColumn, value := .wildcard qualifier, line }] := by
  cases tables with
  | nil => exact .inr ⟨.inl rfl, rfl⟩
  | cons b rest =>
    unfold expand
    obtain ⟨known, lists⟩ | ⟨unknown, lists⟩ := mapM_columns (b :: rest)
    · refine .inl ⟨List.cons_ne_nil b rest, known, ?_⟩
      have pairs := List.zip_map' (l := b :: rest) (f := id) (g := fun b => b.columns.getD [])
      rw [List.map_id] at pairs
      rw [lists]
      dsimp only
      rw [pairs, List.flatMap_map]
      rfl
    · exact .inr ⟨.inr unknown, by rw [lists]⟩

end Column

/-! ### Select items -/

namespace SelectItem

/-- The tables that a star covers, in the order in which they were bound, with the name and the line of the star. -/
inductive Covers (s : Scope) : SelectItem → List Binding → String → Nat → Prop
  | star (span) : Covers s (.star span) s.level.tables "" span.start.line
  | tableStar (span qualifier) : Covers s (.tableStar span qualifier)
      (s.lookup (fold (Column.lastPart qualifier))).toList (Column.lastPart qualifier) span.start.line

/-- What an item at a position of a select list gives. -/
inductive Projects (env : Env) (s : Scope) (position : Nat) : SelectItem → List Column → Prop
  | assign (span variableName value) : Projects env s position (.assign span variableName value) []
  | value (span value aliasName) : Projects env s position (.value span value aliasName)
      [{ name := if aliasName = "" then value.columnName position else aliasName, isAlias := aliasName != ""
         value := .reads (exprSources env value s).value, line := span.start.line }]
  | known {item tables qualifier line} : item.Covers s tables qualifier line → tables ≠ [] →
      (∀ b ∈ tables, b.columns.isSome = true) →
      Projects env s position item (tables.flatMap fun b => (b.columns.getD []).map (Column.ofTable b line))
  | unknown {item tables qualifier line} : item.Covers s tables qualifier line →
      (tables = [] ∨ ∃ b ∈ tables, b.columns = none) →
      Projects env s position item [{ name := wildcardColumn, value := .wildcard qualifier, line }]

variable {env : Env} {s : Scope}

theorem Covers.projects {item : SelectItem} {tables : List Binding} {qualifier : String} {line : Nat}
    (covers : item.Covers s tables qualifier line) (position : Nat) :
    item.Projects env s position (Column.expand tables qualifier line) := by
  obtain ⟨any, known, columns⟩ | ⟨unknown, columns⟩ := Column.expand_cases tables qualifier line
  · exact columns ▸ .known covers any known
  · exact columns ▸ .unknown covers unknown

theorem projects (item : SelectItem) (position : Nat) :
    item.Projects env s position (itemColumn env item position s).value := by
  cases item with
  | star span => exact (Covers.star span).projects position
  | tableStar span qualifier => exact (Covers.tableStar span qualifier).projects position
  | assign span variableName value => exact .assign span variableName value
  | value span value aliasName =>
    have name : (if aliasName = "" then value.columnName position else aliasName) =
        if aliasName == "" then value.columnName position else aliasName := by simp
    have single : Projects env s position _ _ := .value span value aliasName
    rw [name] at single
    rw [itemColumn]
    exact single

end SelectItem

/-- By induction on the items, each of which gives a group of columns. -/
theorem itemColumns_groups (env : Env) (s : Scope) (items : List SelectItem) (position : Nat) :
    ∃ groups, List.Forall₂ (fun item group => item.1.Projects env s item.2 group) (items.zipIdx position) groups ∧
      (itemColumns env items position s).value = groups.flatten := by
  induction items generalizing position with
  | nil => exact ⟨[], .nil, rfl⟩
  | cons item rest ih =>
    obtain ⟨groups, each, whole⟩ := ih (position + 1)
    refine ⟨(itemColumn env item position s).value :: groups, .cons (item.projects position) each, ?_⟩
    rw [List.flatten_cons, ← whole]
    rfl

/-- A select list is projected item by item, in order, and what its columns read is not touched by numbering their names.
Two columns with the same key are both named by an alias, as it is written. The search for a name ends, whatever is
taken. -/
theorem projection_keeps_positions (env : Env) (items : List SelectItem) (s : Scope) :
    (∃ groups, List.Forall₂ (fun item group => item.1.Projects env s item.2 group) (items.zipIdx 1) groups ∧
        List.Forall₂ Column.Renamed groups.flatten (Column.uniqueNames (itemColumns env items 1 s).value)) ∧
      (Column.uniqueNames (itemColumns env items 1 s).value).Pairwise Column.Apart ∧
      (∀ taken base, ∃ j ≤ taken.length, Column.freeName taken base = Column.numbered base j ∧
        Text.fold (Column.numbered base j) ∉ taken ∧ ∀ m < j, Text.fold (Column.numbered base m) ∈ taken) ∧
      ∀ core outer, (coreColumns env core outer).value =
        Column.uniqueNames (itemColumns env core.columns 1 (bindSource? env core.source outer.child).value).value := by
  obtain ⟨groups, each, whole⟩ := itemColumns_groups env s items 1
  obtain ⟨renamed, apart⟩ := Column.uniqueNames_spec (itemColumns env items 1 s).value
  refine ⟨⟨groups, each, whole ▸ renamed⟩, apart, Column.freeName_spec, fun core outer => ?_⟩
  cases core
  rw [coreColumns]
  rfl

end ColumnFlow
