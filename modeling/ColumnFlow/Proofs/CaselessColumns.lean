import ColumnFlow.Proofs.CaselessScope

/-!
# Columns, edges and events up to case

What is done with columns on their way from a query to edges commutes with writing them in small letters: naming,
renaming, merging and expanding stars. Names are numbered apart by their folded keys, so alike columns get alike
names. Environments are alike when they know alike tables under the same keys.
-/

namespace ColumnFlow

/-! ### Transformations and edges -/

def Transform.toCaseless : Transform → Transform
  | .named text => .named (caseless text)
  | other => other

instance : Caseless Transform where
  caseless := Transform.toCaseless
  caseless_caseless t := by cases t <;> simp [Transform.toCaseless]

instance : Caseless Target where
  caseless t := { schema := caseless t.schema, table := caseless t.table }
  caseless_caseless _ := by simp

def EdgeValue.toCaseless : EdgeValue → EdgeValue
  | .computed sources transform => .computed (caseless sources) (caseless transform)
  | .wildcard qualifier => .wildcard (caseless qualifier)
  | .literal transform => .literal (caseless transform)
  | .dynamic transform => .dynamic (caseless transform)
  | .removal transform => .removal (caseless transform)

instance : Caseless EdgeValue where
  caseless := EdgeValue.toCaseless
  caseless_caseless v := by cases v <;> simp [EdgeValue.toCaseless]

instance : Caseless Edge where
  caseless e :=
    { e with target := caseless e.target, column := caseless e.column, value := caseless e.value }
  caseless_caseless _ := by simp

theorem Target.alike {schema schema' table table' : String} (schemas : Alike schema schema')
    (tables : Alike table table') : Alike (Target.mk schema table) (Target.mk schema' table') := by
  change Target.mk (caseless schema) (caseless table) = Target.mk (caseless schema') (caseless table')
  rw [schemas, tables]

theorem Edge.alike {kind : StatementKind} {target target' : Target} {column column' : String} {value value' : EdgeValue}
    (targets : Alike target target') (columns : Alike column column') (values : Alike value value')
    {merge : Option (MergeAction × MergeCondition)} {operator : Option Symbol} {statement line : Nat} :
    Alike (Edge.mk kind target column value merge operator statement line)
      (Edge.mk kind target' column' value' merge operator statement line) := by
  change Edge.mk _ (caseless target) (caseless column) (caseless value) _ _ _ _ = _
  rw [targets, columns, values]
  rfl

namespace Transform

theorem compose_caseless (left : Transform) (op : String) (right : Transform) :
    caseless (left.compose op right) = (caseless left).compose (caseless op) (caseless right) := by
  have blank : " ".toLower = " " := by decide +kernel
  cases left <;> cases right <;> first | rfl | skip
  change named (String.toLower _) = named _
  simp [blank, caseless_string]

theorem inner_caseless (t : Transform) : caseless t.inner = (caseless t).inner := by
  cases t <;> rfl

end Transform

/-! ### Columns -/

instance : Caseless Sources where
  caseless r := { columns := caseless r.columns, transform := caseless r.transform }
  caseless_caseless _ := by simp

def ColumnValue.toCaseless : ColumnValue → ColumnValue
  | .reads sources => .reads (caseless sources)
  | .wildcard qualifier => .wildcard (caseless qualifier)

instance : Caseless ColumnValue where
  caseless := ColumnValue.toCaseless
  caseless_caseless v := by cases v <;> simp [ColumnValue.toCaseless]

instance : Caseless Column where
  caseless c := { c with name := caseless c.name, value := caseless c.value }
  caseless_caseless _ := by simp

theorem Sources.alike {columns columns' : List SourceColumn} {transform transform' : Transform}
    (reads : Alike columns columns') (made : Alike transform transform') :
    Alike (Sources.mk columns transform) (Sources.mk columns' transform') := by
  change Sources.mk (caseless columns) (caseless transform) = Sources.mk (caseless columns') (caseless transform')
  rw [reads, made]

variable {t t' : Transform} {r r' : Sources}

theorem Alike.columns (h : Alike r r') : Alike r.columns r'.columns := congrArg Sources.columns h

theorem Alike.transform (h : Alike r r') : Alike r.transform r'.transform := congrArg Sources.transform h

theorem Alike.compose {left left' right right' : Transform} (l : Alike left left') (op : String)
    (r : Alike right right') : Alike (left.compose op right) (left'.compose op right') := by
  rw [Alike, Transform.compose_caseless, Transform.compose_caseless, l, r]

theorem Alike.inner (h : Alike t t') : Alike t.inner t'.inner := by
  rw [Alike, Transform.inner_caseless, Transform.inner_caseless, h]

theorem Transform.text_alike (same : Alike t t') : Alike t.text t'.text := by
  refine same.image fun t => ?_
  cases t with
  | named text => exact .to_caseless text
  | _ => rfl

theorem Alike.toNamed {text text' : String} (h : Alike text text') : Alike (Transform.named text) (.named text') :=
  congrArg Transform.named h

theorem Alike.computed {cs ds : List SourceColumn} (sources : Alike cs ds) (made : Alike t t') :
    Alike (EdgeValue.computed (SourceColumn.distinct cs) t) (.computed (SourceColumn.distinct ds) t') := by
  change EdgeValue.computed (caseless (SourceColumn.distinct cs)) (caseless t) = _
  rw [SourceColumn.distinct_caseless, sources, made, ← SourceColumn.distinct_caseless]
  rfl

theorem Alike.toValue (h : Alike r r') : Alike (ColumnValue.reads r) (.reads r') := congrArg ColumnValue.reads h

theorem Column.alike {name name' : String} {value value' : ColumnValue} (names : Alike name name')
    (values : Alike value value') (isAlias : Bool) (line : Nat) :
    Alike (Column.mk name isAlias value line) (Column.mk name' isAlias value' line) := by
  change Column.mk (caseless name) _ (caseless value) _ = Column.mk (caseless name') _ (caseless value') _
  rw [names, values]

namespace Column

variable (taken : List String) (cs : List Column) (c : Column)

@[simp] theorem isWildcard_caseless : (caseless c).isWildcard = c.isWildcard := by
  obtain ⟨_, _, value, _⟩ := c
  cases value <;> rfl

@[simp] theorem sources_caseless : (caseless c).sources = caseless c.sources := by
  obtain ⟨_, _, value, _⟩ := c
  cases value <;> rfl

theorem wildcardColumn_caseless : caseless wildcardColumn = wildcardColumn := by decide +kernel

@[simp] theorem edge_caseless (kind : StatementKind) (target : Target) (name : String) :
    caseless (c.edge kind target name) = (caseless c).edge kind (caseless target) (caseless name) := by
  obtain ⟨_, _, value, line⟩ := c
  cases value with
  | wildcard qualifier =>
    change Edge.mk kind _ (caseless wildcardColumn) _ _ _ _ line = Edge.mk kind _ wildcardColumn _ _ _ _ line
    rw [wildcardColumn_caseless]
    rfl
  | reads sources =>
    change Edge.mk kind _ _ (.computed (caseless (SourceColumn.distinct sources.columns)) _) _ _ _ line =
      Edge.mk kind _ _ (.computed (SourceColumn.distinct (caseless sources.columns)) _) _ _ _ line
    rw [SourceColumn.distinct_caseless]
    rfl

@[simp] theorem edges_caseless (kind : StatementKind) (target : Target) (cs : List Column) :
    caseless (edges kind target cs) = edges kind (caseless target) (caseless cs) := by
  change (cs.map fun c => c.edge kind target c.name).map caseless = (cs.map caseless).map _
  simp only [List.map_map, Function.comp_def, edge_caseless]
  rfl

theorem any_isWildcard_caseless : (caseless cs).any isWildcard = cs.any isWildcard := by
  change (cs.map caseless).any isWildcard = _
  rw [List.any_map, Function.comp_def]
  simp only [isWildcard_caseless]

@[simp] theorem names?_caseless : caseless (names? cs) = names? (caseless cs) := by
  have names : caseless (cs.map (·.name)) = (caseless cs).map (·.name) := by
    change (cs.map _).map caseless = (cs.map caseless).map _
    simp only [List.map_map, Function.comp_def]
    rfl
  rw [names?, names?, isEmpty_caseless, any_isWildcard_caseless, apply_ite caseless, caseless_some, names]
  rfl

@[simp] theorem rename_caseless (names : List String) :
    caseless (rename cs names) = rename (caseless cs) (caseless names) := by
  fun_induction rename cs names with
  | case1 => rfl
  | case2 cs some => cases cs <;> rfl
  | case3 c cs name names ih =>
    simp only [caseless_cons, rename, isWildcard_caseless, ih, apply_ite caseless]
    rfl

/-! ### Names apart -/

/-- By induction on the tries: a name is taken or free whatever its case. -/
theorem freeName_go_alike {base base' : String} (bases : Alike base base') (n : Nat)
    {name name' : String} (names : Alike name name') (k : Nat) :
    Alike (freeName.go taken base n name k) (freeName.go taken base' n name' k) := by
  induction n generalizing name name' k with
  | zero => exact names
  | succ n ih =>
    have numbered : Alike (base ++ "_" ++ toString k) (base' ++ "_" ++ toString k) :=
      (bases.concat (.refl "_")).concat (.refl _)
    rw [freeName.go, freeName.go, names.fold]
    split
    · exact ih numbered (k + 1)
    · exact names

theorem freeName_alike {base base' : String} (bases : Alike base base') :
    Alike (freeName taken base) (freeName taken base') := freeName_go_alike taken bases taken.length bases 2

/-- By induction on the columns, with the names taken so far the same on both sides. -/
theorem uniqueNames_go_alike : Alike (uniqueNames.go taken cs) (uniqueNames.go taken (caseless cs)) := by
  induction cs generalizing taken with
  | nil => rfl
  | cons c rest ih =>
    obtain ⟨name, isAlias, value, line⟩ := c
    have free := freeName_alike taken (Alike.to_caseless name)
    rw [caseless_cons, uniqueNames.go, uniqueNames.go, isWildcard_caseless]
    change Alike (if isAlias || _ then _ else _) (if isAlias || _ then _ else _)
    split
    · exact (Alike.to_caseless _).cons (ih taken)
    · refine (Column.alike free (Alike.to_caseless value) isAlias line).cons ?_
      change Alike (uniqueNames.go (Text.fold (freeName taken name) :: taken) rest) _
      rw [free.fold]
      exact ih _

/-- Columns that are alike get alike names: a name is taken when one with the same key is. -/
theorem uniqueNames_alike {cs ds : List Column} (same : Alike cs ds) : Alike (uniqueNames cs) (uniqueNames ds) := by
  have taken (cs : List Column) :
      ((caseless cs).filter (·.isAlias)).map (fun c => Text.fold c.name) =
        (cs.filter (·.isAlias)).map fun c => Text.fold c.name := by
    change ((cs.map caseless).filter _).map _ = _
    rw [List.filter_map, List.map_map, Function.comp_def, Function.comp_def]
    exact List.map_congr_left fun c _ => fold_caseless c.name
  refine same.image fun cs => ?_
  rw [uniqueNames, uniqueNames, taken]
  exact uniqueNames_go_alike _ cs

/-! ### Set operations and stars -/

theorem merge_caseless (tag : String) (c d : Column) :
    caseless (merge tag c d) = merge (caseless tag) (caseless c) (caseless d) := by
  obtain ⟨name, isAlias, value, line⟩ := c
  obtain ⟨_, _, other, _⟩ := d
  cases value with
  | wildcard => rfl
  | reads left =>
    cases other with
    | wildcard => rfl
    | reads right =>
      obtain ⟨columns, transform⟩ := left
      have sources := caseless_append columns right.columns
      change Column.mk _ _ (.reads ⟨caseless (columns ++ right.columns), _⟩) _ = _
      rw [sources]
      cases transform <;> rfl

@[simp] theorem mergeAll_caseless (tag : String) (cs ds : List Column) :
    caseless (mergeAll tag cs ds) = mergeAll (caseless tag) (caseless cs) (caseless ds) := by
  fun_induction mergeAll tag cs ds with
  | case1 => rfl
  | case2 cs some => cases cs <;> rfl
  | case3 c cs d ds ih => simp only [caseless_cons, mergeAll, ih, merge_caseless]

theorem mapM_columns_caseless (tables : List Binding) :
    (caseless tables).mapM (·.columns) = caseless (tables.mapM (·.columns)) := by
  induction tables with
  | nil => rfl
  | cons table rest ih =>
    have columns : (caseless table).columns = caseless table.columns := rfl
    rw [caseless_cons, List.mapM_cons, List.mapM_cons, ih, columns]
    cases table.columns <;> cases rest.mapM (·.columns) <;> rfl

/-- The tables are chosen by folded names, and their columns keep their order. -/
@[simp] theorem expand_caseless (tables : List Binding) (qualifier : String) (line : Nat) :
    caseless (expand tables qualifier line) = expand (caseless tables) (caseless qualifier) line := by
  have star : caseless [(⟨wildcardColumn, false, .wildcard qualifier, line⟩ : Column)] =
      [⟨wildcardColumn, false, .wildcard (caseless qualifier), line⟩] := by
    change [Column.mk (caseless wildcardColumn) _ _ _] = _
    rw [wildcardColumn_caseless]
    rfl
  unfold expand
  rw [mapM_columns_caseless]
  cases tables with
  | nil => exact star
  | cons table rest =>
    cases (table :: rest).mapM (·.columns) with
    | none => exact star
    | some lists =>
      change List.map caseless (((table :: rest).zip lists).flatMap _) =
        (((table :: rest).map caseless).zip (lists.map caseless)).flatMap _
      rw [List.zip_map, List.flatMap_map, List.map_flatMap]
      refine List.flatMap_congr fun pair _ => ?_
      change (pair.2.map _).map caseless = (pair.2.map caseless).map _
      rw [List.map_map, List.map_map]
      rfl

theorem lastPart_caseless (qualifier : String) : lastPart (caseless qualifier) = caseless (lastPart qualifier) := by
  have dot (c : Char) : (c.toLower != '.') = (c != '.') := Text.apply_toLower (· != '.') (by decide) c
  rw [caseless_string, caseless_string, lastPart, lastPart, Text.toList_toLower, Text.toLower_ofList,
    ← List.map_reverse, List.takeWhile_map, ← List.map_reverse, Function.comp_def]
  simp only [dot]

@[simp] theorem ofStar_caseless (s : Scope) (line : Nat) : caseless (ofStar s line) = ofStar (caseless s) line := by
  rw [ofStar, expand_caseless, caseless_empty]
  rfl

@[simp] theorem ofTableStar_caseless (s : Scope) (qualifier : String) (line : Nat) :
    caseless (ofTableStar s qualifier line) = ofTableStar (caseless s) (caseless qualifier) line := by
  have found (o : Option Binding) : caseless o.toList = (caseless o).toList := by cases o <;> rfl
  simp only [ofTableStar, expand_caseless, lastPart_caseless, fold_caseless, Scope.lookup_caseless, found]

end Column

namespace Alike

variable {cs ds : List Column} (columns : Alike cs ds)

include columns

theorem names? : Alike (Column.names? cs) (Column.names? ds) := by
  rw [Alike, Column.names?_caseless, Column.names?_caseless, columns]

theorem rename (names : List String) : Alike (Column.rename cs names) (Column.rename ds (caseless names)) := by
  rw [Alike, Column.rename_caseless, Column.rename_caseless, caseless_caseless, columns]

theorem edges {target target' : Target} (targets : Alike target target') :
    Alike (Column.edges .select target cs) (Column.edges .select target' ds) := by
  rw [Alike, Column.edges_caseless, Column.edges_caseless, targets, columns]

end Alike

end ColumnFlow
