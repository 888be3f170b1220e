import ColumnFlow.Lineage.Query
import ColumnFlow.Proofs.CaselessSyntax
import ColumnFlow.Proofs.EdgeForm

/-!
# Scopes and columns up to case

A scope finds tables by their folded keys, so scopes that are alike find alike tables. The columns of a query, the
sources that they are read from and the edges that come of them are compared in the same way, field by field.
-/

namespace ColumnFlow

variable (s : String)

@[simp] theorem beq_empty_caseless : (caseless s == "") = (s == "") := by
  simp [caseless_string, Bool.beq_eq_decide_eq]

@[simp] theorem bne_empty_caseless : (caseless s != "") = (s != "") := by
  simp [bne]

@[simp] theorem fold_caseless : Text.fold (caseless s) = Text.fold s := Text.fold_toLower s

namespace Alike

variable {s t : String}

theorem fold (h : Alike s t) : Text.fold s = Text.fold t := h.apply fun s => (fold_caseless s).symm

theorem beq_empty (h : Alike s t) : (s == "") = (t == "") := h.apply fun s => (beq_empty_caseless s).symm

end Alike

/-! ### Sources -/

instance : Caseless SourceColumn where
  caseless c :=
    { c with
      column := caseless c.column, qualifier := caseless c.qualifier, database := caseless c.database
      schema := caseless c.schema, table := caseless c.table }
  caseless_caseless _ := by simp

namespace SourceColumn

theorem caseless_unresolved (column qualifier : String) (ambiguous : Bool) :
    caseless { column, qualifier, ambiguous : SourceColumn } =
      { column := caseless column, qualifier := caseless qualifier, ambiguous } := by
  change SourceColumn.mk _ _ (caseless "") (caseless "") (caseless "") _ _ = _
  rw [caseless_empty]

variable (c : SourceColumn)

@[simp] theorem isResolved_caseless : (caseless c).isResolved = c.isResolved := bne_empty_caseless c.table

theorem qualifiers_caseless : (caseless c).qualifiers = caseless c.qualifiers := by
  have unnamed : ((caseless c.table).toList.head? == some '(') = (c.table.toList.head? == some '(') :=
    Text.head?_toLower '(' (by decide) c.table
  have parts : [caseless c.database, caseless c.schema].filter (· != "") =
      caseless ([c.database, c.schema].filter (· != "")) := by
    simp only [List.filter_cons, bne_empty_caseless]
    split <;> split <;> rfl
  change (if c.kind == some .derived && (caseless c.table).toList.head? == some '(' then [caseless c.qualifier]
    else if (caseless c).isResolved then [caseless c.database, caseless c.schema].filter (· != "") ++ [caseless c.table]
    else if caseless c.qualifier != "" then [caseless c.qualifier]
    else []) = _
  rw [unnamed, parts, isResolved_caseless, bne_empty_caseless, qualifiers, apply_ite caseless, apply_ite caseless,
    apply_ite caseless, caseless_append]
  rfl

theorem qualifiedName_caseless : (caseless c).qualifiedName = caseless c.qualifiedName := by
  have dot : ".".toLower = "." := by decide +kernel
  rw [qualifiedName, qualifiedName, qualifiers_caseless, caseless_string, Text.toLower_intercalate, dot,
    List.map_append]
  rfl

@[simp] theorem key_caseless : (caseless c).key = c.key := by
  simp only [key, qualifiedName_caseless, fold_caseless, isResolved_caseless]
  rfl

end SourceColumn

theorem distinctBy_map {α : Type} {key : α → String} {f : α → α} (kept : ∀ a, key (f a) = key a) (items : List α) :
    distinctBy key (items.map f) = (distinctBy key items).map f := by
  induction items with
  | nil => rfl
  | cons item rest ih => simp only [List.map_cons, distinctBy_cons, ih, List.filter_map, Function.comp_def, kept]

@[simp] theorem SourceColumn.distinct_caseless (cs : List SourceColumn) :
    caseless (distinct cs) = distinct (caseless cs) := (distinctBy_map key_caseless cs).symm

/-! ### Tables -/

instance : Caseless TableSource where
  caseless t :=
    { t with
      name := caseless t.name, schema := caseless t.schema, database := caseless t.database
      aliasName := caseless t.aliasName }
  caseless_caseless _ := by simp

instance : Caseless Binding where
  caseless b := { b with source := caseless b.source, columns := caseless b.columns }
  caseless_caseless _ := by simp

instance : Caseless CommonDef where
  caseless d := { d with name := caseless d.name, columns := caseless d.columns }
  caseless_caseless _ := by simp

instance : Caseless Level where
  caseless level := { tables := caseless level.tables, commons := caseless level.commons }
  caseless_caseless _ := by simp

instance : Caseless Scope where
  caseless s := { level := caseless s.level, outer := caseless s.outer }
  caseless_caseless _ := by simp

theorem CommonDef.alike (key : String) {name name' : String} {columns columns' : Option (List String)}
    (names : Alike name name') (known : Alike columns columns') :
    Alike (CommonDef.mk key name columns) (CommonDef.mk key name' columns') := by
  change CommonDef.mk key (caseless name) (caseless columns) = _
  rw [names, known]
  rfl

namespace TableSource

theorem alike {name name' schema schema' database database' aliasName aliasName' : String} (names : Alike name name')
    (schemas : Alike schema schema') (databases : Alike database database') (aliases : Alike aliasName aliasName')
    {kind kind' : TableKind} (kinds : kind = kind') :
    Alike (TableSource.mk name schema database aliasName kind)
      (TableSource.mk name' schema' database' aliasName' kind') := by
  change TableSource.mk (caseless name) (caseless schema) (caseless database) (caseless aliasName) kind = _
  rw [names, schemas, databases, aliases, kinds]
  rfl

theorem visibleName_caseless (t : TableSource) : (caseless t).visibleName = caseless t.visibleName := by
  change (if caseless t.aliasName != "" then caseless t.aliasName else caseless t.name) = _
  rw [bne_empty_caseless, visibleName]
  split <;> rfl

end TableSource

namespace Binding

theorem alike {key key' : String} {source source' : TableSource} {columns columns' : Option (List String)}
    (keys : key = key') (sources : Alike source source') (known : Alike columns columns') (hidden : Bool) :
    Alike (Binding.mk key source columns hidden) (Binding.mk key' source' columns' hidden) := by
  change Binding.mk key (caseless source) (caseless columns) hidden = _
  rw [keys, sources, known]
  rfl

@[simp] theorem ofSource_caseless (source : TableSource) (columns : Option (List String)) :
    caseless (ofSource source columns) = ofSource (caseless source) (caseless columns) := by
  simp only [ofSource, TableSource.visibleName_caseless, fold_caseless]
  rfl

theorem ofSource_alike {source source' : TableSource} {columns columns' : Option (List String)}
    (sources : Alike source source') (known : Alike columns columns') :
    Alike (ofSource source columns) (ofSource source' columns') := by
  rw [Alike, ofSource_caseless, ofSource_caseless, sources, known]

@[simp] theorem read_caseless (b : Binding) (column : String) :
    caseless (b.read column) = (caseless b).read (caseless column) := rfl

@[simp] theorem mayHave_caseless (b : Binding) (column : String) :
    (caseless b).mayHave (caseless column) = b.mayHave column := by
  obtain ⟨_, _, columns, _⟩ := b
  cases columns with
  | none => rfl
  | some columns =>
    change (columns.map caseless).any _ = columns.any _
    simp [List.any_map, Function.comp_def]

end Binding

namespace Scope

variable (s : Scope)

@[simp] theorem child_caseless : caseless s.child = (caseless s).child := rfl

@[simp] theorem bind_caseless (b : Binding) : caseless (s.bind b) = (caseless s).bind (caseless b) := by
  have others := filter_caseless (p := (·.key != b.key)) (fun _ => rfl) s.level.tables
  have tables := caseless_append (s.level.tables.filter (·.key != b.key)) [b]
  rw [← others] at tables
  change Scope.mk ⟨caseless (s.level.tables.filter (·.key != b.key) ++ [b]), _⟩ _ = _
  rw [tables]
  rfl

@[simp] theorem define_caseless (d : CommonDef) : caseless (s.define d) = (caseless s).define (caseless d) := by
  have others := filter_caseless (p := (·.key != d.key)) (fun _ => rfl) s.level.commons
  have commons := caseless_append (s.level.commons.filter (·.key != d.key)) [d]
  rw [← others] at commons
  change Scope.mk ⟨_, caseless (s.level.commons.filter (·.key != d.key) ++ [d])⟩ _ = _
  rw [commons]
  rfl

/-- What a search through the levels finds by a test that takes no notice of case. -/
theorem findSome?_levels_caseless {α : Type} [Caseless α] (items : Level → List α) (p : α → Bool)
    (moved : ∀ level, items (caseless level) = caseless (items level)) (kept : ∀ a, p (caseless a) = p a)
    (s : Scope) :
    (caseless s).levels.findSome? (fun level => (items level).find? p) =
      caseless (s.levels.findSome? fun level => (items level).find? p) := by
  change (s.levels.map caseless).findSome? _ = (s.levels.findSome? _).map caseless
  rw [List.findSome?_map, List.map_findSome?]
  congr 1
  funext level
  change (items (caseless level)).find? p = ((items level).find? p).map caseless
  rw [moved]
  change ((items level).map caseless).find? p = _
  rw [List.find?_map, Function.comp_def]
  simp only [kept]

@[simp] theorem lookup_caseless (key : String) : (caseless s).lookup key = caseless (s.lookup key) :=
  findSome?_levels_caseless Level.tables (·.key == key) (fun _ => rfl) (fun _ => rfl) s

@[simp] theorem common_caseless (key : String) : (caseless s).common key = caseless (s.common key) :=
  findSome?_levels_caseless Level.commons (·.key == key) (fun _ => rfl) (fun _ => rfl) s

@[simp] theorem candidates_caseless (column : String) :
    (caseless s).candidates (caseless column) = caseless (s.candidates column) := by
  have owners (level : Level) : (caseless level).owners (caseless column) = caseless (level.owners column) := by
    have mayHave (b : Binding) : (caseless b).mayHave (caseless column) = b.mayHave column := b.mayHave_caseless column
    change (level.tables.map caseless).filter _ = (level.tables.filter _).map caseless
    rw [List.filter_map, Function.comp_def]
    simp only [mayHave]
    rfl
  have found : ((caseless s).levels.map (·.owners (caseless column))).find? (!·.isEmpty) =
      caseless ((s.levels.map (·.owners column)).find? (!·.isEmpty)) := by
    change ((s.levels.map caseless).map _).find? _ = ((s.levels.map _).find? _).map caseless
    simp only [List.map_map, List.find?_map, Function.comp_def, owners, Option.map_map, isEmpty_caseless]
  rw [candidates, candidates, found]
  cases (s.levels.map (·.owners column)).find? (!·.isEmpty) <;> rfl

end Scope

namespace Alike

variable {s s' : Scope} (scopes : Alike s s')

include scopes

theorem child : Alike s.child s'.child := by
  rw [Alike, Scope.child_caseless, Scope.child_caseless, scopes]

theorem bound {b b' : Binding} (tables : Alike b b') : Alike (s.bind b) (s'.bind b') := by
  rw [Alike, Scope.bind_caseless, Scope.bind_caseless, scopes, tables]

theorem define {d d' : CommonDef} (commons : Alike d d') : Alike (s.define d) (s'.define d') := by
  rw [Alike, Scope.define_caseless, Scope.define_caseless, scopes, commons]

theorem lookup (key : String) : Alike (s.lookup key) (s'.lookup key) := by
  rw [Alike, ← Scope.lookup_caseless, ← Scope.lookup_caseless, scopes]

theorem common (key : String) : Alike (s.common key) (s'.common key) := by
  rw [Alike, ← Scope.common_caseless, ← Scope.common_caseless, scopes]

end Alike

end ColumnFlow
