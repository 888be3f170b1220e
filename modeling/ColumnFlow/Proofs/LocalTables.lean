import ColumnFlow.Lineage.Extract
import ColumnFlow.Proofs.FoldedNames
import ColumnFlow.Proofs.GraphColumns

/-!
# Which definitions meet in a local table

In the graph, the columns of local temporary tables and table variables carry the name of their definition in front
of a double colon. Only the names keep the local tables of definitions apart: definitions of one name share them, and
so do columns whose own names hold a double colon. A local table that is named with a schema is taken for a shared
one. Where definitions have different names without a double colon, a column of a local table without a schema is
touched by one definition only, and a path that leads from one definition into another passes a column of a table
that the definitions share.
-/

namespace ColumnFlow

open ColumnGraph (key ofLineages)
open Text (ColonsApart)

namespace TableColumn

variable {c : TableColumn} {definition id : String}

/-- The column of a local table carries the name of the definition. -/
theorem id?_of_local (isLocal : c.isLocal = true) :
    c.id? definition = some (key definition ++ "::" ++ key c.qualified) := by
  obtain ⟨schema, table⟩ := Bool.and_eq_true_iff.1 isLocal
  have noSchema : c.schema = "" := by simpa using schema
  have colons : Text.fold "::" = "::" := by decide +kernel
  simp [id?, name?, nodeName?, noSchema, table, key, Text.fold_append, colons]

/-- The column of a shared table carries its own name only. -/
theorem eq_key_of_shared (shared : c.isLocal = false) (same : c.id? definition = some id) : id = key c.qualified := by
  unfold id? name? nodeName? at same
  split at same
  · exact (Option.some.inj same).symm
  · rename_i noSchema
    split at same
    · rename_i table
      have noSchema : c.schema = "" := by simpa using noSchema
      simp [isLocal, noSchema, table] at shared
    · split at same
      · exact (Option.some.inj same).symm
      · cases same

/-- A column of a local table takes part in the graph, also where the table is named with a schema. -/
theorem id?_isSome_of_localTable (table : isLocalTable c.table = true) : (c.id? definition).isSome = true := by
  unfold id? name? nodeName?
  split <;> rfl

theorem isLocal_of_localTable (table : isLocalTable c.table = true) : c.isLocal = true ↔ c.schema = "" := by
  simp [isLocal, table]

theorem colonsApart_key (plain : ColonsApart (definition ++ ":")) : ColonsApart (key definition ++ ":") := by
  have folded := plain.fold
  rwa [Text.fold_append, show Text.fold ":" = ":" by decide +kernel] at folded

/-- The column of a local table is no column of a shared one. -/
theorem ne_of_local_of_shared {d : TableColumn} {definition' : String} (isLocal : c.isLocal = true)
    (shared : d.isLocal = false) (plain : ColonsApart d.qualified) (same : c.id? definition = some id) :
    d.id? definition' ≠ some id := by
  intro same'
  rw [id?_of_local isLocal, Option.some.injEq] at same
  have apart : ColonsApart (key d.qualified) := plain.fold
  rw [← eq_key_of_shared shared same', ← same] at apart
  exact Text.not_colonsApart _ _ apart

/-- Which columns of definitions are one column of the graph: those of one name, and of local tables only where the
definitions have one name too. -/
theorem same_node_iff {d : TableColumn} {definition' : String} (plain : ColonsApart (definition ++ ":"))
    (plain' : ColonsApart (definition' ++ ":")) (shared : c.isLocal = false → ColonsApart c.qualified)
    (shared' : d.isLocal = false → ColonsApart d.qualified) (own : c.id? definition = some id) :
    d.id? definition' = some id ↔ (d.id? definition').isSome = true ∧ d.isLocal = c.isLocal ∧
      key d.qualified = key c.qualified ∧ (c.isLocal = true → key definition' = key definition) := by
  cases isLocal : c.isLocal with
  | true =>
    cases isLocal' : d.isLocal with
    | true =>
      obtain rfl := Option.some.inj (own.symm.trans (id?_of_local isLocal))
      rw [id?_of_local isLocal', Option.some.injEq]
      constructor
      · intro same
        have parts := Text.append_colons_inj (colonsApart_key plain') (colonsApart_key plain) same
        exact ⟨rfl, rfl, parts.2, fun _ => parts.1⟩
      · rintro ⟨-, -, column, names⟩
        rw [column, names rfl]
    | false => simpa using ne_of_local_of_shared isLocal isLocal' (shared' isLocal') own
  | false =>
    obtain rfl := eq_key_of_shared isLocal own
    cases isLocal' : d.isLocal with
    | true =>
      have different : d.id? definition' ≠ some (key c.qualified) := fun same =>
        ne_of_local_of_shared isLocal' isLocal (shared isLocal) same own
      simpa using different
    | false =>
      constructor
      · intro same
        exact ⟨by simp [same], rfl, (eq_key_of_shared isLocal' same).symm, nofun⟩
      · rintro ⟨takesPart, -, column, -⟩
        obtain ⟨id, same⟩ := Option.isSome_iff_exists.1 takesPart
        rw [same, eq_key_of_shared isLocal' same, column]

end TableColumn

/-- A path of the graph that leads from a column of one definition to a column of another passes a column that two
definitions touch. -/
theorem path_passes_shared {ls : List Lineage} {l m : Lineage} (inList : l ∈ ls) (inList' : m ∈ ls) (different : l ≠ m)
    {path : List String} (chain : path.IsChain fun s t => t ∈ (ofLineages ls).targets s) {u v : String}
    (first : path.head? = some u) (last : path.getLast? = some v) (start : l.touches u) (goal : m.touches v) :
    ∃ w ∈ path, ∃ l' ∈ ls, ∃ m' ∈ ls, l' ≠ m' ∧ l'.touches w ∧ m'.touches w := by
  induction path generalizing u with
  | nil => cases first
  | cons a rest ih =>
    cases first
    cases rest with
    | nil =>
      cases last
      exact ⟨a, List.mem_cons_self, l, inList, m, inList', different, start, goal⟩
    | cons b more =>
      -- The definition of the first arrow touches both of its ends.
      obtain ⟨arrow, chain⟩ := List.isChain_cons_cons.1 chain
      obtain ⟨k, inList'', linked⟩ := ColumnGraph.mem_targets_ofLineages.1 arrow
      obtain ⟨here, next⟩ := Lineage.links_touches linked
      by_cases same : k = l
      · subst same
        obtain ⟨w, member, shared⟩ := ih chain rfl (by simpa using last) next
        exact ⟨w, List.mem_cons_of_mem a member, shared⟩
      · exact ⟨a, List.mem_cons_self, k, inList'', l, inList, same, here, start⟩

/-- Where the names of definitions and of columns of shared tables hold no double colon, the graph has exactly the
columns and arrows that the definitions touch and link. A column of a local table that is named without a schema is
touched by all definitions of the same name that have such a column, and one of a local table that is named with a
schema by all definitions that have such a column, whatever their names. Where definitions have different names, a
column of a local table without a schema is therefore touched by one definition only, and every path from a column of
one definition to a column of another passes a column that two definitions touch, which belongs to no such table. -/
theorem local_columns_joined_iff (ls : List Lineage) (plain : ∀ l ∈ ls, ColonsApart (l.name ++ ":"))
    (shared : ∀ l ∈ ls, ∀ c ∈ l.tableColumns, c.isLocal = false → ColonsApart c.qualified) :
    (∀ id, id ∈ (ofLineages ls).ids ↔ ∃ l ∈ ls, l.touches id) ∧
      (∀ s t, t ∈ (ofLineages ls).targets s ↔ ∃ l ∈ ls, l.links s t) ∧
      (∀ l ∈ ls, ∀ s t, l.links s t → l.touches s ∧ l.touches t) ∧
      (∀ l ∈ ls, ∀ c ∈ l.tableColumns, isLocalTable c.table = true → ∃ id, c.id? l.name = some id ∧
        ∀ m ∈ ls, m.touches id ↔ (c.schema = "" → key m.name = key l.name) ∧ ∃ d ∈ m.tableColumns,
          (d.id? m.name).isSome = true ∧ d.isLocal = c.isLocal ∧ key d.qualified = key c.qualified) ∧
      ((ls.map fun l => key l.name).Nodup →
        (∀ l ∈ ls, ∀ m ∈ ls, ∀ id, l.touchesLocal id → m.touches id → l = m) ∧
        ∀ l ∈ ls, ∀ m ∈ ls, l ≠ m → ∀ (path : List String) (u v : String),
          path.IsChain (fun s t => t ∈ (ofLineages ls).targets s) → path.head? = some u → path.getLast? = some v →
          l.touches u → m.touches v →
          ∃ w ∈ path, (∃ l' ∈ ls, ∃ m' ∈ ls, l' ≠ m' ∧ l'.touches w ∧ m'.touches w) ∧
            ∀ k ∈ ls, ¬k.touchesLocal w) := by
  have same {l m : Lineage} (inList : l ∈ ls) (inList' : m ∈ ls) {c d : TableColumn} (member : c ∈ l.tableColumns)
      (member' : d ∈ m.tableColumns) {id : String} (own : c.id? l.name = some id) :=
    TableColumn.same_node_iff (plain l inList) (plain m inList') (shared l inList c member)
      (shared m inList' d member') own
  refine ⟨fun _ => ColumnGraph.mem_ids_ofLineages, fun _ _ => ColumnGraph.mem_targets_ofLineages,
    fun _ _ _ _ => Lineage.links_touches, ?_, fun named => ?_⟩
  · intro l inList c member table
    have takesPart : (c.id? l.name).isSome = true := TableColumn.id?_isSome_of_localTable table
    obtain ⟨id, own⟩ := Option.isSome_iff_exists.1 takesPart
    refine ⟨id, own, fun m inList' => ?_⟩
    rw [← TableColumn.isLocal_of_localTable table]
    constructor
    · rintro ⟨d, member', touched⟩
      obtain ⟨takesPart, kind, column, names⟩ := (same inList inList' member member' own).1 touched
      exact ⟨names, d, member', takesPart, kind, column⟩
    · rintro ⟨names, d, member', takesPart, kind, column⟩
      exact ⟨d, member', (same inList inList' member member' own).2 ⟨takesPart, kind, column, names⟩⟩
  · have own : ∀ l ∈ ls, ∀ m ∈ ls, ∀ id, l.touchesLocal id → m.touches id → l = m := by
      rintro l inList m inList' id ⟨c, member, isLocal, touched⟩ ⟨d, member', touched'⟩
      obtain ⟨-, -, -, names⟩ := (same inList inList' member member' touched).1 touched'
      exact List.inj_on_of_nodup_map named inList inList' (names isLocal).symm
    refine ⟨own, fun l inList m inList' different path u v chain first last start goal => ?_⟩
    obtain ⟨w, member, l', one, m', two, apart, touched, touched'⟩ :=
      path_passes_shared inList inList' different chain first last start goal
    refine ⟨w, member, ⟨l', one, m', two, apart, touched, touched'⟩, fun k inList'' touchedLocal => apart ?_⟩
    exact (own k inList'' l' one w touchedLocal touched).symm.trans (own k inList'' m' two w touchedLocal touched')

/-- Two definitions of different names whose local tables are named `#t` meet in `dbo.p` only, although the path
between them passes both tables. Two definitions of one name meet in their local table `#t`, and two of different
names in the local table that both name `dbo.#u`. -/
theorem local_columns_joined_iff_names :
    (let ls := extractAll [⟨"a", "SELECT x INTO #t FROM dbo.s; INSERT INTO dbo.p (x) SELECT x FROM #t", ""⟩,
        ⟨"b", "SELECT x INTO #t FROM dbo.p; INSERT INTO dbo.v (y) SELECT x FROM #t", ""⟩] {}
      let path := ["dbo.s.x", "a::#t.x", "dbo.p.x", "b::#t.x", "dbo.v.y"]
      path.IsChain (fun s t => t ∈ (ofLineages ls).targets s) ∧
        ∃ w ∈ path, (∃ l ∈ ls, ∃ m ∈ ls, l ≠ m ∧ l.touches w ∧ m.touches w) ∧ ∀ k ∈ ls, ¬k.touchesLocal w) ∧
    let ls := extractAll [⟨"x", "SELECT a AS c INTO #t FROM dbo.s", ""⟩,
      ⟨"x", "INSERT INTO dbo.v (b) SELECT c FROM #t", ""⟩, ⟨"y", "SELECT a AS c INTO #t FROM dbo.#u", ""⟩,
      ⟨"z", "INSERT INTO dbo.#u (a) SELECT d FROM dbo.w", ""⟩] {}
    (∀ m ∈ ls, m.touches "x::#t.c" ↔ key m.name = "x" ∧ ∃ d ∈ m.tableColumns,
        (d.id? m.name).isSome = true ∧ d.isLocal = true ∧ key d.qualified = "#t.c") ∧
      (∀ m ∈ ls, m.touches "dbo.#u.a" ↔ ∃ d ∈ m.tableColumns,
        (d.id? m.name).isSome = true ∧ d.isLocal = false ∧ key d.qualified = "dbo.#u.a") ∧
      (ls.map fun m => (m.name, decide (m.touches "x::#t.c"), decide (m.touches "dbo.#u.a"))) =
        [("x", true, false), ("x", true, false), ("y", false, true), ("z", false, true)] := by
  -- In each half all is checked in one evaluation, which reads the texts once.
  constructor
  · intro ls path
    obtain ⟨named, plain, shared, chain, ends⟩ : (ls.map fun l => key l.name).Nodup ∧
        (∀ l ∈ ls, ColonsApart (l.name ++ ":")) ∧
        (∀ l ∈ ls, ∀ c ∈ l.tableColumns, c.isLocal = false → ColonsApart c.qualified) ∧
        path.IsChain (fun s t => t ∈ (ofLineages ls).targets s) ∧
        ∃ l ∈ ls, ∃ m ∈ ls, l.name ≠ m.name ∧ l.touches "dbo.s.x" ∧ m.touches "dbo.v.y" := by decide +kernel
    obtain ⟨l, inList, m, inList', different, start, goal⟩ := ends
    obtain ⟨-, -, -, -, passes⟩ := local_columns_joined_iff ls plain shared
    exact ⟨chain, (passes named).2 l inList m inList' (fun same => different (congrArg Lineage.name same)) path
      "dbo.s.x" "dbo.v.y" chain rfl rfl start goal⟩
  · intro ls
    obtain ⟨plain, shared, ⟨l, inList, c, member, one⟩, ⟨l', inList', c', member', two⟩, listed⟩ :
        (∀ l ∈ ls, ColonsApart (l.name ++ ":")) ∧
        (∀ l ∈ ls, ∀ c ∈ l.tableColumns, c.isLocal = false → ColonsApart c.qualified) ∧
        (∃ l ∈ ls, ∃ c ∈ l.tableColumns, isLocalTable c.table = true ∧ c.id? l.name = some "x::#t.c" ∧
          c.schema = "" ∧ c.isLocal = true ∧ key l.name = "x" ∧ key c.qualified = "#t.c") ∧
        (∃ l ∈ ls, ∃ c ∈ l.tableColumns, isLocalTable c.table = true ∧ c.id? l.name = some "dbo.#u.a" ∧
          c.schema ≠ "" ∧ c.isLocal = false ∧ key c.qualified = "dbo.#u.a") ∧
        (ls.map fun m => (m.name, decide (m.touches "x::#t.c"), decide (m.touches "dbo.#u.a"))) =
          [("x", true, false), ("x", true, false), ("y", false, true), ("z", false, true)] := by decide +kernel
    obtain ⟨-, -, -, joined, -⟩ := local_columns_joined_iff ls plain shared
    refine ⟨?_, ?_, listed⟩
    · obtain ⟨isTable, id, schema, kind, name, column⟩ := one
      obtain ⟨_, own, touched⟩ := joined l inList c member isTable
      obtain rfl := Option.some.inj (id.symm.trans own)
      simpa only [schema, kind, name, column, true_implies] using touched
    · obtain ⟨isTable, id, schema, kind, column⟩ := two
      obtain ⟨_, own, touched⟩ := joined l' inList' c' member' isTable
      obtain rfl := Option.some.inj (id.symm.trans own)
      simpa only [schema, kind, column, false_implies, true_and] using touched

end ColumnFlow
