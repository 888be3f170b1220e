import ColumnFlow.Proofs.GraphInvariant

/-!
# The columns and arrows of the graph of definitions

The graph of many definitions is built by calls. Its columns are those that the calls name and its arrows are those
that the calls ask for, since none is refused. Read off the edges: a column of the graph is one that some definition
touches, an arrow is one by which some definition links two columns.
-/

namespace ColumnFlow

/-- A column of a table, as an edge names it. -/
structure TableColumn where
  schema : String
  table : String
  /-- The column with its qualification. -/
  qualified : String
  deriving DecidableEq, Repr

namespace TableColumn

/-- Whether the table is a local temporary table or a table variable, named without a schema. -/
def isLocal (c : TableColumn) : Bool := c.schema == "" && isLocalTable c.table

/-- The name of the column in the graph, if it takes part in it. -/
def name? (c : TableColumn) (definition : String) : Option String := nodeName? definition c.schema c.table c.qualified

def id? (c : TableColumn) (definition : String) : Option String := (c.name? definition).map ColumnGraph.key

end TableColumn

def SourceColumn.tableColumn? (c : SourceColumn) : Option TableColumn :=
  if c.isResolved && c.kind == some .plain then some ⟨c.schema, c.table, c.qualifiedName⟩ else none

namespace Edge

/-- The column of a table that an edge writes. -/
def written? (e : Edge) : Option TableColumn :=
  if e.target.table == "" || e.column == wildcardColumn || e.isRemoval then none
  else some ⟨e.target.schema, e.target.table, e.targetName⟩

/-- The columns of tables that an edge reads. -/
def read (e : Edge) : List TableColumn := e.sources.filterMap SourceColumn.tableColumn?

/-- The columns that an edge brings into the graph: none if the written column takes no part. -/
def tableColumns (definition : String) (e : Edge) : List TableColumn :=
  match e.written? with
  | none => []
  | some target => if (target.id? definition).isSome then target :: e.read else []

/-- The edge takes a column of the graph to a different one. -/
def links (definition : String) (e : Edge) (s t : String) : Prop :=
  s ≠ t ∧ (∃ target ∈ e.written?, target.id? definition = some t) ∧ ∃ source ∈ e.read, source.id? definition = some s

end Edge

namespace Lineage

def tableColumns (l : Lineage) : List TableColumn := l.edges.flatMap (·.tableColumns l.name)

/-- An edge of the definition writes or reads the column. -/
def touches (l : Lineage) (id : String) : Prop := ∃ c ∈ l.tableColumns, c.id? l.name = some id

/-- An edge of the definition writes or reads the column as one of a local table. -/
def touchesLocal (l : Lineage) (id : String) : Prop := ∃ c ∈ l.tableColumns, c.isLocal = true ∧ c.id? l.name = some id

/-- An edge of the definition takes a column of the graph to a different one. -/
def links (l : Lineage) (s t : String) : Prop := ∃ e ∈ l.edges, e.links l.name s t

instance (l : Lineage) (id : String) : Decidable (l.touches id) :=
  inferInstanceAs (Decidable (∃ c ∈ l.tableColumns, c.id? l.name = some id))

instance (l : Lineage) (id : String) : Decidable (l.touchesLocal id) :=
  inferInstanceAs (Decidable (∃ c ∈ l.tableColumns, c.isLocal = true ∧ c.id? l.name = some id))

end Lineage

/-! ### What calls do -/

namespace ColumnGraph

/-- An arrow after a call was there before or is the one that was asked for. -/
theorem mem_targets_call {g : ColumnGraph} (consistent : g.Consistent) {c : GraphCall} (accepted : (g.call c).2 = none)
    {s t : String} : t ∈ (g.call c).1.targets s ↔ t ∈ g.targets s ∨ c = .arrow s t := by
  cases c with
  | node name =>
    have same : (g.addNode name).targets s = g.targets s := by
      unfold addNode
      split
      · rfl
      · exact Neighbours.of_enter g.forward (key name) s
    rw [call, same]
    simp
  | writer id definition =>
    rw [call, targets, (g.addWriter_eq id definition).1]
    simp [targets]
  | arrow source target =>
    obtain ⟨e, refused⟩ | ⟨known, -, -, added⟩ := g.connect_cases source target
    · rw [call, refused] at accepted
      cases accepted
    · rw [call, added]
      have inTargets : t ∈ (g.forward.add source target).of s ↔ t ∈ g.forward.of s ∨ s = source ∧ t = target :=
        Neighbours.mem_of_add (consistent.forwardKnown ▸ known)
      simpa [targets, eq_comm] using inTargets

/-- The arrows after some calls of which none is refused: those before, and those that the calls ask for. -/
theorem mem_targets_after_iff {g : ColumnGraph} (consistent : g.Consistent) {calls : List GraphCall}
    (accepted : g.refusals calls = []) {s t : String} :
    t ∈ (g.after calls).targets s ↔ t ∈ g.targets s ∨ .arrow s t ∈ calls := by
  induction calls generalizing g with
  | nil => simp [after]
  | cons c rest ih =>
    obtain ⟨first, others⟩ := List.append_eq_nil_iff.1 accepted
    have none : (g.call c).2 = none := by simpa using first
    rw [after_cons, ih (consistent.call c) others, mem_targets_call consistent none, List.mem_cons, or_assoc,
      eq_comm (a := c)]

end ColumnGraph

/-! ### The calls of an edge -/

theorem SourceColumn.node?_eq (c : SourceColumn) (definition : String) :
    c.node? definition = c.tableColumn?.bind (·.name? definition) := by
  unfold SourceColumn.node? SourceColumn.tableColumn?
  split <;> rfl

theorem Edge.targetNode?_eq (e : Edge) (definition : String) :
    e.targetNode? definition = e.written?.bind (·.name? definition) := by
  unfold Edge.targetNode? Edge.written?
  split <;> rfl

theorem SourceColumn.mem_graphCalls_node {c : SourceColumn} {definition target name : String} :
    .node name ∈ c.graphCalls definition target ↔ c.node? definition = some name := by
  unfold SourceColumn.graphCalls
  cases c.node? definition with
  | none => simp
  | some own =>
    dsimp only
    split <;> simp [eq_comm]

/-- A source asks for an arrow to the target from the column it stands for, unless that is the target itself. -/
theorem SourceColumn.mem_graphCalls_arrow {c : SourceColumn} {definition target s t : String} :
    .arrow s t ∈ c.graphCalls definition target ↔
      t = target ∧ s ≠ t ∧ (c.node? definition).map ColumnGraph.key = some s := by
  unfold SourceColumn.graphCalls
  cases c.node? definition with
  | none => simp
  | some own =>
    dsimp only
    split
    · rename_i same
      have same : ColumnGraph.key own = target := by simpa using same
      simp only [List.mem_singleton, reduceCtorEq, Option.map_some, Option.some.injEq, false_iff]
      rintro ⟨rfl, different, rfl⟩
      exact different same
    · rename_i different
      have different : ColumnGraph.key own ≠ target := by simpa using different
      simp only [List.mem_cons, reduceCtorEq, List.not_mem_nil, or_false, false_or, GraphCall.arrow.injEq,
        Option.map_some, Option.some.injEq]
      constructor
      · rintro ⟨rfl, rfl⟩
        exact ⟨rfl, different, rfl⟩
      · rintro ⟨rfl, -, rfl⟩
        exact ⟨rfl, rfl⟩

namespace Edge

variable {e : Edge} {definition : String}

theorem tableColumns_eq {target : TableColumn} {id : String} (written : e.written? = some target)
    (takesPart : target.id? definition = some id) : e.tableColumns definition = target :: e.read := by
  rw [tableColumns, written]
  simp [takesPart]

/-- The identities of what an edge reads. -/
theorem mem_read_iff {id : String} :
    (∃ c ∈ e.read, c.id? definition = some id) ↔
      ∃ c ∈ e.sources, (c.node? definition).map ColumnGraph.key = some id := by
  simp only [Edge.read, List.mem_filterMap]
  constructor
  · rintro ⟨column, ⟨c, member, made⟩, same⟩
    exact ⟨c, member, by rw [c.node?_eq, made]; exact same⟩
  · rintro ⟨c, member, same⟩
    rw [c.node?_eq] at same
    cases made : c.tableColumn? with
    | none => simp [made] at same
    | some column => exact ⟨column, ⟨c, member, made⟩, by rwa [made] at same⟩

/-- An edge whose written column takes no part in the graph makes no calls; any other names the written column and
the columns it reads. -/
theorem graphCalls_cases (e : Edge) (definition : String) :
    ((∀ target ∈ e.written?, target.id? definition = none) ∧ e.graphCalls definition = []) ∨
      ∃ target name, e.written? = some target ∧ target.name? definition = some name ∧
        e.graphCalls definition = .node name :: .writer (ColumnGraph.key name) definition ::
          e.sources.flatMap (·.graphCalls definition (ColumnGraph.key name)) := by
  unfold graphCalls
  rw [targetNode?_eq]
  cases e.written? with
  | none => exact .inl ⟨nofun, rfl⟩
  | some target =>
    cases named : target.name? definition with
    | none =>
      refine .inl ⟨fun other same => ?_, by simp [named]⟩
      cases same
      simp [TableColumn.id?, named]
    | some name => exact .inr ⟨target, name, rfl, named, by simp [named]⟩

/-- The columns an edge asks for are those it brings into the graph. -/
theorem mem_graphCalls_node {id : String} :
    (∃ name, .node name ∈ e.graphCalls definition ∧ ColumnGraph.key name = id) ↔
      ∃ c ∈ e.tableColumns definition, c.id? definition = some id := by
  obtain ⟨absent, calls⟩ | ⟨target, name, written, named, calls⟩ := e.graphCalls_cases definition
  · have columns : e.tableColumns definition = [] := by
      unfold tableColumns
      split
      · rfl
      · rename_i target written
        rw [absent target written]
        rfl
    simp [calls, columns]
  · have targetId : target.id? definition = some (ColumnGraph.key name) := by rw [TableColumn.id?, named]; rfl
    rw [calls, tableColumns_eq written targetId, List.exists_mem_cons_iff, mem_read_iff, targetId]
    simp only [List.mem_cons, reduceCtorEq, false_or, List.mem_flatMap, SourceColumn.mem_graphCalls_node]
    constructor
    · rintro ⟨other, same | ⟨c, member, node⟩, rfl⟩
      · cases same
        exact .inl rfl
      · exact .inr ⟨c, member, by rw [node]; rfl⟩
    · rintro (same | ⟨c, member, node⟩)
      · exact ⟨name, .inl rfl, Option.some.inj same⟩
      · obtain ⟨other, node, same⟩ := Option.map_eq_some_iff.1 node
        exact ⟨other, .inr ⟨c, member, node⟩, same⟩

/-- The arrows an edge asks for are those by which it links columns. -/
theorem mem_graphCalls_arrow {s t : String} : .arrow s t ∈ e.graphCalls definition ↔ e.links definition s t := by
  obtain ⟨absent, calls⟩ | ⟨target, name, written, named, calls⟩ := e.graphCalls_cases definition
  · rw [calls]
    constructor
    · nofun
    · rintro ⟨-, ⟨target, written, same⟩, -⟩
      cases (absent target written).symm.trans same
  · have targetId : target.id? definition = some (ColumnGraph.key name) := by rw [TableColumn.id?, named]; rfl
    rw [calls]
    simp only [links, List.mem_cons, reduceCtorEq, false_or, List.mem_flatMap, SourceColumn.mem_graphCalls_arrow,
      mem_read_iff, written, Option.mem_def, Option.some.injEq, exists_eq_left', targetId]
    constructor
    · rintro ⟨c, member, rfl, different, node⟩
      exact ⟨different, rfl, c, member, node⟩
    · rintro ⟨different, rfl, c, member, node⟩
      exact ⟨c, member, rfl, different, node⟩

/-- What an edge links it brings into the graph. -/
theorem links_tableColumns {s t : String} (linked : e.links definition s t) :
    (∃ c ∈ e.tableColumns definition, c.id? definition = some s) ∧
      ∃ c ∈ e.tableColumns definition, c.id? definition = some t := by
  obtain ⟨-, ⟨target, written, targetId⟩, source, member, sourceId⟩ := linked
  rw [tableColumns_eq written targetId]
  exact ⟨⟨source, List.mem_cons_of_mem _ member, sourceId⟩, target, List.mem_cons_self, targetId⟩

end Edge

namespace Lineage

variable {l : Lineage}

theorem touches_iff {id : String} :
    l.touches id ↔ ∃ e ∈ l.edges, ∃ c ∈ e.tableColumns l.name, c.id? l.name = some id := by
  simp only [touches, tableColumns, List.mem_flatMap]
  constructor
  · rintro ⟨c, ⟨e, edge, member⟩, same⟩
    exact ⟨e, edge, c, member, same⟩
  · rintro ⟨e, edge, c, member, same⟩
    exact ⟨c, ⟨e, edge, member⟩, same⟩

theorem links_touches {s t : String} (linked : l.links s t) : l.touches s ∧ l.touches t := by
  obtain ⟨e, member, linked⟩ := linked
  obtain ⟨source, target⟩ := Edge.links_tableColumns linked
  exact ⟨touches_iff.2 ⟨e, member, source⟩, touches_iff.2 ⟨e, member, target⟩⟩

end Lineage

namespace ColumnGraph

/-- The columns of the graph of definitions are those that some definition touches. -/
theorem mem_ids_ofLineages {ls : List Lineage} {id : String} : id ∈ (ofLineages ls).ids ↔ ∃ l ∈ ls, l.touches id := by
  rw [ofLineages_eq, mem_ids_after_iff]
  simp only [Lineage.touches_iff, ← Edge.mem_graphCalls_node, Lineage.graphCalls, List.mem_flatMap]
  constructor
  · rintro (empty | ⟨_, ⟨l, member, e, edge, called⟩, name, rfl, same⟩)
    · cases empty
    · exact ⟨l, member, e, edge, name, called, same⟩
  · rintro ⟨l, member, e, edge, name, called, same⟩
    exact .inr ⟨_, ⟨l, member, e, edge, called⟩, name, rfl, same⟩

/-- The arrows of the graph of definitions are those by which some definition links two columns. -/
theorem mem_targets_ofLineages {ls : List Lineage} {s t : String} :
    t ∈ (ofLineages ls).targets s ↔ ∃ l ∈ ls, l.links s t := by
  rw [ofLineages_eq, mem_targets_after_iff Consistent.empty (refusals_lineages ls)]
  simp only [Lineage.links, ← Edge.mem_graphCalls_arrow, Lineage.graphCalls, List.mem_flatMap]
  exact ⟨fun either => either.resolve_left nofun, .inr⟩

end ColumnGraph

end ColumnFlow
