import ColumnFlow.Lineage.Extract
import ColumnFlow.Proofs.CycleDetection
import ColumnFlow.Proofs.GraphColumns

/-!
# The order of definitions does not matter

A graph keeps columns, arrows and writers in the order in which they were added first. Its answers are sorted, and
depend only on which columns, arrows and writers there are (`ColumnGraph.Alike`). Of the graph of many definitions
these are known from the definitions one by one: a column is one that some definition touches, an arrow one by which
some definition links two columns, and a writer of a column is a definition with an edge into it.
-/

namespace ColumnFlow

theorem sortTexts_eq_of_perm {texts texts' : List String} (perm : texts.Perm texts') :
    sortTexts texts = sortTexts texts' := by
  refine List.Perm.eq_of_pairwise (fun a b _ _ => String.le_antisymm) (sortTexts_sorted texts) (sortTexts_sorted texts') ?_
  exact (List.mergeSort_perm texts _).trans (perm.trans (List.mergeSort_perm texts' _).symm)

/-- A strictly increasing list is known by its members. -/
theorem eq_of_increasing {texts texts' : List String} (increasing : texts.Pairwise (· < ·))
    (increasing' : texts'.Pairwise (· < ·)) (same : ∀ text, text ∈ texts ↔ text ∈ texts') : texts = texts' := by
  have distinct : ∀ {a b : String}, a < b → a ≠ b := fun less equal => String.lt_irrefl _ (equal ▸ less)
  have perm := (List.perm_ext_iff_of_nodup (increasing.imp distinct) (increasing'.imp distinct)).2 same
  exact perm.eq_of_pairwise (fun _ _ _ _ less greater => absurd greater (String.lt_asymm less)) increasing increasing'

namespace ColumnGraph

/-- The definition is noted as a writer of the column. -/
def WrittenBy (g : ColumnGraph) (id definition : String) : Prop := ∃ n ∈ g.nodes, n.id = id ∧ definition ∈ n.writers

/-- The graphs have the same columns, arrows and writers, in any order. -/
structure Alike (g g' : ColumnGraph) : Prop where
  ids : g.ids.Perm g'.ids
  targets : ∀ id, (g.targets id).Perm (g'.targets id)
  sources : ∀ id, (g.sources id).Perm (g'.sources id)
  writers : ∀ id definition, g.WrittenBy id definition ↔ g'.WrittenBy id definition

/-! ### Answers of graphs that are alike -/

theorem sortedNodes_ids (g : ColumnGraph) : g.sortedNodes.map (·.id) = sortTexts g.ids :=
  List.map_mergeSort fun _ _ _ _ => rfl

/-- The arrows are those of the columns one by one. -/
theorem Consistent.arrows_eq {g : ColumnGraph} (c : g.Consistent) :
    g.arrows = g.ids.flatMap fun s => (g.targets s).map (s, ·) := by
  have run : ∀ a : Neighbours, a.known.Nodup →
      a.flatMap (fun entry => entry.2.map (entry.1, ·)) = a.known.flatMap fun s => (a.of s).map (s, ·) := by
    intro a distinct
    induction a with
    | nil => rfl
    | cons entry rest ih =>
      obtain ⟨first, others⟩ := entry
      obtain ⟨fresh, distinct⟩ := List.nodup_cons.1 distinct
      have here : Neighbours.of ((first, others) :: rest) first = others := by simp [Neighbours.of]
      have later : ∀ s ∈ Neighbours.known rest, Neighbours.of ((first, others) :: rest) s = Neighbours.of rest s := by
        intro s member
        have other : (s == first) = false := beq_false_of_ne fun same => fresh (same ▸ member)
        simp [Neighbours.of, List.lookup_cons, other]
      have known : Neighbours.known ((first, others) :: rest) = first :: Neighbours.known rest := rfl
      rw [known, List.flatMap_cons, List.flatMap_cons, here, ih distinct]
      exact congrArg _ (List.flatMap_congr fun s member => by rw [later s member])
  exact c.forwardKnown ▸ run g.forward (c.forwardKnown ▸ c.distinct)

/-- A search sees nothing of a graph but the children of columns. -/
theorem visit_congr {g g' : ColumnGraph} (same : ∀ id, g.children id = g'.children id) (n : Nat) (stack : List String)
    (id : String) (search : CycleSearch) : g.visit n stack id search = g'.visit n stack id search := by
  induction n generalizing stack id search with
  | zero => rfl
  | succ n ih => simp only [visit, same, ih]

namespace Alike

variable {g g' : ColumnGraph} (alike : g.Alike g')

include alike

theorem children_eq (id : String) : g.children id = g'.children id := sortTexts_eq_of_perm (alike.targets id)

theorem parents_eq (id : String) : g.parents id = g'.parents id := sortTexts_eq_of_perm (alike.sources id)

theorem sortedIds_eq : g.sortedNodes.map (·.id) = g'.sortedNodes.map (·.id) := by
  rw [sortedNodes_ids, sortedNodes_ids, sortTexts_eq_of_perm alike.ids]

/-- The columns whose identities have a property that is the same in both graphs. -/
theorem filtered_eq {p p' : String → Bool} (same : ∀ id, p id = p' id) :
    sortTexts ((g.nodes.filter fun node => p node.id).map (·.id)) =
      sortTexts ((g'.nodes.filter fun node => p' node.id).map (·.id)) := by
  have ids_filter (g : ColumnGraph) : (g.nodes.filter fun node => p node.id).map (·.id) = g.ids.filter p := by
    rw [ColumnGraph.ids, List.filter_map]
    rfl
  obtain rfl : p = p' := funext same
  rw [ids_filter, ids_filter]
  exact sortTexts_eq_of_perm (alike.ids.filter p)

theorem roots_eq : g.roots = g'.roots := alike.filtered_eq fun id => (alike.sources id).isEmpty_eq

theorem leaves_eq : g.leaves = g'.leaves := alike.filtered_eq fun id => (alike.targets id).isEmpty_eq

theorem arrow_eq : g.Arrow = g'.Arrow := funext fun s => funext fun t => propext ((alike.targets s).mem_iff (a := t))

theorem descendants_eq (c : g.Consistent) (c' : g'.Consistent) (start : List String) :
    g.descendants start = g'.descendants start := by
  obtain ⟨increasing, reached⟩ := c.mem_descendants start
  obtain ⟨increasing', reached'⟩ := c'.mem_descendants start
  exact eq_of_increasing increasing increasing' fun id => by rw [reached, reached', alike.arrow_eq]

theorem ancestors_eq (c : g.Consistent) (c' : g'.Consistent) (start : List String) :
    g.ancestors start = g'.ancestors start := by
  obtain ⟨increasing, reached⟩ := c.mem_ancestors start
  obtain ⟨increasing', reached'⟩ := c'.mem_ancestors start
  exact eq_of_increasing increasing increasing' fun id => by rw [reached, reached', alike.arrow_eq]

theorem arrows_length (c : g.Consistent) (c' : g'.Consistent) : g.arrows.length = g'.arrows.length := by
  have others := (alike.ids.flatMap_right fun s => (g.targets s).map (s, ·)).length_eq
  rw [c.arrows_eq, c'.arrows_eq, others]
  simp only [List.length_flatMap, List.length_map, (alike.targets _).length_eq]

/-- The search for a cycle goes through columns in the order of their names, and only asks for their targets. -/
theorem cycle?_eq : g.cycle? = g'.cycle? := by
  have rounds : g.nodes.length = g'.nodes.length := by simpa [ColumnGraph.ids] using alike.ids.length_eq
  let enterId (g : ColumnGraph) (search : CycleSearch) (id : String) : Except BackArrow CycleSearch :=
    if search.seen.contains id then .ok search else g.visit g.nodes.length [] id search
  have byId (g : ColumnGraph) : g.sortedNodes.foldlM g.enter {} = (g.sortedNodes.map (·.id)).foldlM (enterId g) {} := by
    rw [List.foldlM_map]
    rfl
  have same : enterId g = enterId g' := by
    funext search id
    simp only [enterId, rounds, visit_congr alike.children_eq]
  rw [cycle?, cycle?, backArrow?, backArrow?, byId, byId, same, alike.sortedIds_eq]

end Alike

/-! ### Who writes a column -/

variable {g : ColumnGraph} {id definition : String}

theorem writtenBy_addNode (g : ColumnGraph) (name : String) :
    (g.addNode name).WrittenBy id definition ↔ g.WrittenBy id definition := by
  unfold addNode
  split
  · rfl
  · simp [WrittenBy]

/-- A writer is entered under its name, and not if it has none. -/
theorem writtenBy_addWriter {target writer : String} (known : target ∈ g.ids) :
    (g.addWriter target writer).WrittenBy id definition ↔
      g.WrittenBy id definition ∨ definition ≠ "" ∧ target = id ∧ writer = definition := by
  unfold addWriter
  split
  · rename_i nameless
    obtain rfl : writer = "" := by simpa using nameless
    refine ⟨.inl, fun either => either.resolve_right ?_⟩
    rintro ⟨named, -, rfl⟩
    exact named rfl
  · rename_i named
    have named : writer ≠ "" := by simpa using named
    obtain ⟨own, member, same⟩ := List.mem_map.1 known
    simp only [WrittenBy, List.mem_map]
    constructor
    · rintro ⟨_, ⟨n, old, rfl⟩, sameId, written⟩
      split at sameId <;> split at written <;> grind
    · rintro (⟨n, old, sameId, written⟩ | ⟨-, rfl, rfl⟩)
      · refine ⟨_, ⟨n, old, rfl⟩, ?_, ?_⟩ <;> split <;> simp_all
      · refine ⟨_, ⟨own, member, rfl⟩, ?_, ?_⟩ <;> split <;> simp_all

theorem writtenBy_addSource (source : SourceColumn) (target writer : String) (g : ColumnGraph) :
    (addSource writer target g source).WrittenBy id definition ↔ g.WrittenBy id definition := by
  unfold addSource
  split
  · rfl
  · rename_i name _
    rw [← writtenBy_addNode g name]
    split
    · rfl
    · simp only [WrittenBy, connect_nodes]

/-- The definition writes the column through the edge. -/
def WritesBy (writer : String) (id definition : String) (e : Edge) : Prop :=
  definition ≠ "" ∧ (e.targetNode? writer).map key = some id ∧ writer = definition

theorem writtenBy_addEdge (writer : String) (g : ColumnGraph) (e : Edge) :
    (addEdge writer g e).WrittenBy id definition ↔ g.WrittenBy id definition ∨ WritesBy writer id definition e := by
  unfold addEdge WritesBy
  cases e.targetNode? writer with
  | none => simp
  | some name =>
    have known : key name ∈ (g.addNode name).ids := mem_ids_addNode.2 (.inr rfl)
    have sources := foldl_iff (P := (·.WrittenBy id definition)) (Q := fun _ => False)
      (fun g source => (writtenBy_addSource source (key name) writer g).trans (or_false _).symm.to_iff)
      e.sources ((g.addNode name).addWriter (key name) writer)
    simpa [writtenBy_addWriter known, writtenBy_addNode] using sources

/-- The writers of a column are the definitions that have a name and an edge into the column. -/
theorem writtenBy_ofLineages (ls : List Lineage) :
    (ofLineages ls).WrittenBy id definition ↔ ∃ l ∈ ls, ∃ e ∈ l.edges, WritesBy l.name id definition e := by
  have each (g : ColumnGraph) (l : Lineage) := foldl_iff (P := (·.WrittenBy id definition)) (writtenBy_addEdge l.name) l.edges g
  have run := foldl_iff (P := (·.WrittenBy id definition)) (f := addLineage) each ls {}
  exact run.trans (or_iff_right (by simp [WrittenBy]))

/-! ### Definitions in another order -/

theorem ofLineages_consistent (ls : List Lineage) : (ofLineages ls).Consistent :=
  ofLineages_eq ls ▸ Consistent.empty.after _

/-- Columns, arrows and writers do not depend on the order in which definitions come. -/
theorem ofLineages_alike {ls ls' : List Lineage} (perm : ls.Perm ls') : (ofLineages ls).Alike (ofLineages ls') := by
  have some {P : Lineage → Prop} : (∃ l ∈ ls, P l) ↔ ∃ l ∈ ls', P l := by simp only [perm.mem_iff]
  have c := ofLineages_consistent ls
  have c' := ofLineages_consistent ls'
  have arrows (s t : String) : t ∈ (ofLineages ls).targets s ↔ t ∈ (ofLineages ls').targets s := by
    rw [mem_targets_ofLineages, mem_targets_ofLineages, some]
  refine ⟨?_, fun s => ?_, fun t => ?_, fun id definition => ?_⟩
  · refine (List.perm_ext_iff_of_nodup c.distinct c'.distinct).2 fun id => ?_
    rw [mem_ids_ofLineages, mem_ids_ofLineages, some]
  · exact (List.perm_ext_iff_of_nodup (c.targetsDistinct s) (c'.targetsDistinct s)).2 (arrows s)
  · refine (List.perm_ext_iff_of_nodup (c.sourcesDistinct t) (c'.sourcesDistinct t)).2 fun s => ?_
    rw [← c.mirrored, ← c'.mirrored, arrows]
  · rw [writtenBy_ofLineages, writtenBy_ofLineages, some]

/-- The graph of definitions in another order has the same columns with the same writers, and gives the same answers:
the parents and children of columns, the number of arrows, the roots and leaves, what is reached in both directions,
and the cycle that is found. -/
theorem ofLineages_perm {ls ls' : List Lineage} (perm : ls.Perm ls') :
    let g := ofLineages ls
    let g' := ofLineages ls'
    g.sortedNodes.map (·.id) = g'.sortedNodes.map (·.id) ∧
      (∀ n ∈ g.nodes, ∀ n' ∈ g'.nodes, n.id = n'.id → ∀ w, w ∈ n.writers ↔ w ∈ n'.writers) ∧
      (∀ id, g.parents id = g'.parents id) ∧ (∀ id, g.children id = g'.children id) ∧
      g.arrows.length = g'.arrows.length ∧ g.roots = g'.roots ∧ g.leaves = g'.leaves ∧
      (∀ start, g.ancestors start = g'.ancestors start) ∧ (∀ start, g.descendants start = g'.descendants start) ∧
      g.cycle? = g'.cycle? := by
  intro g g'
  have alike : g.Alike g' := ofLineages_alike perm
  have c : g.Consistent := ofLineages_consistent ls
  have c' : g'.Consistent := ofLineages_consistent ls'
  -- a column has one node, so that what is known of its writers is known of the node
  have noted {g : ColumnGraph} (c : g.Consistent) {n : ColumnNode} (member : n ∈ g.nodes) (w : String) :
      w ∈ n.writers ↔ g.WrittenBy n.id w := by
    refine ⟨fun written => ⟨n, member, rfl, written⟩, ?_⟩
    rintro ⟨m, other, same, written⟩
    exact List.inj_on_of_nodup_map c.distinct other member same ▸ written
  refine ⟨alike.sortedIds_eq, fun n member n' member' same w => ?_, alike.parents_eq, alike.children_eq,
    alike.arrows_length c c', alike.roots_eq, alike.leaves_eq, alike.ancestors_eq c c', alike.descendants_eq c c',
    alike.cycle?_eq⟩
  rw [noted c member, noted c' member', alike.writers, same]

/-- Two definitions, each of which reads what the other one writes. The columns come in another order when the
definitions do. -/
theorem ofLineages_perm_reverse :
    let ls := extractAll [⟨"p", "INSERT INTO dbo.T (x) SELECT y FROM dbo.u", ""⟩,
      ⟨"q", "INSERT INTO dbo.U (y) SELECT x FROM dbo.t", ""⟩] {}
    ls.Perm ls.reverse ∧ (ofLineages ls).ids ≠ (ofLineages ls.reverse).ids ∧
      (ofLineages ls).parents "dbo.u.y" = (ofLineages ls.reverse).parents "dbo.u.y" ∧
      (ofLineages ls).cycle? = (ofLineages ls.reverse).cycle? := by
  intro ls
  have perm : ls.Perm ls.reverse := (List.reverse_perm ls).symm
  obtain ⟨-, -, parents, -, -, -, -, -, -, cycle⟩ := ofLineages_perm perm
  exact ⟨perm, by decide +kernel, parents _, cycle⟩

end ColumnGraph

end ColumnFlow
