import ColumnFlow.Graph.Build
import ColumnFlow.Proofs.EdgeForm

/-!
# The two directions of the graph agree

A graph keeps its columns in one list and its arrows in two, one for each direction, and each of them is changed
on its own. `ColumnGraph.Consistent` says that they fit together: the two directions know exactly the columns of
the graph, an arrow of one direction is an arrow of the other, and arrows join two different columns once.

Every call that changes a graph keeps it consistent (`Consistent.call`), so every graph that calls build from the
empty one is. The graph of many definitions is built by such calls, and none of them is refused.
-/

namespace ColumnFlow

namespace Neighbours

/-- The columns whose neighbours are kept. -/
def known (a : Neighbours) : List String := a.map (·.1)

variable (a : Neighbours)

@[simp] theorem known_enter (id : String) : (a.enter id).known = a.known ++ [id] := by
  simp [known, enter]

@[simp] theorem known_add (id other : String) : (a.add id other).known = a.known := by
  simp only [known, add, List.map_map]
  refine List.map_congr_left fun entry _ => ?_
  simp only [Function.comp]
  split <;> rfl

@[simp] theorem of_enter (id x : String) : (a.enter id).of x = a.of x := by
  unfold of enter
  rw [List.lookup_append]
  cases found : a.lookup x with
  | some others => rfl
  | none => by_cases same : x == id <;> simp [List.lookup_cons, same]

/-- The neighbours of one column grow by a new one, and those of the others stay. -/
theorem of_add (id other x : String) : (a.add id other).of x =
      if x = id ∧ id ∈ a.known ∧ other ∉ a.of id then a.of x ++ [other] else a.of x := by
  induction a with
  | nil => simp [add, of, known]
  | cons entry rest ih =>
    obtain ⟨first, others⟩ := entry
    by_cases here : x = first
    · subst here
      by_cases same : x = id
      · subst same
        by_cases listed : other ∈ others <;> simp [add, of, known, listed]
      · simp [add, of, same]
    · have elsewhere : (x == first) = false := by simpa using here
      have step : (add ((first, others) :: rest) id other).of x = (add rest id other).of x := by
        simp only [add, of, List.map_cons]
        split <;> simp [List.lookup_cons, elsewhere]
      have skip : of ((first, others) :: rest) x = of rest x := by simp [of, List.lookup_cons, elsewhere]
      rw [step, ih, skip]
      by_cases same : x = id
      · subst same
        have listed : x ∈ known ((first, others) :: rest) ↔ x ∈ known rest := by simp [known, here]
        simp only [skip, listed]
      · simp [same]

theorem mem_of_add {a : Neighbours} {id other x y : String} (entered : id ∈ a.known) :
    y ∈ (a.add id other).of x ↔ y ∈ a.of x ∨ x = id ∧ y = other := by
  rw [of_add]
  split
  · rename_i added
    simp [added.1]
  · rename_i kept
    constructor
    · exact .inl
    · rintro (there | ⟨rfl, rfl⟩)
      · exact there
      · exact Decidable.byContradiction fun absent => kept ⟨rfl, entered, absent⟩

theorem nodup_of_add {a : Neighbours} (id other : String) {x : String} (distinct : (a.of x).Nodup) :
    ((a.add id other).of x).Nodup := by
  rw [of_add]
  split
  · rename_i added
    obtain ⟨rfl, -, absent⟩ := added
    exact (List.perm_append_singleton other _).nodup_iff.2 (List.nodup_cons.2 ⟨absent, distinct⟩)
  · exact distinct

end Neighbours

/-- A call that changes a graph. -/
inductive GraphCall where
  | node (name : String)
  | writer (id definition : String)
  | arrow (source target : String)

namespace ColumnGraph

/-- The identities of the columns of a graph. -/
def ids (g : ColumnGraph) : List String := g.nodes.map (·.id)

/-- The graph after a call, and what is wrong with the call if it is refused. -/
def call (g : ColumnGraph) : GraphCall → ColumnGraph × Option GraphError
  | .node name => (g.addNode name, none)
  | .writer id definition => (g.addWriter id definition, none)
  | .arrow source target => g.connect source target

/-- The graph after some calls. -/
def after (g : ColumnGraph) (calls : List GraphCall) : ColumnGraph := calls.foldl (fun g c => (g.call c).1) g

/-- What is wrong with the calls that are refused. -/
def refusals (g : ColumnGraph) : List GraphCall → List GraphError
  | [] => []
  | c :: rest => (g.call c).2.toList ++ (g.call c).1.refusals rest

/-- Columns and arrows of both directions fit together. -/
structure Consistent (g : ColumnGraph) : Prop where
  /-- A column is identified by its folded name. -/
  folded : ∀ n ∈ g.nodes, n.id = key n.name
  distinct : g.ids.Nodup
  forwardKnown : g.forward.known = g.ids
  backwardKnown : g.backward.known = g.ids
  mirrored : ∀ s t, t ∈ g.targets s ↔ s ∈ g.sources t
  targetsDistinct : ∀ id, (g.targets id).Nodup
  sourcesDistinct : ∀ id, (g.sources id).Nodup
  /-- An arrow joins two different columns of the graph. -/
  ends : ∀ s t, t ∈ g.targets s → s ∈ g.ids ∧ t ∈ g.ids ∧ s ≠ t

/-! ### What each call does to the columns -/

variable {g : ColumnGraph}

theorem has_iff {id : String} : g.has id = true ↔ id ∈ g.ids := by
  simp [has, ids]

theorem ids_addNode (g : ColumnGraph) (name : String) :
    (g.addNode name).ids = if key name ∈ g.ids then g.ids else g.ids ++ [key name] := by
  unfold addNode
  by_cases there : key name ∈ g.ids
  · rw [if_pos (has_iff.2 there), if_pos there]
  · rw [if_neg (mt has_iff.1 there), if_neg there]
    simp [ids]

theorem mem_ids_addNode {name id : String} : id ∈ (g.addNode name).ids ↔ id ∈ g.ids ∨ id = key name := by
  rw [ids_addNode]
  split
  · rename_i there
    exact ⟨.inl, fun either => either.elim (fun old => old) fun same => same ▸ there⟩
  · simp

@[simp] theorem ids_addWriter (g : ColumnGraph) (id definition : String) : (g.addWriter id definition).ids = g.ids := by
  unfold addWriter
  split
  · rfl
  · simp only [ids, List.map_map]
    refine List.map_congr_left fun node _ => ?_
    simp only [Function.comp]
    split <;> rfl

/-- Writers are noted in the columns; everything else of a graph stays. -/
theorem addWriter_eq (g : ColumnGraph) (id definition : String) :
    (g.addWriter id definition).forward = g.forward ∧ (g.addWriter id definition).backward = g.backward ∧
      ∀ n ∈ (g.addWriter id definition).nodes, ∃ m ∈ g.nodes, n.id = m.id ∧ n.name = m.name := by
  unfold addWriter
  split
  · exact ⟨rfl, rfl, fun n member => ⟨n, member, rfl, rfl⟩⟩
  · refine ⟨rfl, rfl, fun n member => ?_⟩
    obtain ⟨m, found, rfl⟩ := List.mem_map.1 member
    refine ⟨m, found, ?_⟩
    split <;> exact ⟨rfl, rfl⟩

/-- An arrow is refused for a reason, and then the graph is as before; or it is added on both sides. -/
theorem connect_cases (g : ColumnGraph) (s t : String) :
    (∃ e, g.connect s t = (g, some e)) ∨
      (s ∈ g.ids ∧ t ∈ g.ids ∧ s ≠ t ∧
        g.connect s t = ({ g with forward := g.forward.add s t, backward := g.backward.add t s }, none)) := by
  unfold connect
  by_cases source : s ∈ g.ids
  · by_cases target : t ∈ g.ids
    · by_cases same : s = t
      · exact .inl ⟨.selfLoop s, by simp [has_iff.2 target, same]⟩
      · exact .inr ⟨source, target, same, by simp [has_iff.2 source, has_iff.2 target, same]⟩
    · have absent : g.has t = false := Bool.eq_false_iff.2 (mt has_iff.1 target)
      exact .inl ⟨.noTarget t, by simp [has_iff.2 source, absent]⟩
  · have absent : g.has s = false := Bool.eq_false_iff.2 (mt has_iff.1 source)
    exact .inl ⟨.noSource s, by simp [absent]⟩

theorem connect_nodes (g : ColumnGraph) (s t : String) : (g.connect s t).1.nodes = g.nodes := by
  obtain ⟨e, refused⟩ | ⟨-, -, -, added⟩ := g.connect_cases s t
  · rw [refused]
  · rw [added]

/-- An arrow between two different columns of the graph is never refused. -/
theorem connect_accepted {s t : String} (source : s ∈ g.ids) (target : t ∈ g.ids)
    (different : s ≠ t) : (g.connect s t).2 = none := by
  simp [connect, has_iff.2 source, has_iff.2 target, different]

/-- Only a call for a node makes a column known, and none is forgotten. -/
theorem mem_ids_call {g : ColumnGraph} {c : GraphCall} {id : String} :
    id ∈ (g.call c).1.ids ↔ id ∈ g.ids ∨ ∃ name, c = .node name ∧ key name = id := by
  cases c with
  | node name =>
    rw [call, mem_ids_addNode]
    simp [eq_comm]
  | writer writerId definition =>
    rw [call, ids_addWriter]
    simp
  | arrow source target =>
    rw [call, ids, connect_nodes]
    simp [ids]

/-- A fold whose steps each add one reason for a property. -/
theorem foldl_iff {α σ : Type} {f : σ → α → σ} {P : σ → Prop} {Q : α → Prop} (step : ∀ s x, P (f s x) ↔ P s ∨ Q x)
    (xs : List α) (s : σ) : P (xs.foldl f s) ↔ P s ∨ ∃ x ∈ xs, Q x := by
  induction xs generalizing s with
  | nil => simp
  | cons x rest ih => rw [List.foldl_cons, ih, step, List.exists_mem_cons_iff, or_assoc]

/-- The columns after some calls: those before, and those that the calls name. -/
theorem mem_ids_after_iff {g : ColumnGraph} {calls : List GraphCall} {id : String} :
    id ∈ (g.after calls).ids ↔ id ∈ g.ids ∨ ∃ c ∈ calls, ∃ name, c = .node name ∧ key name = id :=
  foldl_iff (P := (id ∈ ·.ids)) (fun g c => mem_ids_call (g := g) (c := c)) calls g

/-! ### Calls keep graphs consistent -/

namespace Consistent

variable {g : ColumnGraph}

theorem empty : ({} : ColumnGraph).Consistent where
  folded := nofun
  distinct := List.nodup_nil
  forwardKnown := rfl
  backwardKnown := rfl
  mirrored _ _ := by simp [targets, sources, Neighbours.of]
  targetsDistinct _ := List.nodup_nil
  sourcesDistinct _ := List.nodup_nil
  ends _ _ := nofun

/-- A new column has no neighbours yet, and one that is known stays as it is. -/
theorem addNode (c : g.Consistent) (name : String) : (g.addNode name).Consistent := by
  unfold ColumnGraph.addNode
  split
  · exact c
  · rename_i absent
    have absent : key name ∉ g.ids := mt has_iff.2 absent
    refine ⟨?_, ?_, ?_, ?_, ?_, ?_, ?_, ?_⟩
    · intro n member
      obtain old | rfl := (List.mem_append.1 member).imp_right List.mem_singleton.1
      · exact c.folded n old
      · rfl
    · simp only [ids, List.map_append, List.map_cons, List.map_nil]
      exact (List.perm_append_singleton _ _).nodup_iff.2 (List.nodup_cons.2 ⟨absent, c.distinct⟩)
    · simp [ids, c.forwardKnown]
    · simp [ids, c.backwardKnown]
    · simpa [targets, sources] using c.mirrored
    · simpa [targets] using c.targetsDistinct
    · simpa [sources] using c.sourcesDistinct
    · intro s t arrow
      obtain ⟨source, target, different⟩ := c.ends s t (by simpa [targets] using arrow)
      exact ⟨by simp [ids] at source ⊢; exact .inl source, by simp [ids] at target ⊢; exact .inl target, different⟩

/-- The writer of a column is entered in place, so columns and arrows stay. -/
theorem addWriter (c : g.Consistent) (id definition : String) : (g.addWriter id definition).Consistent := by
  obtain ⟨forward, backward, columns⟩ := g.addWriter_eq id definition
  have targets_eq : (g.addWriter id definition).targets = g.targets := by
    funext x
    rw [targets, targets, forward]
  have sources_eq : (g.addWriter id definition).sources = g.sources := by
    funext x
    rw [sources, sources, backward]
  constructor
  case folded =>
    intro n member
    obtain ⟨m, found, sameId, sameName⟩ := columns n member
    rw [sameId, sameName, c.folded m found]
  case distinct => simpa using c.distinct
  case forwardKnown => rw [forward, ids_addWriter, c.forwardKnown]
  case backwardKnown => rw [backward, ids_addWriter, c.backwardKnown]
  case mirrored => rw [targets_eq, sources_eq]; exact c.mirrored
  case targetsDistinct => rw [targets_eq]; exact c.targetsDistinct
  case sourcesDistinct => rw [sources_eq]; exact c.sourcesDistinct
  case ends => rw [targets_eq, ids_addWriter]; exact c.ends

/-- An arrow is entered on both sides or refused. -/
theorem connect (c : g.Consistent) (s t : String) : (g.connect s t).1.Consistent := by
  obtain ⟨e, refused⟩ | ⟨source, target, different, added⟩ := g.connect_cases s t
  · rwa [refused]
  · rw [added]
    have inTargets : ∀ x y, y ∈ (g.forward.add s t).of x ↔ y ∈ g.targets x ∨ x = s ∧ y = t := fun x y =>
      Neighbours.mem_of_add (c.forwardKnown ▸ source)
    have inSources : ∀ x y, y ∈ (g.backward.add t s).of x ↔ y ∈ g.sources x ∨ x = t ∧ y = s := fun x y =>
      Neighbours.mem_of_add (c.backwardKnown ▸ target)
    constructor
    case folded => exact c.folded
    case distinct => exact c.distinct
    case forwardKnown => simpa [ids] using c.forwardKnown
    case backwardKnown => simpa [ids] using c.backwardKnown
    case mirrored =>
      intro x y
      show y ∈ (g.forward.add s t).of x ↔ x ∈ (g.backward.add t s).of y
      rw [inTargets, inSources, c.mirrored, and_comm]
    case targetsDistinct => exact fun x => Neighbours.nodup_of_add s t (c.targetsDistinct x)
    case sourcesDistinct => exact fun x => Neighbours.nodup_of_add t s (c.sourcesDistinct x)
    case ends =>
      intro x y arrow
      obtain old | ⟨rfl, rfl⟩ := (inTargets x y).1 arrow
      · exact c.ends x y old
      · exact ⟨source, target, different⟩

theorem call (c : g.Consistent) (step : GraphCall) : (g.call step).1.Consistent := by
  cases step with
  | node name => exact c.addNode name
  | writer id definition => exact c.addWriter id definition
  | arrow source target => exact c.connect source target

theorem after (c : g.Consistent) (calls : List GraphCall) : (g.after calls).Consistent := by
  induction calls generalizing g with
  | nil => exact c
  | cons first rest ih => exact ih (c.call first)

end Consistent

/-! ### Names and identities -/

/-- Every column of the graph has a name with the property. -/
def Named (P : String → Prop) (g : ColumnGraph) : Prop := ∀ n ∈ g.nodes, P n.name

/-- What holds of the names of columns and of those that are called for holds after a call. -/
theorem Named.call {P : String → Prop} (named : g.Named P) {step : GraphCall}
    (fits : ∀ name, step = .node name → P name) : (g.call step).1.Named P := by
  cases step with
  | node name =>
    intro n member
    rw [ColumnGraph.call, addNode] at member
    split at member
    · exact named n member
    · obtain old | rfl := (List.mem_append.1 member).imp_right List.mem_singleton.1
      · exact named n old
      · exact fits name rfl
  | writer id definition =>
    intro n member
    obtain ⟨m, found, -, sameName⟩ := (g.addWriter_eq id definition).2.2 n member
    exact sameName ▸ named m found
  | arrow source target =>
    intro n member
    rw [ColumnGraph.call, connect_nodes] at member
    exact named n member

theorem Named.after {P : String → Prop} (named : g.Named P) {calls : List GraphCall}
    (fits : ∀ name, .node name ∈ calls → P name) : (g.after calls).Named P := by
  induction calls generalizing g with
  | nil => exact named
  | cons first rest ih =>
    refine ih (named.call fun name same => fits name ?_) fun name member => fits name (.tail _ member)
    exact same ▸ List.mem_cons_self

/-- Where folding twice is folding once, a column is found under its identity. -/
theorem Consistent.node?_id (c : g.Consistent) {n : ColumnNode} (member : n ∈ g.nodes)
    (fixed : key n.id = n.id) : g.node? n.id = some n := by
  rw [node?, fixed]
  exact (find?_key_iff c.distinct n.id n).2 ⟨member, rfl⟩

end ColumnGraph

/-! ### The calls that build the graph of definitions -/

/-- The calls for one source of a target column. -/
def SourceColumn.graphCalls (definition target : String) (c : SourceColumn) : List GraphCall :=
  match c.node? definition with
  | none => []
  | some name =>
    .node name :: if ColumnGraph.key name == target then [] else [.arrow (ColumnGraph.key name) target]

def Edge.graphCalls (definition : String) (e : Edge) : List GraphCall :=
  match e.targetNode? definition with
  | none => []
  | some name =>
    let target := ColumnGraph.key name
    .node name :: .writer target definition :: e.sources.flatMap (·.graphCalls definition target)

def Lineage.graphCalls (l : Lineage) : List GraphCall := l.edges.flatMap (·.graphCalls l.name)

namespace ColumnGraph

variable (definition : String) (g : ColumnGraph)

theorem after_cons (c : GraphCall) (rest : List GraphCall) : g.after (c :: rest) = (g.call c).1.after rest := rfl

theorem after_append (first rest : List GraphCall) :
    g.after (first ++ rest) = (g.after first).after rest := List.foldl_append

/-- A fold whose steps are calls is a list of calls. -/
theorem foldl_eq_after {α : Type} {step : ColumnGraph → α → ColumnGraph} {calls : α → List GraphCall}
    (same : ∀ g x, step g x = g.after (calls x)) (xs : List α) (g : ColumnGraph) :
    xs.foldl step g = g.after (xs.flatMap calls) := by
  induction xs generalizing g with
  | nil => rfl
  | cons x rest ih => rw [List.foldl_cons, ih, same, List.flatMap_cons, after_append]

theorem addSource_eq (definition target : String) (g : ColumnGraph) (c : SourceColumn) :
    addSource definition target g c = g.after (c.graphCalls definition target) := by
  unfold addSource SourceColumn.graphCalls
  cases c.node? definition with
  | none => rfl
  | some name =>
    dsimp only
    split <;> rfl

theorem addEdge_eq (e : Edge) : addEdge definition g e = g.after (e.graphCalls definition) := by
  unfold addEdge Edge.graphCalls
  cases e.targetNode? definition with
  | none => rfl
  | some name => exact foldl_eq_after (addSource_eq definition (key name)) e.sources _

theorem ofLineages_eq (ls : List Lineage) : ofLineages ls = ({} : ColumnGraph).after (ls.flatMap Lineage.graphCalls) :=
  foldl_eq_after (fun g l => foldl_eq_after (addEdge_eq l.name) l.edges g) ls {}

theorem refusals_append (first rest : List GraphCall) :
    g.refusals (first ++ rest) = g.refusals first ++ (g.after first).refusals rest := by
  induction first generalizing g with
  | nil => rfl
  | cons c more ih => simp [refusals, ih, after_cons]

/-- The target of a source is there, so that none of the arrows is refused. -/
theorem refusals_source {target : String} {g : ColumnGraph} (there : target ∈ g.ids)
    (c : SourceColumn) : g.refusals (c.graphCalls definition target) = [] := by
  unfold SourceColumn.graphCalls
  split
  · rfl
  · rename_i name _
    split
    · rfl
    · rename_i different
      have source : key name ∈ (g.addNode name).ids := mem_ids_addNode.2 (.inr rfl)
      have goal : target ∈ (g.addNode name).ids := mem_ids_addNode.2 (.inl there)
      simp [refusals, call, connect_accepted source goal (by simpa using different)]

theorem refusals_sources {target : String} (cs : List SourceColumn) {g : ColumnGraph}
    (there : target ∈ g.ids) : g.refusals (cs.flatMap (·.graphCalls definition target)) = [] := by
  induction cs generalizing g with
  | nil => rfl
  | cons c rest ih =>
    rw [List.flatMap_cons, refusals_append, refusals_source definition there, ih (mem_ids_after_iff.2 (.inl there))]
    rfl

theorem refusals_edge (e : Edge) : g.refusals (e.graphCalls definition) = [] := by
  unfold Edge.graphCalls
  split
  · rfl
  · rename_i name _
    have there : key name ∈ ((g.addNode name).addWriter (key name) definition).ids := by
      rw [ids_addWriter]
      exact mem_ids_addNode.2 (.inr rfl)
    simpa [refusals, call] using refusals_sources definition e.sources there

/-- Lists of calls that are never refused are not refused one after the other. -/
theorem refusals_flatMap {α : Type} {calls : α → List GraphCall} (accepted : ∀ g x, refusals g (calls x) = [])
    (xs : List α) (g : ColumnGraph) : g.refusals (xs.flatMap calls) = [] := by
  induction xs generalizing g with
  | nil => rfl
  | cons x rest ih => rw [List.flatMap_cons, refusals_append, accepted, ih]; rfl

theorem refusals_lineages (ls : List Lineage) : ({} : ColumnGraph).refusals (ls.flatMap Lineage.graphCalls) = [] :=
  refusals_flatMap (fun g l => refusals_flatMap (refusals_edge l.name) l.edges g) ls {}

/-- Every graph that calls build is consistent, and where folding the given names twice is folding them once,
identities are their own keys. A refused arrow leaves its graph as it is. The graph of many definitions is built
by calls of which none is refused. -/
theorem calls_consistent (calls : List GraphCall)
    (stable : ∀ name, .node name ∈ calls → key (key name) = key name) :
    (({} : ColumnGraph).after calls).Consistent ∧
      (∀ n ∈ (({} : ColumnGraph).after calls).nodes,
        key n.id = n.id ∧ (({} : ColumnGraph).after calls).node? n.id = some n) ∧
      (∀ (g : ColumnGraph) (s t : String) (e : GraphError), (g.connect s t).2 = some e → (g.connect s t).1 = g) ∧
      ∀ ls : List Lineage,
        ofLineages ls = ({} : ColumnGraph).after (ls.flatMap Lineage.graphCalls) ∧ (ofLineages ls).Consistent ∧
          ({} : ColumnGraph).refusals (ls.flatMap Lineage.graphCalls) = [] := by
  have consistent := Consistent.empty.after calls
  refine ⟨consistent, fun n member => ?_, fun g s t e refused => ?_, fun ls => ?_⟩
  · have fixed : key n.id = n.id := by
      rw [consistent.folded n member]
      exact Named.after (P := fun name => key (key name) = key name) (g := {}) nofun stable n member
    exact ⟨fixed, consistent.node?_id member fixed⟩
  · obtain ⟨_, same⟩ | ⟨-, -, -, added⟩ := g.connect_cases s t
    · rw [same]
    · rw [added] at refused
      cases refused
  · exact ⟨ofLineages_eq ls, ofLineages_eq ls ▸ Consistent.empty.after _, refusals_lineages ls⟩

/-- One column under two spellings, an arrow added twice, and an arrow from a column to itself, which is refused. -/
theorem calls_consistent_spellings :
    let calls : List GraphCall := [.node "dbo.T.a", .node "dbo.U.B", .node "DBO.t.A", .writer "dbo.u.b" "p",
      .arrow "dbo.t.a" "dbo.u.b", .arrow "dbo.t.a" "dbo.u.b", .arrow "dbo.u.b" "dbo.u.b"]
    let g := ({} : ColumnGraph).after calls
    (g.ids = ["dbo.t.a", "dbo.u.b"] ∧ g.targets "dbo.t.a" = ["dbo.u.b"] ∧ g.sources "dbo.u.b" = ["dbo.t.a"]) ∧
      g.Consistent ∧ ∀ n ∈ g.nodes, key n.id = n.id ∧ g.node? n.id = some n := by
  have stable : ∀ name ∈ ["dbo.T.a", "dbo.U.B", "DBO.t.A"], key (key name) = key name := by decide +kernel
  intro calls g
  have built := calls_consistent calls fun name member => stable name (by simpa [calls] using member)
  exact ⟨by decide +kernel, built.1, built.2.1⟩

end ColumnGraph

end ColumnFlow
