import ColumnFlow.Graph.Reach
import ColumnFlow.Proofs.GraphInvariant
import Mathlib.Logic.Relation

/-!
# Traversal is reachability

`explore` keeps the columns that are still to be followed, and one list of what is found for all the columns it
starts from. Between two rounds (`Explored`), whatever is found is reached from the start, and a column of the start or
a found one is either pending or has all its neighbours found. A round keeps that and settles one pending column for
good, since a column becomes pending only when it is found. So the rounds that `reach` allows are enough, on cycles
too, and what is found in the end is closed under steps.

A column of the start may itself be found, when a cycle leads back to it. It is followed once more and left out of
the answer.
-/

namespace ColumnFlow

@[simp] theorem mem_sortTexts {texts : List String} {text : String} : text ∈ sortTexts texts ↔ text ∈ texts :=
  List.mem_mergeSort

theorem sortTexts_sorted (texts : List String) : (sortTexts texts).Pairwise (· ≤ ·) := by
  refine (List.pairwise_mergeSort (fun a b c first second => ?_) (fun a b => ?_) texts).imp of_decide_eq_true
  · exact decide_eq_true (String.le_trans (of_decide_eq_true first) (of_decide_eq_true second))
  · simpa using String.le_total a b

/-- Different texts are sorted into a strictly increasing list. -/
theorem sortTexts_increasing {texts : List String} (distinct : texts.Nodup) : (sortTexts texts).Pairwise (· < ·) := by
  have nodup : (sortTexts texts).Nodup := (List.mergeSort_perm texts _).nodup_iff.2 distinct
  exact ((sortTexts_sorted texts).and nodup).imp fun both => Std.lt_of_le_of_ne both.1 both.2

namespace ColumnGraph

/-- Some column of the start leads to the column by one or more steps. -/
def ReachedFrom (next : String → List String) (start : List String) (id : String) : Prop :=
  ∃ u ∈ start, Relation.TransGen (fun a b => b ∈ next a) u id

theorem ReachedFrom.step {next : String → List String} {start : List String} {a b : String}
    (met : a ∈ start ∨ ReachedFrom next start a) (step : b ∈ next a) : ReachedFrom next start b := by
  obtain first | ⟨u, member, path⟩ := met
  · exact ⟨a, first, .single step⟩
  · exact ⟨u, member, path.tail step⟩

/-- What holds between two rounds, where the columns are `all`. -/
structure Explored (next : String → List String) (all start pending found : List String) : Prop where
  sound : ∀ id ∈ found, ReachedFrom next start id
  distinct : found.Nodup
  bounded : found ⊆ all
  met : ∀ id ∈ pending, id ∈ start ∨ id ∈ found
  followed : ∀ id, id ∈ start ∨ id ∈ found → id ∈ pending ∨ ∀ other ∈ next id, other ∈ found

namespace Explored

variable {next : String → List String} {all start pending found : List String}

theorem initial (next : String → List String) (all start : List String) : Explored next all start start [] where
  sound := nofun
  distinct := List.nodup_nil
  bounded := nofun
  met _ := .inl
  followed _ either := .inl (either.resolve_right List.not_mem_nil)

/-- A round follows the first pending column. What it finds becomes pending. -/
theorem round (nodup : ∀ id, (next id).Nodup) (closed : ∀ id, next id ⊆ all) {id : String} {rest : List String}
    (e : Explored next all start (id :: rest) found) :
    let fresh := (next id).filter fun other => !found.contains other
    Explored next all start (fresh ++ rest) (found ++ fresh) := by
  intro fresh
  have isFresh {other : String} : other ∈ fresh ↔ other ∈ next id ∧ other ∉ found := by simp [fresh]
  have here : id ∈ start ∨ id ∈ found := e.met id List.mem_cons_self
  constructor
  case sound =>
    intro other member
    obtain old | new := List.mem_append.1 member
    · exact e.sound other old
    · exact ReachedFrom.step (here.imp_right (e.sound id)) (isFresh.1 new).1
  case distinct =>
    refine List.nodup_append.2 ⟨e.distinct, (nodup id).filter _, ?_⟩
    rintro other old _ new rfl
    exact (isFresh.1 new).2 old
  case bounded =>
    intro other member
    obtain old | new := List.mem_append.1 member
    · exact e.bounded old
    · exact closed id (isFresh.1 new).1
  case met =>
    intro other member
    obtain new | old := List.mem_append.1 member
    · exact .inr (List.mem_append_right found new)
    · exact (e.met other (List.mem_cons_of_mem id old)).imp_right (List.mem_append_left fresh)
  case followed =>
    intro other either
    have now {x : String} (neighbour : x ∈ next id) : x ∈ found ++ fresh := by
      by_cases old : x ∈ found
      · exact List.mem_append_left fresh old
      · exact List.mem_append_right found (isFresh.2 ⟨neighbour, old⟩)
    by_cases new : other ∈ fresh
    · exact .inl (List.mem_append_left rest new)
    · have before : other ∈ start ∨ other ∈ found :=
        either.imp_right fun member => (List.mem_append.1 member).resolve_right new
      obtain waiting | settled := e.followed other before
      · obtain rfl | later := List.mem_cons.1 waiting
        · exact .inr fun _ => now
        · exact .inl (List.mem_append_right fresh later)
      · exact .inr fun x neighbour => List.mem_append_left fresh (settled x neighbour)

/-- Each round lowers by one the number of pending columns and of columns that are not found. -/
theorem run (nodup : ∀ id, (next id).Nodup) (closed : ∀ id, next id ⊆ all) {n : Nat}
    (enough : pending.length + (all.length - found.length) ≤ n) (e : Explored next all start pending found) :
    Explored next all start [] (explore next n pending found) := by
  induction n generalizing pending found with
  | zero =>
    have none : pending = [] := List.length_eq_zero_iff.1 (by omega)
    exact none ▸ e
  | succ n ih =>
    cases pending with
    | nil => exact e
    | cons id rest =>
      have after := e.round nodup closed
      have room := after.distinct.length_le_of_subset after.bounded
      refine ih ?_ after
      simp only [List.length_append, List.length_cons] at enough room ⊢
      omega

/-- When nothing is pending, everything that is reached is found. -/
theorem complete (e : Explored next all start [] found) {id : String} (reached : ReachedFrom next start id) :
    id ∈ found := by
  have settled {a : String} (known : a ∈ start ∨ a ∈ found) : ∀ b ∈ next a, b ∈ found :=
    (e.followed a known).resolve_left List.not_mem_nil
  obtain ⟨u, first, path⟩ := reached
  induction path with
  | single step => exact settled (.inl first) _ step
  | tail _ step ih => exact settled (.inr ih) _ step

end Explored

/-- Where neighbours are different columns of the graph, `reach` lists in order the columns outside the start that
some column of the start leads to. -/
theorem reach_iff {g : ColumnGraph} {next : String → List String} (nodup : ∀ id, (next id).Nodup)
    (closed : ∀ id, next id ⊆ g.ids) (start : List String) :
    (g.reach next start).Pairwise (· < ·) ∧
      ∀ id, id ∈ g.reach next start ↔ id ∉ start ∧ ReachedFrom next start id := by
  have size : g.ids.length = g.nodes.length := List.length_map _
  have explored : Explored next g.ids start [] (explore next (start.length + g.nodes.length + 1) start []) :=
    (Explored.initial next g.ids start).run nodup closed (by simp only [List.length_nil]; omega)
  refine ⟨sortTexts_increasing (explored.distinct.filter _), fun id => ?_⟩
  have found : id ∈ explore next (start.length + g.nodes.length + 1) start [] ↔ ReachedFrom next start id :=
    ⟨explored.sound id, explored.complete⟩
  simp [reach, found, and_comm]

/-- The second column is directly derived from the first. -/
def Arrow (g : ColumnGraph) (s t : String) : Prop := t ∈ g.targets s

namespace Consistent

variable {g : ColumnGraph}

/-- What arrows lead to from some columns, those themselves left out, in order. -/
theorem mem_descendants (c : g.Consistent) (ids : List String) :
    (g.descendants ids).Pairwise (· < ·) ∧
      ∀ v, v ∈ g.descendants ids ↔ v ∉ ids ∧ ∃ u ∈ ids, Relation.TransGen g.Arrow u v :=
  reach_iff c.targetsDistinct (fun s t arrow => (c.ends s t arrow).2.1) ids

/-- The same against the arrows. -/
theorem mem_ancestors (c : g.Consistent) (ids : List String) :
    (g.ancestors ids).Pairwise (· < ·) ∧
      ∀ v, v ∈ g.ancestors ids ↔ v ∉ ids ∧ ∃ u ∈ ids, Relation.TransGen g.Arrow v u := by
  obtain ⟨increasing, reached⟩ :=
    reach_iff c.sourcesDistinct (fun t s arrow => (c.ends s t ((c.mirrored s t).2 arrow)).1) ids
  have reversed : (fun a b => b ∈ g.sources a) = Function.swap g.Arrow := by
    funext a b
    exact propext (c.mirrored b a).symm
  refine ⟨increasing, fun v => (reached v).trans ?_⟩
  simp only [ReachedFrom, reversed, Relation.transGen_swap]

end Consistent

/-- In a consistent graph, with cycles or without, the descendants of some columns are in strictly increasing order
the columns beside them that one or more arrows lead to from one of them, their ancestors those from which one or more
arrows lead to one of them. A column is a descendant of another exactly when that one is its ancestor. -/
theorem traversal_iff_reachable {g : ColumnGraph} (consistent : g.Consistent) :
    (∀ ids : List String, (g.descendants ids).Pairwise (· < ·) ∧
        ∀ v, v ∈ g.descendants ids ↔ v ∉ ids ∧ ∃ u ∈ ids, Relation.TransGen g.Arrow u v) ∧
      (∀ ids : List String, (g.ancestors ids).Pairwise (· < ·) ∧
        ∀ v, v ∈ g.ancestors ids ↔ v ∉ ids ∧ ∃ u ∈ ids, Relation.TransGen g.Arrow v u) ∧
      ∀ u v, v ∈ g.descendants [u] ↔ u ∈ g.ancestors [v] := by
  refine ⟨consistent.mem_descendants, consistent.mem_ancestors, fun u v => ?_⟩
  rw [(consistent.mem_descendants [u]).2, (consistent.mem_ancestors [v]).2]
  simp [eq_comm]

/-- A cycle of three columns with one more column behind it, followed from two columns of the cycle: the third and the
last one are found, those of the start are not listed. -/
theorem traversal_iff_reachable_cycle :
    let g := ({} : ColumnGraph).after [.node "t.a", .node "t.b", .node "t.c", .node "t.d", .arrow "t.a" "t.b",
      .arrow "t.b" "t.c", .arrow "t.c" "t.a", .arrow "t.c" "t.d"]
    g.Consistent ∧ Relation.TransGen g.Arrow "t.a" "t.a" ∧
      (∀ v ∈ ["t.b", "t.d"], v ∈ g.descendants ["t.c", "t.a"]) ∧ "t.a" ∉ g.descendants ["t.c", "t.a"] ∧
      "t.d" ∈ g.descendants ["t.a"] ∧ "t.a" ∈ g.ancestors ["t.d"] := by
  intro g
  have consistent : g.Consistent := Consistent.empty.after _
  obtain ⟨ab, bc, ca, cd⟩ : "t.b" ∈ g.targets "t.a" ∧ "t.c" ∈ g.targets "t.b" ∧ "t.a" ∈ g.targets "t.c" ∧
      "t.d" ∈ g.targets "t.c" := by decide +kernel
  have toC : Relation.TransGen g.Arrow "t.a" "t.c" := .tail (.single ab) bc
  obtain ⟨down, -, dual⟩ := traversal_iff_reachable consistent
  have last : "t.d" ∈ g.descendants ["t.a"] := ((down _).2 _).2 ⟨by decide, "t.a", by decide, toC.tail cd⟩
  refine ⟨consistent, toC.tail ca, ?_, fun listed => ?_, last, (dual _ _).1 last⟩
  · simp only [List.forall_mem_cons, List.not_mem_nil, false_imp_iff, implies_true, and_true]
    exact ⟨((down _).2 _).2 ⟨by decide, "t.a", by decide, .single ab⟩,
      ((down _).2 _).2 ⟨by decide, "t.c", by decide, .single cd⟩⟩
  · exact (((down _).2 _).1 listed).1 (by decide)

end ColumnGraph

end ColumnFlow
