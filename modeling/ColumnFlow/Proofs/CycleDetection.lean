import ColumnFlow.Proofs.Reachability
import Mathlib.Data.List.Chain

/-!
# Cycles are found

A search for cycles keeps the columns it has entered, and for each of them the column it came from. Nothing is taken
back when a branch is done, so most of these notes are stale. What is known between two steps (`Searching`) is that the
notes of the columns on the way are right, since a column is noted only before it is entered, and that columns entered
and left again lead to such columns only and lie on no cycle.

An arrow back to a column on the way therefore closes a cycle that the notes lead back along, and a search that ends
without one has entered and left every column.
-/

namespace ColumnFlow

/-! ### Computations that may fail -/

/-- The property of the value of a computation, or else of what it fails with. -/
def Settles {ε α : Type} (ok : α → Prop) (failed : ε → Prop) : Except ε α → Prop
  | .ok a => ok a
  | .error e => failed e

namespace Settles

open ColumnGraph (CycleSearch)

variable {ε α : Type} {failed : ε → Prop}

theorem weaken {ok ok' : α → Prop} {x : Except ε α} (settles : Settles ok failed x) (implied : ∀ a, ok a → ok' a) :
    Settles ok' failed x := by
  cases x with
  | ok a => exact implied a settles
  | error e => exact settles

/-- A fold keeps what holds of its search, forgets nothing that was seen, and sees all its items. -/
theorem foldlM {I : CycleSearch → Prop} {Q : α → Prop} {id : α → String} {f : CycleSearch → α → Except ε CycleSearch}
    {xs : List α} (step : ∀ x ∈ xs, ∀ now, I now →
      Settles (fun after => I after ∧ now.seen ⊆ after.seen ∧ id x ∈ after.seen ∧ Q x) failed (f now x))
    {s : CycleSearch} (start : I s) :
    Settles (fun after => I after ∧ s.seen ⊆ after.seen ∧ ∀ x ∈ xs, id x ∈ after.seen ∧ Q x) failed (xs.foldlM f s) := by
  induction xs generalizing s with
  | nil => exact ⟨start, List.Subset.refl _, nofun⟩
  | cons x rest ih =>
    have first := step x List.mem_cons_self s start
    rw [List.foldlM_cons]
    cases taken : f s x with
    | error e =>
      rw [taken] at first
      exact first
    | ok s' =>
      rw [taken] at first
      obtain ⟨held, kept, seen, fits⟩ := first
      refine (ih (fun y member => step y (List.mem_cons_of_mem x member)) held).weaken fun after all => ?_
      obtain ⟨held, kept', others⟩ := all
      exact ⟨held, List.Subset.trans kept kept', List.forall_mem_cons.2 ⟨⟨kept' seen, fits⟩, others⟩⟩

end Settles

namespace ColumnGraph

variable {g : ColumnGraph}

/-! ### The way of a search -/

/-- The first column was entered from the second, over an arrow. -/
def Entered (g : ColumnGraph) (entered : List (String × String)) (id source : String) : Prop :=
  g.Arrow source id ∧ entered.lookup id = some source

/-- What holds between two steps of a search, when it is on the way `stack`. -/
structure Searching (g : ColumnGraph) (stack : List String) (search : CycleSearch) : Prop where
  linked : stack.IsChain (g.Entered search.entered)
  distinct : stack.Nodup
  met : stack ⊆ search.seen
  columns : search.seen ⊆ g.ids
  /-- From columns that have been left only such columns are reached. -/
  closed : ∀ id ∈ search.seen, id ∉ stack → ∀ t, g.Arrow id t → t ∈ search.seen ∧ t ∉ stack
  acyclic : ∀ id ∈ search.seen, id ∉ stack → ¬Relation.TransGen g.Arrow id id

/-- An arrow back to a column on the way to it, where the notes of the way are right. -/
structure BackArrow.Closes (g : ColumnGraph) (a : BackArrow) : Prop where
  arrow : g.Arrow a.last a.first
  way : ∃ before rest, (before ++ a.first :: rest).head? = some a.last ∧ a.first ∉ before ∧
    (before ++ a.first :: rest).IsChain (g.Entered a.entered) ∧ (before ++ a.first :: rest).Nodup

namespace Searching

variable {stack : List String} {search : CycleSearch} {id : String}

theorem initial (g : ColumnGraph) : Searching g [] {} where
  linked := .nil
  distinct := List.nodup_nil
  met := nofun
  columns := nofun
  closed := nofun
  acyclic := nofun

/-- A note about a column that has not been entered changes nothing on the way. -/
theorem note (s : Searching g stack search) {child : String} (fresh : child ∉ search.seen) (source : String) :
    Searching g stack { search with entered := (child, source) :: search.entered } where
  linked := by
    refine s.linked.imp_of_mem_imp fun a b member _ link => ⟨link.1, ?_⟩
    have other : (a == child) = false := by
      rw [beq_eq_false_iff_ne]
      rintro rfl
      exact fresh (s.met member)
    rw [List.lookup_cons, other]
    exact link.2
  distinct := s.distinct
  met := s.met
  columns := s.columns
  closed := s.closed
  acyclic := s.acyclic

/-- Entering a column puts it on the way. -/
theorem push (s : Searching g stack search) (linked : (id :: stack).IsChain (g.Entered search.entered))
    (fresh : id ∉ search.seen) (column : id ∈ g.ids) :
    Searching g (id :: stack) { search with seen := id :: search.seen } := by
  have left {x : String} (seen : x ∈ id :: search.seen) (off : x ∉ id :: stack) : x ∈ search.seen ∧ x ∉ stack :=
    ⟨(List.mem_cons.1 seen).resolve_left fun same => off (same ▸ List.mem_cons_self), fun on => off (.tail _ on)⟩
  constructor
  case linked => exact linked
  case distinct => exact List.nodup_cons.2 ⟨fun on => fresh (s.met on), s.distinct⟩
  case met => exact List.cons_subset_cons id s.met
  case columns => exact List.cons_subset.2 ⟨column, s.columns⟩
  case closed =>
    intro x seen off t arrow
    obtain ⟨seen', off'⟩ := left seen off
    obtain ⟨reached, away⟩ := s.closed x seen' off' t arrow
    refine ⟨List.mem_cons_of_mem id reached, ?_⟩
    rintro (_ | ⟨_, on⟩)
    · exact fresh reached
    · exact away on
  case acyclic => exact fun x seen off => s.acyclic x (left seen off).1 (left seen off).2

/-- A column whose targets have all been entered and left can be left itself. -/
theorem pop (s : Searching g (id :: stack) search)
    (followed : ∀ t, g.Arrow id t → t ∈ search.seen ∧ t ∉ id :: stack) : Searching g stack search where
  linked := s.linked.tail
  distinct := (List.nodup_cons.1 s.distinct).2
  met := (List.cons_subset.1 s.met).2
  columns := s.columns
  closed := by
    intro x seen off t arrow
    by_cases same : x = id
    · subst same
      exact ⟨(followed t arrow).1, fun on => (followed t arrow).2 (.tail _ on)⟩
    · obtain ⟨reached, away⟩ := s.closed x seen (List.not_mem_cons_of_ne_of_not_mem same off) t arrow
      exact ⟨reached, fun on => away (.tail _ on)⟩
  acyclic := by
    intro x seen off cycle
    by_cases same : x = id
    · subst same
      -- Whatever is reached from the column has been left, and the column has not.
      have reached (y : String) (path : Relation.TransGen g.Arrow x y) : y ∈ search.seen ∧ y ∉ x :: stack := by
        induction path with
        | single arrow => exact followed _ arrow
        | tail _ arrow ih => exact s.closed _ ih.1 ih.2 _ arrow
      exact (reached x cycle).2 List.mem_cons_self
    · exact s.acyclic x seen (List.not_mem_cons_of_ne_of_not_mem same off) cycle

/-- An arrow from the innermost column to one on the way closes a cycle. -/
theorem closes (s : Searching g (id :: stack) search) {child : String} (arrow : g.Arrow id child)
    (on : child ∈ id :: stack) : BackArrow.Closes g { first := child, last := id, entered := search.entered } := by
  obtain ⟨before, rest, split, first⟩ := List.eq_append_cons_of_mem on
  exact ⟨arrow, before, rest, by rw [← split]; rfl, first, split ▸ s.linked, split ▸ s.distinct⟩

end Searching

/-! ### Runs of the search -/

/-- What a visit leaves behind: the column has been entered and left, and nothing has been forgotten. -/
structure Visited (g : ColumnGraph) (stack : List String) (id : String) (before after : CycleSearch) : Prop where
  searching : Searching g stack after
  kept : before.seen ⊆ after.seen
  entered : id ∈ after.seen

/-- The columns on the way are different, so the way is never longer than the number of columns allows. -/
theorem visit_settles (c : g.Consistent) (n : Nat) {stack : List String} {id : String} {search : CycleSearch}
    (enough : g.ids.length ≤ stack.length + n) (s : Searching g stack search)
    (linked : (id :: stack).IsChain (g.Entered search.entered)) (fresh : id ∉ search.seen) (column : id ∈ g.ids) :
    Settles (Visited g stack id search) (BackArrow.Closes g) (g.visit n stack id search) := by
  induction n generalizing stack id search with
  | zero =>
    have pushed := s.push linked fresh column
    have room := pushed.distinct.length_le_of_subset (List.Subset.trans pushed.met pushed.columns)
    rw [List.length_cons] at room
    omega
  | succ n ih =>
    have pushed := s.push linked fresh column
    have loop : Settles
        (fun after => Searching g (id :: stack) after ∧ id :: search.seen ⊆ after.seen ∧
          ∀ t ∈ g.children id, t ∈ after.seen ∧ t ∉ id :: stack)
        (BackArrow.Closes g) (g.visit (n + 1) stack id search) := by
      rw [visit]
      refine Settles.foldlM (fun child member now searching => ?_) pushed
      have arrow : g.Arrow id child := mem_sortTexts.1 member
      by_cases seen : child ∈ now.seen
      · by_cases on : child ∈ id :: stack
        · simpa [seen, on, Settles] using searching.closes arrow on
        · simp only [List.contains_eq_mem, seen, on, decide_true, decide_false, Bool.not_true, Bool.false_eq_true,
            if_false]
          exact ⟨searching, List.Subset.refl _, seen, not_false⟩
      · have off : child ∉ id :: stack := fun on => seen (searching.met on)
        have noted := searching.note seen id
        have entered : g.Entered ((child, id) :: now.entered) child id := ⟨arrow, by simp⟩
        have visited := ih (by rw [List.length_cons]; omega) noted
          (List.isChain_cons_cons.2 ⟨entered, noted.linked⟩) seen (c.ends id child arrow).2.1
        simp only [List.contains_eq_mem, seen, decide_false, Bool.not_false, if_true]
        exact visited.weaken fun after v => ⟨v.searching, v.kept, v.entered, off⟩
    refine loop.weaken fun after held => ?_
    obtain ⟨searching, kept, followed⟩ := held
    exact ⟨searching.pop fun t arrow => followed t (mem_sortTexts.2 arrow), (List.cons_subset.1 kept).2,
      (List.cons_subset.1 kept).1⟩

/-- The whole search enters and leaves every column, or fails with an arrow that closes a cycle. -/
theorem search_settles (c : g.Consistent) :
    Settles (fun after => Searching g [] after ∧ g.ids ⊆ after.seen) (BackArrow.Closes g)
      (g.sortedNodes.foldlM g.enter {}) := by
  have loop : Settles (fun after => Searching g [] after ∧ [] ⊆ after.seen ∧
      ∀ node ∈ g.sortedNodes, node.id ∈ after.seen ∧ True) (BackArrow.Closes g) (g.sortedNodes.foldlM g.enter {}) := by
    refine Settles.foldlM (fun node member now searching => ?_) (.initial g)
    unfold enter
    by_cases seen : node.id ∈ now.seen
    · rw [if_pos (by simpa using seen)]
      exact ⟨searching, List.Subset.refl _, seen, trivial⟩
    · rw [if_neg (by simpa using seen)]
      have column : node.id ∈ g.ids := List.mem_map_of_mem (List.mem_mergeSort.1 member)
      have visited := visit_settles c g.nodes.length (by simp [ids]) searching (.singleton _) seen column
      exact visited.weaken fun after v => ⟨v.searching, v.kept, v.entered, trivial⟩
  refine loop.weaken fun after held => ⟨held.1, fun id member => ?_⟩
  obtain ⟨node, found, rfl⟩ := List.mem_map.1 member
  exact (held.2.2 node (List.mem_mergeSort.2 found)).1

/-! ### The way back -/

namespace BackArrow

/-- Every column of the way has a note of its own, and the notes lead back along the way. -/
theorem stepsBack_eq {a : BackArrow} {before rest : List String} {id : String}
    (linked : (before ++ a.first :: rest).IsChain (g.Entered a.entered)) (apart : a.first ∉ before)
    (head : (before ++ a.first :: rest).head? = some id) :
    before ⊆ a.entered.map (·.1) ∧ ∀ n, before.length ≤ n → a.stepsBack n id = some before := by
  induction before generalizing id with
  | nil =>
    obtain rfl : a.first = id := by simpa using head
    exact ⟨List.nil_subset _, fun n _ => by cases n <;> simp [stepsBack]⟩
  | cons x more ih =>
    obtain rfl : x = id := by simpa using head
    obtain ⟨different, later⟩ := not_or.1 (mt List.mem_cons.2 apart)
    obtain ⟨next, following⟩ : ∃ next, (more ++ a.first :: rest).head? = some next := by
      cases more <;> exact ⟨_, rfl⟩
    have link : g.Entered a.entered x next := linked.rel_head? following
    obtain ⟨noted, back⟩ := ih linked.tail later following
    obtain ⟨_, _, split, -⟩ := List.lookup_eq_some_iff.1 link.2
    refine ⟨List.cons_subset.2 ⟨by simp [split], noted⟩, fun n enough => ?_⟩
    obtain ⟨n, rfl⟩ := Nat.exists_eq_add_of_lt (Nat.lt_of_succ_le enough)
    rw [stepsBack, link.2, Option.getD_some, back _ (Nat.le_add_right _ _)]
    simp [Ne.symm different]

theorem retrace_eq {a : BackArrow} {before rest : List String} {id : String}
    (linked : (before ++ a.first :: rest).IsChain (g.Entered a.entered)) (distinct : before.Nodup)
    (apart : a.first ∉ before) (head : (before ++ a.first :: rest).head? = some id) : a.retrace id = some before := by
  obtain ⟨noted, back⟩ := stepsBack_eq linked apart head
  refine back _ (Nat.le_succ_of_le ?_)
  simpa using distinct.length_le_of_subset noted

end BackArrow

/-- A path of three or more along arrows that ends where it starts and else meets no column twice. -/
structure IsCycle (g : ColumnGraph) (path : List String) : Prop where
  long : 3 ≤ path.length
  closed : path.head? = path.getLast?
  linked : path.IsChain g.Arrow
  distinct : path.dropLast.Nodup

/-- A column of a cycle leads back to itself. -/
theorem IsCycle.transGen {path : List String} (cycle : g.IsCycle path) : ∃ id, Relation.TransGen g.Arrow id id := by
  obtain ⟨long, closed, linked, -⟩ := cycle
  match path with
  | [] | [_] => simp at long
  | first :: second :: rest =>
    obtain ⟨arrow, later⟩ := List.isChain_cons_cons.1 linked
    have back : (second :: rest).getLast (List.cons_ne_nil _ _) = first := by
      have same : (first :: second :: rest).getLast? = some first := closed.symm
      rw [List.getLast?_cons_cons, List.getLast?_eq_some_getLast (List.cons_ne_nil _ _)] at same
      exact Option.some.inj same
    refine ⟨first, .head' arrow ?_⟩
    exact List.relationReflTransGen_of_exists_isChain_cons rest later back

/-- The way back along the notes ends at the first column, and gives a cycle. -/
theorem BackArrow.Closes.path? (c : g.Consistent) {a : BackArrow} (closes : a.Closes g) :
    ∃ way, a.retrace a.last = some way ∧ a.path? = some (a.first :: way.reverse ++ [a.first]) ∧
      g.IsCycle (a.first :: way.reverse ++ [a.first]) := by
  obtain ⟨arrow, before, rest, head, apart, linked, distinct⟩ := closes
  have back := retrace_eq linked distinct.of_append_left apart head
  have turned : (before ++ [a.first]).reverse = a.first :: before.reverse := by simp
  rw [List.append_cons] at linked distinct
  have nonempty : before ≠ [] := by
    rintro rfl
    have same : a.first = a.last := by simpa using head
    exact (c.ends a.last a.first arrow).2.2 same.symm
  refine ⟨before, back, by simp [BackArrow.path?, back], ?_, ?_, ?_, ?_⟩
  · have := List.length_pos_iff.2 nonempty
    simp only [List.cons_append, List.length_cons, List.length_append, List.length_reverse, List.length_nil]
    omega
  · rw [List.getLast?_concat]
    rfl
  · have forward : (a.first :: before.reverse).IsChain g.Arrow := by
      rw [← turned, List.isChain_reverse]
      exact linked.left_of_append.imp fun _ _ link => link.1
    refine forward.append (.singleton _) fun x last y only => ?_
    have lastId : x = a.last := by
      cases before with
      | nil => exact absurd rfl nonempty
      | cons y more =>
        rw [List.reverse_cons, ← List.cons_append, List.getLast?_concat] at last
        have top : y = a.last := by simpa using head
        exact (Option.some.inj last).symm.trans top
    obtain rfl : a.first = y := by simpa using only
    exact lastId ▸ arrow
  · rw [List.dropLast_concat, ← turned, List.nodup_reverse]
    exact distinct.of_append_left

/-- On a consistent graph the search answers with a path exactly if some column leads back to itself, and the path is a
cycle. The way back that makes the path always ends. -/
theorem cycle_found_iff {g : ColumnGraph} (consistent : g.Consistent) :
    (g.cycle?.isSome ↔ ∃ id, Relation.TransGen g.Arrow id id) ∧
      (∀ path, g.cycle? = some path → g.IsCycle path) ∧
      ∀ a, g.backArrow? = some a → ∃ way, a.retrace a.last = some way ∧
        g.cycle? = some (a.first :: way.reverse ++ [a.first]) := by
  have settled := search_settles consistent
  cases found : g.sortedNodes.foldlM g.enter {} with
  | error a =>
    rw [found] at settled
    obtain ⟨way, back, path, cycle⟩ := settled.path? consistent
    have first : g.backArrow? = some a := by simp [backArrow?, found]
    have answer : g.cycle? = some (a.first :: way.reverse ++ [a.first]) := by rw [cycle?, first]; exact path
    refine ⟨by simpa [answer] using cycle.transGen, ?_, ?_⟩
    · rintro _ same
      cases answer.symm.trans same
      exact cycle
    · rintro _ same
      cases first.symm.trans same
      exact ⟨way, back, answer⟩
  | ok after =>
    rw [found] at settled
    have absent : g.backArrow? = none := by simp [backArrow?, found]
    have answer : g.cycle? = none := by rw [cycle?, absent]; rfl
    refine ⟨?_, by simp [answer], by simp [absent]⟩
    simp only [answer, Option.isSome_none, Bool.false_eq_true, false_iff, not_exists]
    intro id cycle
    have column : id ∈ g.ids := by
      obtain ⟨next, arrow, -⟩ := Relation.TransGen.head'_iff.1 cycle
      exact (consistent.ends id next arrow).1
    exact settled.1.acyclic id (settled.2 column) List.not_mem_nil cycle

/-- A cycle of two columns beside a branch that ends: the search comes back from `t.b` and `t.d`, whose notes are stale
when the cycle is closed. -/
theorem cycle_found_iff_branch :
    let g := ({} : ColumnGraph).after [.node "t.a", .node "t.b", .node "t.c", .node "t.d", .arrow "t.a" "t.b",
      .arrow "t.b" "t.d", .arrow "t.a" "t.c", .arrow "t.c" "t.d", .arrow "t.c" "t.a"]
    g.Consistent ∧ Relation.TransGen g.Arrow "t.a" "t.a" ∧ ∃ path, g.cycle? = some path ∧ g.IsCycle path := by
  intro g
  have consistent : g.Consistent := Consistent.empty.after _
  obtain ⟨ac, ca⟩ : "t.c" ∈ g.targets "t.a" ∧ "t.a" ∈ g.targets "t.c" := by decide +kernel
  have around : Relation.TransGen g.Arrow "t.a" "t.a" := .tail (.single ac) ca
  obtain ⟨decided, shape, -⟩ := cycle_found_iff consistent
  obtain ⟨path, answer⟩ := Option.isSome_iff_exists.1 (decided.2 ⟨"t.a", around⟩)
  exact ⟨consistent, around, path, answer, shape path answer⟩

end ColumnGraph

end ColumnFlow
