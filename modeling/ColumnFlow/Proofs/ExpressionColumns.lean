import ColumnFlow.Proofs.QuerySources
import ColumnFlow.Proofs.StatementPlaces

/-!
# Expressions read what the walk of them visits

Two traversals of an expression are written apart from each other: `exprSources` lists what an expression reads, and
the walk of the syntax tree visits all its nodes. On expressions without a query they agree. What is read are the
column references of the walk, in its order and each as often as it is visited, resolved in the scope. The one
exception is the style of a conversion, which the walk visits and which is not a source of the value.

`Outline.Refers` says which references a list of trees holds outside styles, wherever the trees stand. It has one rule
for each way in which trees are put together, so each case of the comparison only has to name the children of a node.
-/

namespace ColumnFlow

/-! ### References outside styles -/

namespace Node

def columnRef? : Node → Option ColumnRef
  | .expr (.column ref) => some ref
  | _ => none

def isQuery : Node → Bool
  | .query _ => true
  | _ => false

/-- Whether the child with this number is the style of a conversion. The operand comes first; a hole in its place has
no tree. -/
def isStyle (root : Node) (child : Nat) : Bool :=
  match root with
  | .expr (.convert _ _ operand _ _) => decide ((Outline.ofExpr operand).length ≤ child)
  | _ => false

end Node

/-- Whether a way leads through the style of a conversion: the nodes that are passed, the last one first, and which
child is entered on each level. -/
def inStyle (above : List Node) (path : List Nat) : Bool :=
  (above.zip path.reverse).any fun step => step.1.isStyle step.2

def NodePlace.isInStyle (place : NodePlace) : Bool := inStyle place.above place.path

/-- The places of the nodes that the walk of an expression visits, in its order. -/
def Expr.places (e : Expr) : List NodePlace := Outline.placesAll [] [] 0 (Outline.ofExpr e)

/-- The column references that the walk of an expression visits, in its order, those inside styles left out. -/
def Expr.valueRefs (e : Expr) : List ColumnRef :=
  (e.places.filter fun place => !place.isInStyle).filterMap fun place => place.node.columnRef?

/-- No node of the trees is a query. -/
def Outline.SelectFree (outlines : List Outline) : Prop := ∀ node ∈ nodes outlines, node.isQuery = false

/-- No query stands in the expression. -/
def Expr.SelectFree (e : Expr) : Prop := Outline.SelectFree (Outline.ofExpr e)

instance (e : Expr) : Decidable e.SelectFree :=
  inferInstanceAs (Decidable (∀ node ∈ Outline.nodes (Outline.ofExpr e), node.isQuery = false))

theorem inStyle_cons (root : Node) (above : List Node) (path : List Nat) (child : Nat) :
    inStyle (root :: above) (path ++ [child]) = (root.isStyle child || inStyle above path) := by
  simp [inStyle]

namespace Outline

/-- The references outside styles in trees that are children of one node. -/
def refsAt (above : List Node) (path : List Nat) (index : Nat) (outlines : List Outline) : List ColumnRef :=
  ((placesAll above path index outlines).filter fun place => !place.isInStyle).filterMap fun place =>
    place.node.columnRef?

theorem refsAt_append (above : List Node) (path : List Nat) (index : Nat) (a b : List Outline) :
    refsAt above path index (a ++ b) = refsAt above path index a ++ refsAt above path (index + a.length) b := by
  simp [refsAt, placesAll_append]

/-- Whatever stands below a place inside a style is inside it too. -/
theorem isInStyle_of_mem_places {above : List Node} {path : List Nat} {outline : Outline} {place : NodePlace}
    (inside : inStyle above path = true) (member : place ∈ places above path outline) : place.isInStyle = true := by
  match outline with
  | .node root children =>
    rw [places, List.mem_cons] at member
    obtain rfl | below := member
    · exact inside
    · obtain ⟨j, _, child, among, below⟩ := mem_placesAll below
      have smaller := List.sizeOf_lt_of_mem among
      exact isInStyle_of_mem_places (by rw [inStyle_cons, inside, Bool.or_true]) below
termination_by outline

/-- Trees inside a style hold no reference outside one. -/
theorem refsAt_of_inside {above : List Node} {path : List Nat} {index : Nat} (outlines : List Outline)
    (inside : ∀ j, index ≤ j → inStyle above (path ++ [j]) = true) : refsAt above path index outlines = [] := by
  have none : (placesAll above path index outlines).filter (fun place => !place.isInStyle) = [] := by
    refine List.filter_eq_nil_iff.2 fun place member => ?_
    obtain ⟨j, range, outline, _, below⟩ := mem_placesAll member
    simp [isInStyle_of_mem_places (inside j range.1) below]
  rw [refsAt, none, List.filterMap_nil]

/-- The trees hold these references outside styles, wherever they stand outside of one. -/
def Refers (outlines : List Outline) (refs : List ColumnRef) : Prop :=
  ∀ above path index, (∀ j, index ≤ j → j < index + outlines.length → inStyle above (path ++ [j]) = false) →
    refsAt above path index outlines = refs

namespace Refers

variable {a b children : List Outline} {refs refs' : List ColumnRef}

theorem nil : Refers [] [] := fun _ _ _ _ => rfl

theorem append (left : Refers a refs) (right : Refers b refs') : Refers (a ++ b) (refs ++ refs') := by
  intro above path index outside
  rw [List.length_append] at outside
  rw [refsAt_append, left above path index fun j le lt => outside j le (by omega),
    right above path (index + a.length) fun j le lt => outside j (by omega) (by omega)]

theorem refsAt_node {root : Node} {above : List Node} {path : List Nat} {index : Nat}
    (outside : ∀ j, index ≤ j → j < index + [Outline.node root children].length → inStyle above (path ++ [j]) = false) :
    inStyle above (path ++ [index]) = false ∧
      refsAt above path index [.node root children] =
        root.columnRef?.toList ++ refsAt (root :: above) (path ++ [index]) 0 children := by
  have here : inStyle above (path ++ [index]) = false := outside index (Nat.le_refl index) (by simp)
  have kept : NodePlace.isInStyle ⟨path ++ [index], above, root⟩ = false := here
  refine ⟨here, ?_⟩
  cases found : root.columnRef? <;> simp [refsAt, placesAll, places, kept, found]

theorem column (ref : ColumnRef) : Refers [.node (.expr (.column ref)) []] [ref] :=
  fun _ _ _ outside => (refsAt_node outside).2

/-- A node that is no reference and no conversion adds nothing to what its children hold. -/
theorem node {root : Node} (below : Refers children refs) (noRef : root.columnRef? = none)
    (noStyle : ∀ j, root.isStyle j = false) : Refers [.node root children] refs := by
  intro above path index outside
  obtain ⟨here, split⟩ := refsAt_node outside
  rw [split, noRef, below (root :: above) (path ++ [index]) 0 fun j _ _ => ?_]
  · rfl
  · rw [inStyle_cons, noStyle, here, Bool.or_false]

/-- Of a conversion only the operand counts. -/
theorem convert {span : Text.Span} {typeName : String} {operand : Expr} {style : Option Expr} {lenient : Bool}
    (below : Refers (ofExpr operand) refs) :
    Refers [.node (.expr (.convert span typeName operand style lenient)) (ofExpr operand ++ ofExpr? style)] refs := by
  intro above path index outside
  obtain ⟨here, split⟩ := refsAt_node outside
  rw [split, refsAt_append, below _ (path ++ [index]) 0 fun j _ lt => ?_, refsAt_of_inside _ fun j le => ?_]
  · simp [Node.columnRef?]
  · rw [inStyle_cons, Node.isStyle, decide_eq_true (by simpa using le), Bool.true_or]
  · rw [inStyle_cons, Node.isStyle, decide_eq_false (by simpa using lt), here, Bool.or_false]

end Refers

theorem Refers.valueRefs_eq {e : Expr} {refs : List ColumnRef} (refers : Refers (ofExpr e) refs) : e.valueRefs = refs :=
  refers [] [] 0 fun _ _ _ => rfl

@[simp] theorem selectFree_append (a b : List Outline) : SelectFree (a ++ b) ↔ SelectFree a ∧ SelectFree b := by
  simp only [SelectFree, nodes_append, List.forall_mem_append]

@[simp] theorem selectFree_node (root : Node) (children : List Outline) :
    SelectFree [.node root children] ↔ root.isQuery = false ∧ SelectFree children := by
  simp only [SelectFree, nodes_node, List.forall_mem_cons]

namespace SelectFree

variable {root : Node} {a b children : List Outline}

theorem left (free : SelectFree (a ++ b)) : SelectFree a := ((selectFree_append a b).1 free).1

theorem right (free : SelectFree (a ++ b)) : SelectFree b := ((selectFree_append a b).1 free).2

theorem below (free : SelectFree [.node root children]) : SelectFree children := ((selectFree_node root children).1 free).2

end SelectFree

theorem not_selectFree_ofQuery (query : Query) : ¬SelectFree (ofQuery query) := by
  obtain ⟨span, ctes, body, orderBy, offset, fetch, forMode⟩ := query
  simp [ofQuery, Node.isQuery]

end Outline

/-! ### The two traversals -/

section

open Outline

variable (env : Env) (s : Scope)

-- One theorem for each function of the extraction. Nothing is emitted on the way, so each result is a pure value.
mutual

/-- By the kind of expression, with `SelectFree` ruling out those that hold a query. -/
theorem exprSources_refers (e : Expr) (free : SelectFree (ofExpr e)) : ∃ refs transform, Refers (ofExpr e) refs ∧
      exprSources env e s = pure { columns := refs.map (resolveColumn · s), transform } := by
  match e with
  | .missing => exact ⟨[], _, .nil, rfl⟩
  | .column ref => exact ⟨[ref], _, .column ref, rfl⟩
  | .literal .. | .localVar .. | .star .. => exact ⟨[], _, Refers.nil.node rfl fun _ => rfl, rfl⟩
  | .call fn =>
    obtain ⟨refs, refers, read⟩ := callColumns_refers fn free
    exact ⟨refs, fn.tag, refers, by simp [exprSources, read]⟩
  | .case _ operand whens otherwise =>
    obtain ⟨first, refers₁, read₁⟩ := exprColumns?_refers operand free.below.left.left
    obtain ⟨cases, refers₂, read₂⟩ := whenColumns_refers whens free.below.left.right
    obtain ⟨last, refers₃, read₃⟩ := exprColumns?_refers otherwise free.below.right
    exact ⟨first ++ cases ++ last, _, ((refers₁.append refers₂).append refers₃).node rfl fun _ => rfl,
      by simp [exprSources, read₁, read₂, read₃]; rfl⟩
  | .cast _ operand _ _ | .unary _ _ operand | .collate _ operand _ | .isNull _ operand _ =>
    obtain ⟨refs, tag, refers, read⟩ := exprSources_refers operand free.below
    exact ⟨refs, _, refers.node rfl fun _ => rfl, by simp [exprSources, read]; rfl⟩
  | .paren _ inner =>
    obtain ⟨refs, tag, refers, read⟩ := exprSources_refers inner free.below
    exact ⟨refs, tag, refers.node rfl fun _ => rfl, by rw [exprSources, read]⟩
  | .convert _ _ operand style _ =>
    obtain ⟨refs, tag, refers, read⟩ := exprSources_refers operand free.below.left
    exact ⟨refs, _, refers.convert, by simp [exprSources, read]; rfl⟩
  | .coalesce _ args =>
    obtain ⟨refs, refers, read⟩ := exprColumns_refers args free.below
    exact ⟨refs, _, refers.node rfl fun _ => rfl, by simp [exprSources, read]; rfl⟩
  | .nullIf _ left right | .binary _ left _ right =>
    obtain ⟨first, tag, refers, read⟩ := exprSources_refers left free.below.left
    obtain ⟨second, tag', refers', read'⟩ := exprSources_refers right free.below.right
    exact ⟨first ++ second, _, (refers.append refers').node rfl fun _ => rfl, by simp [exprSources, read, read']; rfl⟩
  | .iif _ x y z | .between _ x _ y z =>
    obtain ⟨first, _, refers₁, read₁⟩ := exprSources_refers x free.below.left.left
    obtain ⟨second, _, refers₂, read₂⟩ := exprSources_refers y free.below.left.right
    obtain ⟨third, _, refers₃, read₃⟩ := exprSources_refers z free.below.right
    exact ⟨first ++ second ++ third, _, ((refers₁.append refers₂).append refers₃).node rfl fun _ => rfl,
      by simp [exprSources, read₁, read₂, read₃]; rfl⟩
  | .inList _ operand _ values =>
    obtain ⟨first, _, refers, read⟩ := exprSources_refers operand free.below.left
    obtain ⟨others, refers', read'⟩ := exprColumns_refers values free.below.right
    exact ⟨first ++ others, _, (refers.append refers').node rfl fun _ => rfl, by simp [exprSources, read, read']; rfl⟩
  | .like _ operand _ pattern escape =>
    obtain ⟨first, _, refers₁, read₁⟩ := exprSources_refers operand free.below.left.left
    obtain ⟨second, _, refers₂, read₂⟩ := exprSources_refers pattern free.below.left.right
    obtain ⟨last, refers₃, read₃⟩ := exprColumns?_refers escape free.below.right
    exact ⟨first ++ second ++ last, _, ((refers₁.append refers₂).append refers₃).node rfl fun _ => rfl,
      by simp [exprSources, read₁, read₂, read₃]; rfl⟩
  | .subquery _ query | .exists _ query => exact absurd free.below (not_selectFree_ofQuery query)
  | .inQuery _ operand _ query => exact absurd free.below.right (not_selectFree_ofQuery query)

theorem exprColumns?_refers (e : Option Expr) (free : SelectFree (ofExpr? e)) :
    ∃ refs, Refers (ofExpr? e) refs ∧ exprColumns? env e s = pure (refs.map (resolveColumn · s)) := by
  match e with
  | none => exact ⟨[], .nil, rfl⟩
  | some e =>
    obtain ⟨refs, _, refers, read⟩ := exprSources_refers e free
    exact ⟨refs, refers, by simp [exprColumns?, read]⟩

theorem exprColumns_refers (es : List Expr) (free : SelectFree (ofExprs es)) :
    ∃ refs, Refers (ofExprs es) refs ∧ exprColumns env es s = pure (refs.map (resolveColumn · s)) := by
  match es with
  | [] => exact ⟨[], .nil, rfl⟩
  | e :: rest =>
    obtain ⟨first, _, refers, read⟩ := exprSources_refers e free.left
    obtain ⟨later, refers', read'⟩ := exprColumns_refers rest free.right
    exact ⟨first ++ later, refers.append refers', by simp [exprColumns, read, read']⟩

theorem callColumns_refers (fn : FuncCall) (free : SelectFree (ofCall fn)) :
    ∃ refs, Refers (ofCall fn) refs ∧ callColumns env fn s = pure (refs.map (resolveColumn · s)) := by
  match fn with
  | ⟨_, _, _, _, args, _, withinGroup, window⟩ =>
    obtain ⟨first, refers₁, read₁⟩ := exprColumns_refers args free.below.left.left
    obtain ⟨order, refers₂, read₂⟩ := orderColumns_refers withinGroup free.below.left.right
    obtain ⟨frame, refers₃, read₃⟩ := windowColumns_refers window free.below.right
    exact ⟨first ++ order ++ frame, ((refers₁.append refers₂).append refers₃).node rfl fun _ => rfl,
      by simp [callColumns, read₁, read₂, read₃]⟩

theorem windowColumns_refers (window : Option WindowSpec) (free : SelectFree (ofWindow? window)) :
    ∃ refs, Refers (ofWindow? window) refs ∧ windowColumns env window s = pure (refs.map (resolveColumn · s)) := by
  match window with
  | none => exact ⟨[], .nil, rfl⟩
  | some ⟨partitionBy, orderBy⟩ =>
    obtain ⟨first, refers, read⟩ := exprColumns_refers partitionBy free.left
    obtain ⟨order, refers', read'⟩ := orderColumns_refers orderBy free.right
    exact ⟨first ++ order, refers.append refers', by simp [windowColumns, read, read']⟩

theorem orderColumns_refers (items : List OrderItem) (free : SelectFree (ofOrder items)) :
    ∃ refs, Refers (ofOrder items) refs ∧ orderColumns env items s = pure (refs.map (resolveColumn · s)) := by
  match items with
  | [] => exact ⟨[], .nil, rfl⟩
  | ⟨e, _⟩ :: rest =>
    obtain ⟨first, _, refers, read⟩ := exprSources_refers e free.left
    obtain ⟨later, refers', read'⟩ := orderColumns_refers rest free.right
    exact ⟨first ++ later, refers.append refers', by simp [orderColumns, read, read']⟩

theorem whenColumns_refers (whens : List WhenClause) (free : SelectFree (ofWhens whens)) :
    ∃ refs, Refers (ofWhens whens) refs ∧ whenColumns env whens s = pure (refs.map (resolveColumn · s)) := by
  match whens with
  | [] => exact ⟨[], .nil, rfl⟩
  | ⟨condition, result⟩ :: rest =>
    obtain ⟨first, _, refers₁, read₁⟩ := exprSources_refers condition free.left.left
    obtain ⟨second, _, refers₂, read₂⟩ := exprSources_refers result free.left.right
    obtain ⟨later, refers₃, read₃⟩ := whenColumns_refers rest free.right
    exact ⟨first ++ second ++ later, (refers₁.append refers₂).append refers₃,
      by simp [whenColumns, read₁, read₂, read₃]⟩

end

end

/-! ### Tags -/

theorem Transform.compose_ne_bare (left : Transform) (op : String) (right : Transform) :
    left.compose op right ≠ .bare := by
  unfold Transform.compose
  split <;> nofun

theorem Transform.inner_ne_bare (t : Transform) : t.inner ≠ .bare := by
  cases t <;> nofun

/-- Only a column reference is read as it is, in parentheses or not. -/
theorem exprSources_bare_iff (env : Env) (e : Expr) (s : Scope) :
    (exprSources env e s).value.transform = .bare ↔ ∃ ref, e.unparen = .column ref := by
  match e with
  | .column ref => exact ⟨fun _ => ⟨ref, rfl⟩, fun _ => rfl⟩
  | .paren _ inner =>
    rw [exprSources, Expr.unparen]
    exact exprSources_bare_iff env inner s
  | .binary .. =>
    rw [exprSources]
    exact ⟨fun bare => absurd bare (Transform.compose_ne_bare _ _ _), nofun⟩
  | .unary .. =>
    rw [exprSources]
    exact ⟨fun bare => absurd bare (Transform.inner_ne_bare _), nofun⟩
  | .missing | .literal .. | .localVar .. | .star .. | .call _ | .case .. | .cast .. | .convert .. | .coalesce ..
  | .nullIf .. | .iif .. | .inList .. | .inQuery .. | .between .. | .isNull .. | .like .. | .collate .. | .subquery ..
  | .exists .. =>
    rw [exprSources]
    exact ⟨nofun, nofun⟩

/-- A tag is empty only where nothing is done to the column that is read. -/
theorem exprSources_tagged (env : Env) (e : Expr) (s : Scope) (empty : (exprSources env e s).value.transform.text = "") :
    (exprSources env e s).value.transform = .bare := by
  have admits : env.Admits env.statement (fun _ => True) fun _ _ => True := ⟨fun _ _ _ _ => trivial, fun _ => trivial⟩
  have run := ((env.supplies_all _).walk admits).exprSources e ⟨rfl, s.proper_all⟩ (List.Subset.refl _)
  exact run.value.2.tagged empty

/-- An expression without a query reads the column references that the walk of it visits, in visiting order with
duplicates, except those inside the style of a conversion, each resolved in the scope. Nothing is emitted. Its tag is
empty exactly if it is a column reference, in any number of parentheses. -/
theorem expression_reads_walk (env : Env) (e : Expr) (s : Scope) :
    e.places.map (·.node) = Outline.visitAll (fun _ => false) (Outline.ofExpr e) ∧
      (e.SelectFree →
        (exprSources env e s).value.columns = e.valueRefs.map (resolveColumn · s) ∧ (exprSources env e s).events = []) ∧
      ((exprSources env e s).value.transform.text = "" ↔ ∃ ref, e.unparen = .column ref) := by
  refine ⟨Outline.placesAll_node [] [] 0 _, fun free => ?_, ?_⟩
  · obtain ⟨refs, transform, refers, read⟩ := exprSources_refers env s e free
    rw [read, refers.valueRefs_eq]
    exact ⟨rfl, rfl⟩
  · rw [← exprSources_bare_iff env e s]
    exact ⟨exprSources_tagged env e s, fun bare => by rw [bare]; rfl⟩

/-- `CONVERT(int, t.d, t.fmt) + (t.d)` reads `t.d` twice. The walk visits `t.fmt` too. -/
theorem expression_reads_walk_convert :
    let ref (column : String) : ColumnRef := { table := "t", column }
    let e : Expr := .binary .unset (.convert .unset "int" (.column (ref "d")) (some (.column (ref "fmt"))) false) .add
      (.paren .unset (.column (ref "d")))
    let s : Scope := ({} : Scope).child.bind (.ofSource { name := "T", schema := "dbo", aliasName := "t", kind := .plain } none)
    let d : SourceColumn := { column := "d", qualifier := "t", schema := "dbo", table := "T", kind := some .plain }
    let read := (exprSources { defaultSchema := "dbo", resolve := fun _ _ => none } e s).value
    e.SelectFree ∧ e.places.filterMap (·.node.columnRef?) = [ref "d", ref "fmt", ref "d"] ∧ read.columns = [d, d] ∧
      read.transform.text ≠ "" := by
  intro ref e s d read
  have free : e.SelectFree := by decide +kernel
  obtain ⟨-, reads, tag⟩ := expression_reads_walk { defaultSchema := "dbo", resolve := fun _ _ => none } e s
  have resolved : e.valueRefs.map (resolveColumn · s) = [d, d] := by decide +kernel
  refine ⟨free, by decide +kernel, (reads free).1.trans resolved, fun empty => ?_⟩
  obtain ⟨_, column⟩ := tag.1 empty
  cases column

end ColumnFlow
