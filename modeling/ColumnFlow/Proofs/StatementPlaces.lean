import ColumnFlow.Lineage.Dynamic
import ColumnFlow.Proofs.TableNames
import Mathlib.Data.List.Forall2

/-!
# Which statement a finding is about

`Script.places` is one walk of a script from its root, with the way to each node. A statement is listed if nothing but
batches and statements that hold statements stands above it. These are the statements that `Script.sites` numbers, and
what is recorded about the numbered statements, one after the other, is what the one walk meets: no node is met twice
and none is left out (`Script.recorded_accounts`). A node is recorded under the number of the innermost listed statement
that it lies in.
-/

namespace ColumnFlow

open List (map_cons mem_cons mem_append)

/-! ### Places -/

/-- Whether a statement can hold other statements. -/
def Stmt.holdsStatements : Stmt → Bool
  | .block .. | .ifElse .. | .loop .. | .tryCatch .. | .createProc .. | .createFunction .. | .createTrigger .. => true
  | _ => false

namespace Node

def isStatement : Node → Bool
  | .stmt _ | .query _ => true
  | _ => false

/-- Whether statements can stand directly below a node. -/
def holdsStatements : Node → Bool
  | .script _ | .batch _ => true
  | .stmt s => s.holdsStatements
  | _ => false

end Node

/-- A node of a tree with the way to it. -/
structure NodePlace where
  /-- Which child is entered on each level, from the root on. -/
  path : List Nat
  /-- The nodes that are passed, the last one first. -/
  above : List Node
  node : Node

namespace NodePlace

/-- Whether the place is a statement in a list of statements. -/
def isListed (place : NodePlace) : Bool := place.node.isStatement && place.above.all Node.holdsStatements

/-- One place lies in the tree below another one or is that place. -/
def Contains (outer inner : NodePlace) : Prop := outer.path <+: inner.path

instance (outer inner : NodePlace) : Decidable (outer.Contains inner) :=
  inferInstanceAs (Decidable (outer.path <+: inner.path))

end NodePlace

/-- Of the listed statements the one with the given number is the innermost around a place. -/
def Innermost (listed : List NodePlace) (number : Nat) (place : NodePlace) : Prop :=
  ∃ stmt, listed[number]? = some stmt ∧ stmt.Contains place ∧
    ∀ other ∈ listed, other.Contains place → other.Contains stmt

namespace Outline

mutual

/-- The places of a tree whose root is reached by `path`, parents first. -/
def places (above : List Node) (path : List Nat) : Outline → List NodePlace
  | .node root children => ⟨path, above, root⟩ :: placesAll (root :: above) path 0 children

/-- The places of some trees that are the children of one node, from the one with number `index` on. -/
def placesAll (above : List Node) (path : List Nat) (index : Nat) : List Outline → List NodePlace
  | [] => []
  | outline :: rest => places above (path ++ [index]) outline ++ placesAll above path (index + 1) rest

end

end Outline

def Script.places (script : Script) : List NodePlace := script.outline.places [] []

/-- The statements in lists of statements, in the order of the walk. -/
def Script.listed (script : Script) : List NodePlace := script.places.filter (·.isListed)

/-! ### Records -/

/-- What is kept of a construct before the findings are sorted. -/
structure Recorded where
  number : Nat
  node : Node
  kind : FindingKind
  risk : RiskLevel

/-- The finding that comes of a record. -/
def Recorded.finding (source : String) (found : Recorded) : Finding where
  kind := found.kind
  risk := found.risk
  pattern := shortened (found.node.span.text source)
  line := found.node.span.start.line
  column := found.node.span.start.column
  statement := found.number

/-- What is reported of a node, and where. -/
def Node.report? (node : Node) : Option (FindingKind × RiskLevel × Text.Span) :=
  node.risk?.map fun (kind, risk) => (kind, risk, node.span)

def Recorded.report (found : Recorded) : FindingKind × RiskLevel × Text.Span := (found.kind, found.risk, found.node.span)

def Node.recorded? (number : Nat) (node : Node) : Option Recorded :=
  node.risk?.map fun (kind, risk) => { number, node, kind, risk }

/-- The records of statements that are numbered from `first` on. -/
def Site.recorded (first : Nat) (sites : List Site) : List Recorded :=
  (sites.zipIdx first).flatMap fun (site, number) =>
    (Outline.nodes site.stmt.ownOutline).filterMap (Node.recorded? number)

def Script.recorded (script : Script) : List Recorded := Site.recorded 0 script.sites

theorem Script.findings_eq_recorded (script : Script) :
    script.findings = (script.recorded.map (·.finding script.source)).mergeSort Finding.isBefore := by
  unfold Script.findings Script.recorded Site.recorded
  rw [List.map_flatMap]
  refine congrArg (List.mergeSort · Finding.isBefore) (List.flatMap_congr fun pair _ => ?_)
  rw [List.map_filterMap]
  refine List.filterMap_congr fun node _ => ?_
  cases risk : node.risk? <;> simp [Node.recorded?, risk, Recorded.finding]

/-! ### Paths -/

namespace Outline

/-- The places of a list of outlines are numbered on from those before. -/
theorem placesAll_append (above : List Node) (path : List Nat) (index : Nat) (a b : List Outline) :
    placesAll above path index (a ++ b) =
      placesAll above path index a ++ placesAll above path (index + a.length) b := by
  induction a generalizing index with
  | nil => rfl
  | cons outline rest ih =>
    rw [List.cons_append, placesAll, placesAll, ih, List.append_assoc, List.length_cons, Nat.add_right_comm,
      Nat.add_assoc index]

mutual

theorem places_node (above : List Node) (path : List Nat) (outline : Outline) :
    (places above path outline).map (·.node) = outline.visit fun _ => false := by
  match outline with
  | .node root children => simp [places, visit, placesAll_node, nodes]

theorem placesAll_node (above : List Node) (path : List Nat) (index : Nat) (outlines : List Outline) :
    (placesAll above path index outlines).map (·.node) = nodes outlines := by
  match outlines with
  | [] => rfl
  | outline :: rest => rw [placesAll, List.map_append, places_node, placesAll_node, nodes, nodes, visitAll]

end

variable {above : List Node} {path : List Nat} {index : Nat} {outline : Outline} {outlines : List Outline}
  {place : NodePlace}

/-- Which of the trees a place lies in shows in its path. -/
theorem mem_placesAll (mem : place ∈ placesAll above path index outlines) :
    ∃ j, (index ≤ j ∧ j < index + outlines.length) ∧ ∃ outline ∈ outlines, place ∈ places above (path ++ [j]) outline := by
  induction outlines generalizing index with
  | nil => simp [placesAll] at mem
  | cons outline rest ih =>
    rw [placesAll, mem_append] at mem
    rw [List.length_cons]
    rcases mem with mem | mem
    · exact ⟨index, by omega, outline, List.mem_cons_self, mem⟩
    · obtain ⟨j, range, outline, member, below⟩ := ih mem
      exact ⟨j, by omega, outline, List.mem_cons_of_mem _ member, below⟩

/-- A place of a tree lies below the root of the tree and below all that is above it. -/
theorem below_of_mem_places {path : List Nat} {above : List Node} {outline : Outline}
    (mem : place ∈ places above path outline) : path <+: place.path ∧ above <:+ place.above := by
  match outline with
  | .node root children =>
    rw [places, mem_cons] at mem
    rcases mem with rfl | mem
    · exact ⟨List.prefix_rfl, List.suffix_rfl⟩
    · obtain ⟨j, _, child, member, mem⟩ := mem_placesAll mem
      have smaller := List.sizeOf_lt_of_mem member
      obtain ⟨way, nodes⟩ := below_of_mem_places mem
      exact ⟨(List.prefix_append path [j]).trans way, (List.suffix_cons root above).trans nodes⟩
termination_by outline

theorem path_of_mem_placesAll (mem : place ∈ placesAll above path index outlines) :
    ∃ j, (index ≤ j ∧ j < index + outlines.length) ∧ path ++ [j] <+: place.path := by
  obtain ⟨j, range, outline, _, mem⟩ := mem_placesAll mem
  exact ⟨j, range, (below_of_mem_places mem).1⟩

/-- Places in different children of a node do not contain each other. -/
theorem apart_of_index_lt {path : List Nat} {i j : Nat} {a b : NodePlace} (lt : i < j) (left : path ++ [i] <+: a.path)
    (right : path ++ [j] <+: b.path) : ¬a.Contains b ∧ ¬b.Contains a := by
  have differ : path ++ [i] ≠ path ++ [j] := by
    intro same
    have : i = j := by simpa using same
    omega
  have meet : ∀ whole : List Nat, path ++ [i] <+: whole → path ++ [j] <+: whole → False := fun whole first second =>
    differ ((List.prefix_of_prefix_length_le first second (by simp)).eq_of_length (by simp))
  exact ⟨fun inside => meet _ (left.trans inside) right, fun inside => meet _ left (right.trans inside)⟩

/-- Below a node that holds no statements nothing is listed. -/
theorem not_listed_of_mem_placesAll (closed : above.all Node.holdsStatements = false)
    (mem : place ∈ placesAll above path index outlines) : place.isListed = false := by
  obtain ⟨j, _, outline, _, mem⟩ := mem_placesAll mem
  obtain ⟨_, nearer, whole⟩ := below_of_mem_places mem
  rw [NodePlace.isListed, ← whole, List.all_append, closed, Bool.and_false, Bool.and_false]

/-- An expression has a node of an expression at its root. -/
theorem root_of_mem_ofExpr {e : Expr} (mem : outline ∈ ofExpr e) :
    ∃ e' children, outline = .node (.expr e') children := by
  cases e with
  | missing => simp [ofExpr] at mem
  | call fn =>
    obtain ⟨⟩ := fn
    rw [ofExpr, ofCall, List.mem_singleton] at mem
    exact ⟨_, _, mem⟩
  | _ =>
    rw [ofExpr, List.mem_singleton] at mem
    exact ⟨_, _, mem⟩

theorem not_listed_of_mem_ofExpr {e : Expr} (mem : place ∈ placesAll above path index (ofExpr e)) :
    place.isListed = false := by
  obtain ⟨j, _, outline, member, mem⟩ := mem_placesAll mem
  obtain ⟨e', children, rfl⟩ := root_of_mem_ofExpr member
  rw [places, mem_cons] at mem
  rcases mem with rfl | mem
  · rfl
  · exact not_listed_of_mem_placesAll (by rw [List.all_cons]; rfl) mem

end Outline

/-! ### Innermost statements -/

namespace Innermost

variable {listed listed' : List NodePlace} {n : Nat} {root place : NodePlace}

/-- A statement stays the innermost one as long as no other statement around the place is added. -/
theorem among {m : Nat} (h : Innermost listed n place) (kept : ∀ stmt, listed[n]? = some stmt → listed'[m]? = some stmt)
    (apart : ∀ b ∈ listed', b ∈ listed ∨ ¬b.Contains place) : Innermost listed' m place := by
  obtain ⟨stmt, at_n, around, least⟩ := h
  refine ⟨stmt, kept stmt at_n, around, fun other mem inside => ?_⟩
  rcases apart other mem with mem | outside
  · exact least other mem inside
  · exact absurd inside outside

theorem left (h : Innermost listed n place) (apart : ∀ b ∈ listed', ¬b.Contains place) :
    Innermost (listed ++ listed') n place :=
  h.among (fun _ found => by rw [List.getElem?_append_left (List.getElem?_eq_some_iff.mp found).1, found])
    fun b mem => (mem_append.mp mem).imp_right (apart b)

theorem right (h : Innermost listed' n place) (apart : ∀ b ∈ listed, ¬b.Contains place) :
    Innermost (listed ++ listed') (listed.length + n) place :=
  h.among (fun _ found => by rw [List.getElem?_append_right (Nat.le_add_right ..), Nat.add_sub_cancel_left, found])
    fun b mem => (mem_append.mp mem).symm.imp_right (apart b)

/-- A statement around all others is not the innermost one. -/
theorem below (h : Innermost listed n place) (around : ∀ stmt ∈ listed, root.Contains stmt) :
    Innermost (root :: listed) (n + 1) place := by
  obtain ⟨stmt, at_n, inside, least⟩ := h
  refine ⟨stmt, at_n, inside, fun other mem contains => ?_⟩
  rcases mem_cons.mp mem with rfl | mem
  · exact around stmt (List.mem_of_getElem? at_n)
  · exact least other mem contains

theorem head (around : root.Contains place) (apart : ∀ b ∈ listed, ¬b.Contains place) :
    Innermost (root :: listed) 0 place := by
  refine ⟨root, rfl, around, fun other mem inside => ?_⟩
  rcases mem_cons.mp mem with rfl | mem
  · exact List.prefix_rfl
  · exact absurd inside (apart other mem)

end Innermost

/-- The records are those of the places, in their order, each under the number of the innermost listed statement around
its place. Numbers start with `first`. -/
def Accounts (listed : List NodePlace) (first : Nat) (found : List Recorded) (places : List NodePlace) : Prop :=
  List.Forall₂ (fun (record : Recorded) (place : NodePlace) => place.node.recorded? record.number = some record ∧
      ∃ n, record.number = first + n ∧ Innermost listed n place)
    found (places.filter (·.node.risk?.isSome))

namespace Accounts

variable {listed listed' : List NodePlace} {first : Nat} {found found' : List Recorded} {ps ps' : List NodePlace}
  {root : NodePlace}

/-- More statements are listed, some of them in front. -/
theorem widen (skipped : Nat) (h : Accounts listed (first + skipped) found ps)
    (wider : ∀ n, ∀ place ∈ ps, Innermost listed n place → Innermost listed' (skipped + n) place) :
    Accounts listed' first found ps := by
  refine List.forall₂_iff_zip.mpr ⟨h.length_eq, fun {record place} mem => ?_⟩
  obtain ⟨same, n, number, innermost⟩ := List.forall₂_zip h mem
  have inside : place ∈ ps := (List.mem_filter.mp (List.of_mem_zip mem).2).1
  exact ⟨same, skipped + n, by rw [number, Nat.add_assoc], wider n place inside innermost⟩

/-- Two lists side by side, of which no place contains one of the other. -/
theorem append (h : Accounts (ps.filter (·.isListed)) first found ps)
    (h' : Accounts (ps'.filter (·.isListed)) (first + (ps.filter (·.isListed)).length) found' ps')
    (apart : ∀ a ∈ ps, ∀ b ∈ ps', ¬a.Contains b ∧ ¬b.Contains a) :
    Accounts ((ps ++ ps').filter (·.isListed)) first (found ++ found') (ps ++ ps') := by
  unfold Accounts
  rw [List.filter_append, List.filter_append]
  refine List.rel_append (widen 0 h fun n place mem innermost => ?_) (widen _ h' fun n place mem innermost => ?_)
  · rw [Nat.zero_add]
    exact innermost.left fun b listed => (apart place mem b (List.mem_filter.mp listed).1).2
  · exact innermost.right fun b listed => (apart b (List.mem_filter.mp listed).1 place mem).1

/-- A node that is neither listed nor recorded makes no difference. -/
theorem skip (h : Accounts (ps.filter (·.isListed)) first found ps) (plain : root.isListed = false)
    (quiet : root.node.risk? = none) : Accounts ((root :: ps).filter (·.isListed)) first found (root :: ps) := by
  unfold Accounts
  rw [List.filter_cons_of_neg (by simp [plain]), List.filter_cons_of_neg (by simp [quiet])]
  exact h

end Accounts

/-- Records under one number. -/
theorem accounts_of_forall_innermost {listed : List NodePlace} {number n first : Nat} {places : List NodePlace}
    (same : number = first + n) (all : ∀ place ∈ places, Innermost listed n place) :
    Accounts listed first ((places.map (·.node)).filterMap (Node.recorded? number)) places := by
  unfold Accounts
  induction places with
  | nil => exact .nil
  | cons place rest ih =>
    have tail := ih fun place mem => all place (List.mem_cons_of_mem _ mem)
    cases risk : place.node.risk? with
    | none =>
      rw [map_cons, List.filterMap_cons_none (by simp [Node.recorded?, risk]),
        List.filter_cons_of_neg (by simp [risk])]
      exact tail
    | some pair =>
      have recorded : place.node.recorded? number = some ⟨number, place.node, pair.1, pair.2⟩ := by
        simp [Node.recorded?, risk]
      rw [map_cons, List.filterMap_cons_some recorded, List.filter_cons_of_pos (by simp [risk])]
      exact .cons ⟨recorded, n, same, all place List.mem_cons_self⟩ tail

/-- Records tell what is reported of the nodes they are of. -/
theorem report_of_recorded {found : List Recorded} {places : List NodePlace}
    (h : List.Forall₂ (fun (record : Recorded) (place : NodePlace) => place.node.recorded? record.number = some record)
      found (places.filter (·.node.risk?.isSome))) :
    found.map Recorded.report = (places.map (·.node)).filterMap Node.report? := by
  induction places generalizing found with
  | nil =>
    rw [List.filter_nil, List.forall₂_nil_right_iff] at h
    rw [h]
    rfl
  | cons place rest ih =>
    cases risk : place.node.risk? with
    | none =>
      rw [List.filter_cons_of_neg (by simp [risk])] at h
      rw [ih h, map_cons, List.filterMap_cons_none (by simp [Node.report?, risk])]
    | some pair =>
      rw [List.filter_cons_of_pos (by simp [risk]), List.forall₂_cons_right_iff] at h
      obtain ⟨record, others, same, tail, rfl⟩ := h
      have reported : place.node.report? = some record.report := by
        rw [Node.recorded?, risk, Option.map_some, Option.some.injEq] at same
        rw [Node.report?, risk, ← same]
        rfl
      rw [map_cons, map_cons, List.filterMap_cons_some reported, ih tail]

/-! ### Statements -/

namespace Stmt

/-- The statements directly inside a statement. -/
def inner : Stmt → List Stmt
  | .block _ body | .createProc _ _ _ _ body | .createFunction _ _ body | .createTrigger _ _ _ _ _ body => body
  | .ifElse _ _ yes no => yes :: no.toList
  | .loop _ _ body => [body]
  | .tryCatch _ attempt handler => attempt ++ handler
  | _ => []

/-- The node of a statement; that of a `SELECT` is its query. -/
def node : Stmt → Node
  | .select query => .query query
  | stmt => .stmt stmt

/-- Statements inside a statement are smaller, which the recursion over them rests on. -/
theorem sizeOf_lt_of_mem_inner {stmt s : Stmt} (mem : s ∈ stmt.inner) : sizeOf s < sizeOf stmt := by
  have inList : ∀ {stmts : List Stmt}, s ∈ stmts → sizeOf s < sizeOf stmts := List.sizeOf_lt_of_mem
  cases stmt with
  | ifElse span cond yes no =>
    rcases mem_cons.mp mem with rfl | mem
    · simp only [ifElse.sizeOf_spec]
      omega
    · obtain rfl := Option.mem_toList.mp mem
      simp only [ifElse.sizeOf_spec, Option.some.sizeOf_spec]
      omega
  | loop span cond body =>
    obtain rfl := List.mem_singleton.mp mem
    simp only [loop.sizeOf_spec]
    omega
  | tryCatch span attempt handler =>
    simp only [tryCatch.sizeOf_spec]
    rcases mem_append.mp mem with mem | mem
    all_goals
      have := inList mem
      omega
  | block span body | createProc span alter name params body | createFunction span header body
  | createTrigger span alter name table events body =>
    have : sizeOf s < sizeOf body := inList mem
    simp only [block.sizeOf_spec, createProc.sizeOf_spec, createFunction.sizeOf_spec, createTrigger.sizeOf_spec]
    omega
  | _ => simp [inner] at mem

theorem inner_induction {P : Stmt → Prop} (step : ∀ stmt, (∀ s ∈ stmt.inner, P s) → P stmt) (stmt : Stmt) : P stmt :=
  step stmt fun s _ => inner_induction step s
termination_by sizeOf stmt
decreasing_by exact sizeOf_lt_of_mem_inner ‹_›

/-- Lists of statements, by what is inside their first statement and by their rest. -/
theorem list_induction {motive : List Stmt → Prop} (nil : motive [])
    (cons : ∀ stmt rest, motive stmt.inner → motive rest → motive (stmt :: rest)) (stmts : List Stmt) :
    motive stmts := by
  have whole : ∀ stmts : List Stmt, (∀ s ∈ stmts, motive s.inner) → motive stmts := by
    intro stmts inside
    induction stmts with
    | nil => exact nil
    | cons stmt rest ih =>
      exact cons stmt rest (inside stmt List.mem_cons_self) (ih fun s mem => inside s (List.mem_cons_of_mem _ mem))
  exact whole stmts fun s _ => inner_induction (fun stmt inside => whole stmt.inner inside) s

/-- What a statement consists of: its own nodes, of which none is listed, and the statements inside it. -/
structure Parted (stmt : Stmt) (own : List Outline) : Prop where
  outline : Outline.ofStmt stmt = [.node stmt.node (own ++ Outline.ofStmts stmt.inner)]
  statement : stmt.node.isStatement = true
  holds : stmt.inner = [] ∨ stmt.node.holdsStatements = true
  recorded : ∀ number, (Outline.nodes stmt.ownOutline).filterMap (Node.recorded? number) =
    (stmt.node :: Outline.nodes own).filterMap (Node.recorded? number)
  plain : ∀ {above : List Node} {path : List Nat} {index : Nat} {place : NodePlace},
    place ∈ Outline.placesAll (stmt.node :: above) path index own → place.isListed = false
  sites : ∀ owner, ∃ owner', Site.ofStmt owner stmt = ⟨stmt, owner⟩ :: Site.ofStmts owner' stmt.inner

theorem ofStmts_append (a b : List Stmt) : Outline.ofStmts (a ++ b) = Outline.ofStmts a ++ Outline.ofStmts b := by
  induction a with
  | nil => rfl
  | cons stmt rest ih => rw [List.cons_append, Outline.ofStmts, Outline.ofStmts, ih, List.append_assoc]

theorem sites_append (owner : Option Owner) (a b : List Stmt) :
    Site.ofStmts owner (a ++ b) = Site.ofStmts owner a ++ Site.ofStmts owner b := by
  induction a with
  | nil => rfl
  | cons stmt rest ih => rw [List.cons_append, Site.ofStmts, Site.ofStmts, ih, List.append_assoc]

variable {stmt : Stmt}

/-- A statement that holds no others is one site. -/
theorem parted_of_leaf {own : List Outline} (outline : Outline.ofStmt stmt = [.node stmt.node own])
    (statement : stmt.node.isStatement = true) (closed : stmt.node.holdsStatements = false) (none : stmt.inner = [])
    (whole : stmt.ownOutline = Outline.ofStmt stmt) (sites : ∀ owner, Site.ofStmt owner stmt = [⟨stmt, owner⟩]) :
    stmt.Parted own where
  outline := by rw [outline, none, Outline.ofStmts, List.append_nil]
  statement := statement
  holds := .inl none
  recorded number := by rw [whole, outline, Outline.nodes_node]
  plain := Outline.not_listed_of_mem_placesAll (by rw [List.all_cons, closed, Bool.false_and])
  sites owner := ⟨owner, by rw [sites, none, Site.ofStmts]⟩

/-- A statement that holds others comes before them. -/
theorem parted_of_holder (node : stmt.node = .stmt stmt) (opens : stmt.holdsStatements = true)
    (quiet : (Node.stmt stmt).risk? = none)
    (outline : Outline.ofStmt stmt = [.node (.stmt stmt) (stmt.ownOutline ++ Outline.ofStmts stmt.inner)])
    (plain : stmt.ownOutline = [] ∨ ∃ cond, stmt.ownOutline = Outline.ofExpr cond)
    (sites : ∀ owner, ∃ owner', Site.ofStmt owner stmt = ⟨stmt, owner⟩ :: Site.ofStmts owner' stmt.inner) :
    stmt.Parted stmt.ownOutline where
  outline := by rw [outline, node]
  statement := by rw [node]; rfl
  holds := .inr (by rw [node]; exact opens)
  recorded number := by rw [node, List.filterMap_cons_none (by rw [Node.recorded?, quiet]; rfl)]
  plain {above path index place} mem := by
    rcases plain with own | ⟨cond, own⟩ <;> rw [own] at mem
    · simp [Outline.placesAll] at mem
    · exact Outline.not_listed_of_mem_ofExpr mem
  sites := sites

/-- Each kind of statement is of one of the two forms. -/
theorem exists_parted (present : stmt.isMissing = false) : ∃ own, stmt.Parted own := by
  cases stmt with
  | missing => simp [isMissing] at present
  | block span body | createProc span alter name params body | createFunction span header body
  | createTrigger span alter name table events body =>
    exact ⟨_, parted_of_holder rfl rfl rfl rfl (.inl rfl) fun owner => ⟨_, rfl⟩⟩
  | tryCatch span attempt handler =>
    refine ⟨_, parted_of_holder rfl rfl rfl ?_ (.inl rfl) fun owner => ⟨owner, ?_⟩⟩
    · rw [inner, ofStmts_append]
      rfl
    · rw [inner, sites_append]
      rfl
  | ifElse span cond yes no =>
    refine ⟨_, parted_of_holder rfl rfl rfl ?_ (.inr ⟨cond, rfl⟩) fun owner => ⟨owner, ?_⟩⟩
    · cases no <;> simp [Outline.ofStmt, Outline.ofStmt?, Outline.ofStmts, ownOutline, inner]
    · cases no <;> simp [Site.ofStmt, Site.ofStmt?, Site.ofStmts, inner]
  | loop span cond body =>
    refine ⟨_, parted_of_holder rfl rfl rfl ?_ (.inr ⟨cond, rfl⟩) fun owner => ⟨owner, ?_⟩⟩
    · simp [Outline.ofStmt, Outline.ofStmts, ownOutline, inner]
    · simp [Site.ofStmt, Site.ofStmts, inner]
  | select query =>
    obtain ⟨⟩ := query
    exact ⟨_, parted_of_leaf rfl rfl rfl rfl rfl fun _ => rfl⟩
  | _ => exact ⟨_, parted_of_leaf rfl rfl rfl rfl rfl fun _ => rfl⟩

end Stmt

theorem Site.recorded_append (first : Nat) (a b : List Site) :
    Site.recorded first (a ++ b) = Site.recorded first a ++ Site.recorded (first + a.length) b := by
  simp only [Site.recorded, List.zipIdx_append, List.flatMap_append]

theorem Site.recorded_cons (first : Nat) (site : Site) (rest : List Site) :
    Site.recorded first (site :: rest) =
      (Outline.nodes site.stmt.ownOutline).filterMap (Node.recorded? first) ++ Site.recorded (first + 1) rest := by
  simp only [Site.recorded, List.zipIdx_cons, List.flatMap_cons]

/-- Places list the statements of some sites, and their records are those of the sites. -/
structure Lists (places : List NodePlace) (sites : List Site) : Prop where
  listed : (places.filter (·.isListed)).map (·.node) = sites.map (·.stmt.node)
  accounts : ∀ first, Accounts (places.filter (·.isListed)) first (Site.recorded first sites) places

namespace Lists

variable {ps ps' : List NodePlace} {sites sites' : List Site} {root : NodePlace}

theorem nil : Lists [] [] := ⟨rfl, fun _ => .nil⟩

theorem length_eq (h : Lists ps sites) : (ps.filter (·.isListed)).length = sites.length := by
  have := congrArg List.length h.listed
  rwa [List.length_map, List.length_map] at this

theorem append (h : Lists ps sites) (h' : Lists ps' sites')
    (apart : ∀ a ∈ ps, ∀ b ∈ ps', ¬a.Contains b ∧ ¬b.Contains a) : Lists (ps ++ ps') (sites ++ sites') where
  listed := by rw [List.filter_append, List.map_append, List.map_append, h.listed, h'.listed]
  accounts first := by
    rw [Site.recorded_append]
    exact (h.accounts first).append (by rw [h.length_eq]; exact h'.accounts _) apart

theorem skip (h : Lists ps sites) (plain : root.isListed = false) (quiet : root.node.risk? = none) :
    Lists (root :: ps) sites where
  listed := by rw [List.filter_cons_of_neg (by simp [plain])]; exact h.listed
  accounts first := (h.accounts first).skip plain quiet

/-- A statement comes first among those that are listed in it, and is the innermost one around its own nodes. -/
theorem under {site : Site} {front back : List NodePlace} (first : root.isListed = true)
    (same : root.node = site.stmt.node)
    (recorded : ∀ number, (Outline.nodes site.stmt.ownOutline).filterMap (Node.recorded? number) =
      (root.node :: front.map (·.node)).filterMap (Node.recorded? number))
    (plain : ∀ place ∈ front, place.isListed = false) (h : Lists back sites)
    (around : ∀ place ∈ front ++ back, root.Contains place) (below : ∀ place ∈ back, ¬place.Contains root)
    (apart : ∀ p ∈ front, ∀ q ∈ back, ¬q.Contains p) : Lists (root :: (front ++ back)) (site :: sites) := by
  have listed : (root :: (front ++ back)).filter (·.isListed) = root :: back.filter (·.isListed) := by
    have none : front.filter (·.isListed) = [] := List.filter_eq_nil_iff.mpr fun place mem => by simp [plain place mem]
    rw [List.filter_cons_of_pos first, List.filter_append, none, List.nil_append]
  have inBack : ∀ b ∈ back.filter (·.isListed), b ∈ back := fun b mem => (List.mem_filter.mp mem).1
  have own : ∀ place ∈ root :: front, Innermost (root :: back.filter (·.isListed)) 0 place := by
    intro place mem
    rcases mem_cons.mp mem with rfl | mem
    · exact .head List.prefix_rfl fun b listed => below b (inBack b listed)
    · exact .head (around place (List.mem_append_left _ mem)) fun b listed => apart place mem b (inBack b listed)
  refine ⟨?_, fun number => ?_⟩
  · rw [listed, map_cons, map_cons, h.listed, same]
  rw [listed, Site.recorded_cons, recorded, ← map_cons]
  unfold Accounts
  rw [← List.cons_append, List.filter_append]
  refine List.rel_append (accounts_of_forall_innermost rfl own) ((h.accounts (number + 1)).widen 1 ?_)
  intro n place mem innermost
  rw [Nat.add_comm]
  exact innermost.below fun stmt listed => around stmt (List.mem_append_right _ (inBack stmt listed))

end Lists

namespace Outline

variable {above : List Node} {index : Nat}

theorem apart_of_mem_placesAll {path : List Nat} {a b : List Outline} {p q : NodePlace}
    (left : p ∈ placesAll above path index a) (right : q ∈ placesAll above path (index + a.length) b) :
    ¬p.Contains q ∧ ¬q.Contains p := by
  obtain ⟨i, ⟨_, lt⟩, below⟩ := path_of_mem_placesAll left
  obtain ⟨j, ⟨le, _⟩, below'⟩ := path_of_mem_placesAll right
  exact apart_of_index_lt (Nat.lt_of_lt_of_le lt le) below below'

/-- The places below a node lie in it, and it in none of them. -/
theorem contains_of_mem_placesAll (root : NodePlace) {outlines : List Outline} {place : NodePlace}
    (mem : place ∈ placesAll above root.path index outlines) : root.Contains place ∧ ¬place.Contains root := by
  obtain ⟨j, _, below⟩ := path_of_mem_placesAll mem
  refine ⟨(List.prefix_append root.path [j]).trans below, fun inside => ?_⟩
  have longer := (below.trans inside).length_le
  rw [List.length_append, List.length_singleton] at longer
  omega

/-- A statement with its own nodes and with the statements inside it. -/
theorem lists_statement {stmt : Stmt} {own : List Outline} (parted : stmt.Parted own)
    (opens : above.all Node.holdsStatements = true) (path : List Nat) (owner : Option Owner)
    (inside : ∀ owner', Lists (placesAll (stmt.node :: above) path own.length (ofStmts stmt.inner))
      (Site.ofStmts owner' stmt.inner)) :
    Lists (places above path (.node stmt.node (own ++ ofStmts stmt.inner))) (Site.ofStmt owner stmt) := by
  obtain ⟨owner', sites⟩ := parted.sites owner
  rw [places, placesAll_append, Nat.zero_add, sites]
  refine .under ?_ rfl (fun number => ?_) (fun place mem => parted.plain mem) (inside owner') ?_ ?_ ?_
  · rw [NodePlace.isListed, parted.statement, opens]
    rfl
  · rw [parted.recorded, placesAll_node]
  · intro place mem
    rcases mem_append.mp mem with mem | mem
    · exact (contains_of_mem_placesAll ⟨path, above, stmt.node⟩ mem).1
    · exact (contains_of_mem_placesAll ⟨path, above, stmt.node⟩ mem).1
  · exact fun place mem => (contains_of_mem_placesAll ⟨path, above, stmt.node⟩ mem).2
  · exact fun p left q right => (apart_of_mem_placesAll left (by rw [Nat.zero_add]; exact right)).2

/-- The places of statements and their sites go along, by recursion over the statements inside. -/
theorem lists_ofStmts (stmts : List Stmt) : ∀ {above : List Node}, above.all Node.holdsStatements = true →
    ∀ (path : List Nat) (index : Nat) (owner : Option Owner),
      Lists (placesAll above path index (ofStmts stmts)) (Site.ofStmts owner stmts) := by
  induction stmts using Stmt.list_induction with
  | nil => exact fun _ _ _ _ => .nil
  | cons stmt rest inside others =>
    intro above opens path index owner
    rw [ofStmts, Site.ofStmts, placesAll_append]
    refine .append ?_ (others opens path _ owner) fun p left q right => apart_of_mem_placesAll left right
    cases missing : stmt.isMissing with
    | true =>
      obtain rfl : stmt = .missing := by cases stmt <;> simp [Stmt.isMissing] at missing ⊢
      exact .nil
    | false =>
      obtain ⟨own, parted⟩ := Stmt.exists_parted missing
      rw [parted.outline, placesAll, placesAll, List.append_nil]
      refine lists_statement parted opens _ owner fun owner' => ?_
      rcases parted.holds with none | holds
      · rw [none]
        exact .nil
      · exact inside (by rw [List.all_cons, holds, opens]; rfl) _ _ owner'

theorem lists_batches (batches : List Batch) (above : List Node) (opens : above.all Node.holdsStatements = true)
    (path : List Nat) (index : Nat) :
    Lists (placesAll above path index (batches.map Batch.outline)) (batches.flatMap Batch.sites) := by
  induction batches generalizing index with
  | nil => exact .nil
  | cons batch rest ih =>
    rw [map_cons, List.flatMap_cons, ← List.singleton_append, placesAll_append]
    refine .append ?_ (ih _) fun p left q right => apart_of_mem_placesAll left right
    rw [placesAll, placesAll, List.append_nil, Batch.outline, places]
    exact (lists_ofStmts batch.stmts (by rw [List.all_cons, opens]; rfl) _ _ none).skip rfl rfl

end Outline

namespace Script

variable (script : Script)

theorem lists_sites : Lists script.places script.sites :=
  (Outline.lists_batches script.batches [.script script] rfl [] 0).skip rfl rfl

theorem places_node : script.places.map (·.node) = script.nodes fun _ => false :=
  Outline.places_node [] [] script.outline

/-- The listed statements are the numbered ones, in the same order. -/
theorem listed_node : script.listed.map (·.node) = script.sites.map (·.stmt.node) := script.lists_sites.listed

/-- What is recorded are the nodes of one walk, each under the number of the innermost listed statement around it. -/
theorem recorded_accounts :
    List.Forall₂ (fun (record : Recorded) (place : NodePlace) => place.node.recorded? record.number = some record ∧
        Innermost script.listed record.number place)
      script.recorded (script.places.filter (·.node.risk?.isSome)) := by
  refine List.Forall₂.imp (fun record place h => ?_) (script.lists_sites.accounts 0)
  obtain ⟨same, n, number, innermost⟩ := h
  rw [Nat.zero_add] at number
  exact ⟨same, number ▸ innermost⟩

/-- What is recorded, in its order, is what one walk from the root meets. -/
theorem recorded_report : script.recorded.map Recorded.report = (script.nodes fun _ => false).filterMap Node.report? := by
  rw [← script.places_node]
  exact report_of_recorded (script.recorded_accounts.imp fun _ _ h => h.1)

end Script

end ColumnFlow
