import ColumnFlow.Graph.Basic

/-!
# Reachability and cycles
-/

namespace ColumnFlow.ColumnGraph

/-- Everything that can be reached from the pending columns, added to what is found. Each round takes one
pending column; a column becomes pending when it is found, so the rounds are at most the pending columns and
all columns. -/
def explore (next : String → List String) : Nat → List String → List String → List String
  | 0, _, found => found
  | _ + 1, [], found => found
  | n + 1, id :: rest, found =>
    let fresh := (next id).filter fun other => !found.contains other
    explore next n (fresh ++ rest) (found ++ fresh)

/-- The columns reached from some columns by one or more steps, those columns left out. -/
def reach (g : ColumnGraph) (next : String → List String) (start : List String) : List String :=
  let found := explore next (start.length + g.nodes.length + 1) start []
  sortTexts (found.filter fun id => !start.contains id)

/-- The columns derived from the given ones, directly or not. -/
def descendants (g : ColumnGraph) (ids : List String) : List String := g.reach g.targets ids

/-- The columns the given ones are derived from, directly or not. -/
def ancestors (g : ColumnGraph) (ids : List String) : List String := g.reach g.sources ids

/-! ### Cycles -/

/-- What a search for cycles has done so far. -/
structure CycleSearch where
  /-- The columns it has entered. -/
  seen : List String := []
  /-- The columns with those from which they were entered, latest first. What a finished branch has noted stays. -/
  entered : List (String × String) := []
  deriving DecidableEq, Repr

/-- An arrow that leads from the column `last` back to a column on the way to it. -/
structure BackArrow where
  first : String
  last : String
  entered : List (String × String)
  deriving DecidableEq, Repr

namespace BackArrow

/-- The columns on the way back from `id` to the first column of the cycle, that one left out, if at most `n` steps
lead there. -/
def stepsBack (a : BackArrow) : Nat → String → Option (List String)
  | 0, id => if id == a.first then some [] else none
  | n + 1, id =>
    if id == a.first then some []
    else do
      let rest ← stepsBack a n ((a.entered.lookup id).getD "")
      return id :: rest

/-- The whole way back. One that is longer than the notes runs in circles and never gets there. -/
def retrace (a : BackArrow) (id : String) : Option (List String) := a.stepsBack (a.entered.length + 1) id

/-- The cycle as a path that ends where it starts. -/
def path? (a : BackArrow) : Option (List String) := do
  let way ← a.retrace a.last
  return a.first :: way.reverse ++ [a.first]

end BackArrow

/-- Enter a column and then what it leads to, the columns that have been entered left out. `stack` holds the columns
on the way, innermost first. Fails with the first arrow that closes a cycle. -/
def visit (g : ColumnGraph) : Nat → List String → String → CycleSearch → Except BackArrow CycleSearch
  | 0, _, _, search => .ok search
  | n + 1, stack, id, search =>
    let stack := id :: stack
    (g.children id).foldlM (fun search child =>
        if !search.seen.contains child then
          visit g n stack child { search with entered := (child, id) :: search.entered }
        else if stack.contains child then .error { first := child, last := id, entered := search.entered }
        else .ok search)
      { search with seen := id :: search.seen }

/-- Enter a column without a way to it, unless it has been entered. -/
def enter (g : ColumnGraph) (search : CycleSearch) (node : ColumnNode) : Except BackArrow CycleSearch :=
  if search.seen.contains node.id then .ok search else g.visit g.nodes.length [] node.id search

/-- The first arrow met that closes a cycle, if there is one. -/
def backArrow? (g : ColumnGraph) : Option BackArrow :=
  match g.sortedNodes.foldlM g.enter {} with
  | .error arrow => some arrow
  | .ok _ => none

/-- A cycle as a path that ends where it starts, if there is one. -/
def cycle? (g : ColumnGraph) : Option (List String) := g.backArrow?.bind BackArrow.path?

end ColumnFlow.ColumnGraph
