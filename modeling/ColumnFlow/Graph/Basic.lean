import ColumnFlow.Text.Case
import ColumnFlow.Text.Quoted
import ColumnFlow.Text.Sorted

/-!
# The graph of columns

Nodes are columns, identified by their folded names. An arrow runs from a column to one whose value is derived
from it. An arrow is kept twice, with the column it leaves and with the column it enters, so that the graph can
be followed in both directions.
-/

namespace ColumnFlow

structure ColumnNode where
  id : String
  /-- The name as first seen. -/
  name : String
  /-- The definitions that write the column. -/
  writers : List String := []
  deriving DecidableEq, Repr

inductive GraphError where
  | noSource (id : String)
  | noTarget (id : String)
  | selfLoop (id : String)
  deriving DecidableEq, Repr

def GraphError.message : GraphError → String
  | .noSource id => s!"source column {Text.quoted id} does not exist"
  | .noTarget id => s!"target column {Text.quoted id} does not exist"
  | .selfLoop id => s!"self-loop detected: {id}"

/-- Neighbours of columns, by the identities of the columns. -/
abbrev Neighbours := List (String × List String)

namespace Neighbours

/-- The neighbours of a column. -/
def of (a : Neighbours) (id : String) : List String := (a.lookup id).getD []

/-- Make a column known, without neighbours. -/
def enter (a : Neighbours) (id : String) : Neighbours := a ++ [(id, [])]

/-- Add a neighbour of a column that is known, unless it is one already. -/
def add (a : Neighbours) (id other : String) : Neighbours :=
  a.map fun (known, others) =>
    if known == id && !others.contains other then (known, others ++ [other]) else (known, others)

end Neighbours

structure ColumnGraph where
  nodes : List ColumnNode := []
  /-- The columns derived from each column. -/
  forward : Neighbours := []
  /-- The columns each column is derived from. -/
  backward : Neighbours := []
  deriving DecidableEq, Repr

namespace ColumnGraph

/-- The identity of a column name. -/
def key (name : String) : String := Text.fold name

def has (g : ColumnGraph) (id : String) : Bool := g.nodes.any (·.id == id)

/-- The column with a name, in any case. -/
def node? (g : ColumnGraph) (name : String) : Option ColumnNode := g.nodes.find? (·.id == key name)

/-- Add a column, unless it is there already under some spelling. -/
def addNode (g : ColumnGraph) (name : String) : ColumnGraph :=
  if g.has (key name) then g
  else
    { nodes := g.nodes ++ [{ id := key name, name }]
      forward := g.forward.enter (key name)
      backward := g.backward.enter (key name) }

/-- Note that a definition writes a column. -/
def addWriter (g : ColumnGraph) (id definition : String) : ColumnGraph :=
  if definition == "" then g
  else
    let nodes := g.nodes.map fun node =>
      if node.id == id && !node.writers.contains definition then
        { node with writers := node.writers ++ [definition] }
      else node
    { g with nodes }

/-- Try to add an arrow between two different columns. Yields the graph after the attempt, and what is wrong with
the arrow if it cannot be added. -/
def connect (g : ColumnGraph) (source target : String) : ColumnGraph × Option GraphError :=
  if !g.has source then (g, some (.noSource source))
  else if !g.has target then (g, some (.noTarget target))
  else if source == target then (g, some (.selfLoop source))
  else ({ g with forward := g.forward.add source target, backward := g.backward.add target source }, none)

/-- The graph with an arrow between two different columns. -/
def addArrow (g : ColumnGraph) (source target : String) : Except GraphError ColumnGraph :=
  match g.connect source target with
  | (g, none) => .ok g
  | (_, some e) => .error e

/-- The columns directly derived from a column. -/
def targets (g : ColumnGraph) (id : String) : List String := g.forward.of id

/-- The columns a column is directly derived from. -/
def sources (g : ColumnGraph) (id : String) : List String := g.backward.of id

/-- Pairs of a source and a column derived from it. -/
def arrows (g : ColumnGraph) : List (String × String) :=
  g.forward.flatMap fun (source, targets) => targets.map (source, ·)

def children (g : ColumnGraph) (id : String) : List String := sortTexts (g.targets id)

def parents (g : ColumnGraph) (id : String) : List String := sortTexts (g.sources id)

/-- All columns by their identities. -/
def sortedNodes (g : ColumnGraph) : List ColumnNode := g.nodes.mergeSort fun a b => decide (a.id ≤ b.id)

/-- Columns that are derived from no other. -/
def roots (g : ColumnGraph) : List String :=
  sortTexts ((g.nodes.filter fun node => (g.sources node.id).isEmpty).map (·.id))

/-- Columns that no other is derived from. -/
def leaves (g : ColumnGraph) : List String :=
  sortTexts ((g.nodes.filter fun node => (g.targets node.id).isEmpty).map (·.id))

end ColumnGraph

end ColumnFlow
