import ColumnFlow.Syntax.Walk

/-!
# The tables a statement mentions

A name stands in a table position when it is a table source of a `FROM`, `JOIN`, `APPLY` or `USING`, or the
target of an `INSERT`, `UPDATE`, `DELETE` or `MERGE`. `Stmt.tableNames` lists the names in table positions
anywhere inside a statement.
-/

namespace ColumnFlow

/-- The name that a node puts into a table position. -/
def Node.tableName? : Node → Option ObjectName
  | .table (.named _ o _ _) => some o
  | .stmt (.insert s) => some s.target
  | .stmt (.update s) => some s.target
  | .stmt (.delete s) => some s.target
  | .stmt (.merge s) => some s.target
  | _ => none

namespace Outline

/-- All nodes of some outlines. -/
def nodes (outlines : List Outline) : List Node := visitAll (fun _ => false) outlines

@[simp] theorem nodes_nil : nodes [] = [] := rfl

@[simp] theorem nodes_append (a b : List Outline) : nodes (a ++ b) = nodes a ++ nodes b := by
  induction a with
  | nil => rfl
  | cons outline rest ih =>
    simp only [nodes, List.cons_append, visitAll, List.append_assoc] at ih ⊢
    rw [ih]

@[simp] theorem nodes_node (root : Node) (children : List Outline) :
    nodes [.node root children] = root :: nodes children := by
  simp [nodes, visitAll, visit]

theorem nodes_cons (outline : Outline) (rest : List Outline) :
    nodes (outline :: rest) = nodes [outline] ++ nodes rest := by
  rw [← nodes_append, List.singleton_append]

/-- The names in table positions in some outlines. -/
def tableNames (outlines : List Outline) : List ObjectName := (nodes outlines).filterMap Node.tableName?

@[simp] theorem tableNames_nil : tableNames [] = [] := rfl

/-- All names in table positions are among these. -/
def Known (names : List ObjectName) (outlines : List Outline) : Prop := tableNames outlines ⊆ names

variable {names : List ObjectName} {a b children : List Outline} {root : Node}

theorem known_append : Known names (a ++ b) ↔ Known names a ∧ Known names b := by
  simp [Known, tableNames]

theorem known_node : Known names [.node root children] ↔ root.tableName?.toList ⊆ names ∧ Known names children := by
  cases h : root.tableName? <;> simp [Known, tableNames, h]

namespace Known

theorem left (known : Known names (a ++ b)) : Known names a := (known_append.1 known).1

theorem right (known : Known names (a ++ b)) : Known names b := (known_append.1 known).2

theorem below (known : Known names [.node root children]) : Known names children := (known_node.1 known).2

theorem mem {name : ObjectName} (known : Known names [.node root children]) (named : root.tableName? = some name) :
    name ∈ names := (known_node.1 known).1 (by rw [named, Option.toList_some]; exact List.mem_singleton_self name)

end Known

end Outline

/-- The names in table positions inside a statement. -/
def Stmt.tableNames (stmt : Stmt) : List ObjectName := Outline.tableNames (Outline.ofStmt stmt)

end ColumnFlow
