import ColumnFlow.Proofs.WriteSources

/-!
# What queries and statements record

Expressions, queries and table sources record edges of result sets and common tables, and nothing else; statements that
write record other edges and gaps besides. Whatever edges and gaps they record carry the number of the statement. In
particular none of them makes a table known to later statements.
-/

namespace ColumnFlow

/-- Every event of a traced computation has the property. -/
abbrev Traced.Emits {α : Type} (P : Event → Prop) (x : Traced α) : Prop := x.Ensures P fun _ => True

/-- An edge of a result set, or a common table that can be named from here on. -/
def Event.OfQuery : Event → Prop
  | .edge e => e.kind = .select
  | .common _ => True
  | _ => False

/-- An edge, a common table or a gap. -/
def Event.OfWrite : Event → Prop
  | .edge _ | .common _ | .gap _ => True
  | _ => False

/-- The number of the statement that an edge or a gap comes from. -/
def Event.number? : Event → Option Nat
  | .edge e => some e.statement
  | .gap g => some g.statement
  | _ => none

/-- The event carries the number or none. -/
def Event.Numbered (n : Nat) (event : Event) : Prop := ∀ m, event.number? = some m → m = n

theorem Env.admits_ofQuery (env : Env) : env.Admits env.statement (fun _ => True) fun event _ => event.OfQuery :=
  ⟨fun _ kind _ _ => kind, fun _ => trivial⟩

theorem Env.admits_ofWrite (env : Env) : env.AdmitsWrites env.statement (fun _ => True) fun event _ => event.OfWrite :=
  ⟨fun _ _ _ => trivial, fun _ => trivial, fun _ _ _ => trivial⟩

theorem Env.admits_numbered (env : Env) :
    env.AdmitsStatements env.statement (fun _ => True) fun event _ => event.Numbered env.statement where
  edge _ _ _ _ same := (Option.some.inj same).symm
  common _ _ := nofun
  gap _ _ _ _ same := (Option.some.inj same).symm
  table _ _ _ := nofun
  object _ _ := nofun

section

variable {env : Env} {n : Nat} {P : Event → Prop} (admits : env.Admits n (fun _ => True) fun event _ => P event)

include admits

theorem queryColumns_emits (q : Query) (outer : Scope) : (queryColumns env q outer).Emits P := by
  have run := ((env.supplies_all _).walk admits).queryColumns q ⟨rfl, outer.proper_all⟩ (List.Subset.refl _)
  exact ⟨run.ensures.events, trivial⟩

theorem defineCommon?_emits (clause : Option WithClause) (s : Scope) : (defineCommon? env clause s).Emits P := by
  have run := ((env.supplies_all _).walk admits).defineCommon? clause ⟨rfl, s.proper_all⟩ (List.Subset.refl _)
  exact ⟨run.ensures.events, trivial⟩

theorem bindTable_emits (table : TableRef) (s : Scope) : (bindTable env table s).Emits P := by
  have run := ((env.supplies_all _).walk admits).bindTable table ⟨rfl, s.proper_all⟩ (List.Subset.refl _)
  exact ⟨run.ensures.events, trivial⟩

end

variable (env : Env)

theorem insertStmt_write (stmt : InsertStmt) : (insertStmt env stmt).Emits Event.OfWrite :=
  ((env.supplies_all _).insertStmt env.admits_ofWrite env.commons.proper_all stmt (List.Subset.refl _)).ensures

theorem updateStmt_write (stmt : UpdateStmt) : (updateStmt env stmt).Emits Event.OfWrite :=
  ((env.supplies_all _).updateStmt env.admits_ofWrite env.commons.proper_all stmt (List.Subset.refl _)).ensures

theorem deleteStmt_write (stmt : DeleteStmt) : (deleteStmt env stmt).Emits Event.OfWrite :=
  ((env.supplies_all _).deleteStmt env.admits_ofWrite env.commons.proper_all stmt (List.Subset.refl _)).ensures

theorem mergeStmt_write (stmt : MergeStmt) : (mergeStmt env stmt).Emits Event.OfWrite :=
  ((env.supplies_all _).mergeStmt env.admits_ofWrite env.commons.proper_all stmt (List.Subset.refl _)
    fun _ _ => trivial).ensures

end ColumnFlow
