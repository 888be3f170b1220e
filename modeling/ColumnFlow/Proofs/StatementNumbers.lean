import ColumnFlow.Proofs.QueryEvents

/-!
# Numbers of statements

The number of a statement goes into its edges and gaps and is looked at nowhere else. So a run that starts with a
higher number does the same and records the same events, with higher numbers: `Traced.Later`.
-/

namespace ColumnFlow

/-- The edge of a statement that comes `k` statements later. -/
def Edge.later (k : Nat) (e : Edge) : Edge := { e with statement := e.statement + k }

def Gap.later (k : Nat) (g : Gap) : Gap := { g with statement := g.statement + k }

def Event.later (k : Nat) : Event → Event
  | .edge e => .edge (e.later k)
  | .gap g => .gap (g.later k)
  | .object name => .object name
  | .table key columns => .table key columns
  | .common d => .common d

def Env.later (k : Nat) (env : Env) : Env := { env with statement := env.statement + k }

/-- The second computation does what the first does, `k` statements later. -/
structure Traced.Later {α : Type} (k : Nat) (x y : Traced α) : Prop where
  value : y.value = x.value
  events : y.events = x.events.map (Event.later k)

theorem Env.admits_later (env : Env) (k : Nat) :
    env.AdmitsStatements (env.statement + k) (fun _ => True) fun event event' => event' = event.later k where
  edge _ _ _ := rfl
  common _ := rfl
  gap _ _ _ := rfl
  table _ _ := rfl
  object _ := rfl

theorem stmtEvents_later {k : Nat} (env : Env) (stmt : Stmt) :
    Traced.Later k (stmtEvents env stmt) (stmtEvents (env.later k) stmt) := by
  have run := (env.supplies_all _).stmtEvents (env.admits_later k) env.commons.proper_all stmt
    (List.Subset.refl _) fun _ _ => rfl
  refine ⟨run.value.1, ?_⟩
  rw [← List.forall₂_eq_eq_eq, List.forall₂_map_right_iff]
  exact run.events.flip

end ColumnFlow
