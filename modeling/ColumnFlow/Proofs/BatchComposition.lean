import ColumnFlow.Proofs.StatementNumbers
import ColumnFlow.Proofs.TableCatalog

/-!
# Extraction of batches, one after another

Behind some batches a run differs from its start in the tables that it knows, in the common tables and in the number
of the next statement. Common tables are given up where a batch starts, and numbers only go into the results. So
batches after others that leave no table behind give the results that they give alone, with higher numbers.
-/

namespace ColumnFlow

namespace Env

variable {first : List Batch} (env : Env) (k : Nat)

/-- What events make known does not hang on their numbers. -/
theorem after_later (env : Env) (events : List Event) :
    (env.later k).after (events.map (Event.later k)) = (env.after events).later k := by
  induction events generalizing env with
  | nil => rfl
  | cons event rest ih =>
    have step : after.step (env.later k) (event.later k) = (after.step env event).later k := by cases event <;> rfl
    exact (congrArg (Env.after · _) step).trans (ih (after.step env event))

/-- Statements that come later by some number do the same and record it under later numbers. -/
theorem extractSites_later (env : Env) (sites : List Site) : (env.later k).extractSites sites =
      ((env.extractSites sites).1.map (Event.later k), (env.extractSites sites).2.later k) := by
  induction sites generalizing env with
  | nil => rfl
  | cons site rest ih =>
    have events := (stmtEvents_later (k := k) { env with owner := site.owner } site.stmt).events
    have known : (extractSites (env.later k) [site]).2 = (extractSites env [site]).2.later k := by
      have after := after_later k env (stmtEvents { env with owner := site.owner } site.stmt).events
      rw [← events] at after
      change { Env.after (env.later k) _ with statement := env.statement + k + 1 } =
        { Env.after env _ with statement := env.statement + 1 + k }
      rw [Nat.add_right_comm]
      exact congrArg (fun env' : Env => { env' with statement := env.statement + 1 + k }) after
    rw [extractSites_cons, extractSites_cons env site rest, known, ih, List.map_append]
    exact congrArg (fun first => (first ++ _, _)) events

theorem pass_later (env : Env) (batch : Batch) : (env.later k).pass batch = (env.pass batch).later k :=
  congrArg Prod.snd (extractSites_later k { env with commons := {} } batch.sites)

theorem extractBatches_later (env : Env) (batches : List Batch) :
    (env.later k).extractBatches batches = (env.extractBatches batches).map (Event.later k) := by
  induction batches generalizing env with
  | nil => rfl
  | cons batch rest ih =>
    have sites := extractSites_later k { env with commons := {} } batch.sites
    rw [extractBatches_cons, extractBatches_cons, pass_later, ih, List.map_append]
    exact congrArg (· ++ _) (congrArg Prod.fst sites)

theorem foldl_pass_later (env : Env) (batches : List Batch) :
    batches.foldl pass (env.later k) = (batches.foldl pass env).later k := by
  induction batches generalizing env with
  | nil => rfl
  | cons batch rest ih => rw [List.foldl_cons, List.foldl_cons, pass_later, ih]

/-! ### What batches leave behind -/

theorem after_eq (events : List Event) : ∃ tables commons, env.after events = { env with tables, commons } := by
  induction events generalizing env with
  | nil => exact ⟨env.tables, env.commons, rfl⟩
  | cons event rest ih =>
    obtain ⟨tables, commons, known⟩ := ih (after.step env event)
    exact ⟨tables, commons, known.trans (by cases event <;> rfl)⟩

/-- Statements leave tables, common tables and their number behind. -/
theorem extractSites_final (sites : List Site) : ∃ tables commons,
      (env.extractSites sites).2 = { env with tables, commons, statement := env.statement + sites.length } := by
  induction sites generalizing env with
  | nil => exact ⟨env.tables, env.commons, rfl⟩
  | cons site rest ih =>
    obtain ⟨tables, commons, known⟩ := env.after_eq (stmtEvents { env with owner := site.owner } site.stmt).events
    have one : (extractSites env [site]).2 = { env with tables, commons, statement := env.statement + 1 } :=
      congrArg (fun env' : Env => { env' with statement := env.statement + 1 }) known
    rw [extractSites_cons, one, List.length_cons, Nat.add_comm rest.length, ← Nat.add_assoc]
    exact ih { env with tables, commons, statement := env.statement + 1 }

/-- What batches leave behind differs from what they found in the known tables and in the number of the next statement.
-/
theorem foldl_pass_final (batches : List Batch) : ∃ tables commons, batches.foldl pass env =
      { env with tables, commons, statement := env.statement + (batches.flatMap Batch.sites).length } := by
  induction batches generalizing env with
  | nil => exact ⟨env.tables, env.commons, rfl⟩
  | cons batch rest ih =>
    obtain ⟨tables, commons, one⟩ := extractSites_final { env with commons := {} } batch.sites
    have passed : env.pass batch =
        { env with tables, commons, statement := env.statement + batch.sites.length } := one
    rw [List.foldl_cons, passed, List.flatMap_cons, List.length_append, ← Nat.add_assoc]
    exact ih { env with tables, commons, statement := env.statement + batch.sites.length }

/-- Batches that leave the tables as they were leave common tables and their number behind. -/
theorem foldl_pass_eq_later {env : Env} {batches : List Batch} (kept : (batches.foldl pass env).tables = env.tables) :
    ∃ commons, batches.foldl pass env =
      { env.later (batches.flatMap Batch.sites).length with commons } := by
  obtain ⟨tables, commons, final⟩ := env.foldl_pass_final batches
  rw [final] at kept
  refine ⟨commons, final.trans ?_⟩
  change tables = env.tables at kept
  rw [kept]
  rfl

/-- A batch does not see the common tables of the batches before it. -/
theorem extractBatches_commons (commons : Scope) (batches : List Batch) :
    extractBatches { env with commons } batches = env.extractBatches batches := by
  cases batches <;> rfl

/-- Nor does any statement behind some batches and the first statements of the next. -/
theorem reached_commons (commons : Scope) (done : List Batch) (first : List Site) :
    reached { env with commons } done first = env.reached done first := by
  cases done <;> rfl

theorem reached_append (first done : List Batch) (sites : List Site) :
    env.reached (first ++ done) sites = (first.foldl pass env).reached done sites := by
  rw [reached, List.foldl_append]
  rfl

theorem reached_later (env : Env) (done : List Batch) (sites : List Site) :
    (env.later k).reached done sites = (env.reached done sites).later k := by
  rw [reached, foldl_pass_later]
  exact congrArg Prod.snd (extractSites_later k { done.foldl pass env with commons := {} } sites)

/-- The events of batches after others that leave the tables as they were. -/
theorem extractBatches_append_kept (second : List Batch) (kept : (first.foldl pass env).tables = env.tables) :
    env.extractBatches (first ++ second) = env.extractBatches first ++
      (env.extractBatches second).map (Event.later (first.flatMap Batch.sites).length) := by
  obtain ⟨commons, final⟩ := foldl_pass_eq_later kept
  have alone := extractBatches_commons (env.later (first.flatMap Batch.sites).length) commons second
  rw [extractBatches_later] at alone
  rw [extractBatches_append, final]
  exact congrArg _ alone

/-- The same for one kind of result. -/
theorem filterMap_append_kept {α : Type} (f : Event → Option α) (g : α → α) (env : Env)
    (second : List Batch) (kept : (first.foldl pass env).tables = env.tables)
    (same : ∀ event : Event, f (event.later (first.flatMap Batch.sites).length) = (f event).map g) :
    (env.extractBatches (first ++ second)).filterMap f =
      (env.extractBatches first).filterMap f ++ ((env.extractBatches second).filterMap f).map g := by
  rw [env.extractBatches_append_kept second kept, List.filterMap_append, List.filterMap_map, List.map_filterMap]
  exact congrArg (_ ++ List.filterMap · _) (funext same)

/-- What is known in batches after others that leave the tables as they were. -/
theorem reached_append_kept (done : List Batch) (sites : List Site)
    (kept : (first.foldl pass env).tables = env.tables) : env.reached (first ++ done) sites =
      (env.reached done sites).later (first.flatMap Batch.sites).length := by
  obtain ⟨commons, final⟩ := foldl_pass_eq_later kept
  have alone := reached_commons (env.later (first.flatMap Batch.sites).length) commons done sites
  rw [reached_append, final]
  exact alone.trans (reached_later _ _ _ _)

end Env

/-- Batches after others that leave no table behind have the edges, gaps and objects that they have alone, with the
number of statements before them added to their statement numbers, and no statement in them sees a common table
that it does not see without the batches before. -/
theorem extract_batches_append (options : ExtractOptions) (whole one two : Script)
    (errors errors₁ errors₂ : List ParseError) (joined : whole.batches = one.batches ++ two.batches)
    (forgotten : (one.batches.foldl Env.pass options.env).tables = []) :
    let before := one.sites.length
    let l := extract (some whole) errors options
    let l₁ := extract (some one) errors₁ options
    let l₂ := extract (some two) errors₂ options
    l.edges = l₁.edges ++ l₂.edges.map (Edge.later before) ∧
      l.gaps = l₁.gaps ++ l₂.gaps.map (Gap.later before) ∧
      l.objects = l₁.objects ++ l₂.objects ∧
      ∀ (done : List Batch) (sites : List Site),
        (options.env.reached (one.batches ++ done) sites).commons = (options.env.reached done sites).commons := by
  intro before l l₁ l₂
  have part {α : Type} (f : Event → Option α) (g : α → α) :=
    options.env.filterMap_append_kept f g two.batches forgotten
  rw [← joined] at part
  refine ⟨part Event.edge? (Edge.later before) ?_, part Event.gap? (Gap.later before) ?_, ?_, fun done sites => ?_⟩
  · intro event
    cases event <;> rfl
  · intro event
    cases event <;> rfl
  · have objects := part Event.object? id (by intro event; cases event <;> rfl)
    rwa [List.map_id] at objects
  · rw [options.env.reached_append_kept done sites forgotten]
    rfl

/-- The common table `c` of the first batch hides the table `c` there and not in the second batch. -/
theorem extract_batches_append_common :
    ∃ whole, (parse "WITH c AS (SELECT a FROM s) SELECT a FROM c\nGO\nSELECT a FROM c").1 = some whole ∧
      let one : Script := { whole with batches := whole.batches.take 1 }
      let two : Script := { whole with batches := whole.batches.drop 1 }
      (one.batches.foldl Env.pass ({} : ExtractOptions).env).tables = [] ∧ one.sites.length = 1 ∧
      (extract (some two) [] {}).edges.map (fun e => (e.statement, e.sources.map (·.qualifiedName))) =
        [(0, ["dbo.c.a"])] ∧
      (extract (some whole) [] {}).edges =
        (extract (some one) [] {}).edges ++ (extract (some two) [] {}).edges.map (Edge.later 1) := by
  obtain ⟨whole, parsed, forgotten, before, alone⟩ :
      ∃ whole ∈ (parse "WITH c AS (SELECT a FROM s) SELECT a FROM c\nGO\nSELECT a FROM c").1,
        ((whole.batches.take 1).foldl Env.pass ({} : ExtractOptions).env).tables = [] ∧
          ((whole.batches.take 1).flatMap Batch.sites).length = 1 ∧
          (extract (some { whole with batches := whole.batches.drop 1 }) [] {}).edges.map
            (fun e => (e.statement, e.sources.map (·.qualifiedName))) = [(0, ["dbo.c.a"])] := by decide +kernel
  refine ⟨whole, parsed, ?_⟩
  intro one two
  have joined : whole.batches = one.batches ++ two.batches := (List.take_append_drop 1 whole.batches).symm
  obtain ⟨edges, -⟩ := extract_batches_append {} whole one two [] [] [] joined forgotten
  rw [show one.sites.length = 1 from before] at edges
  exact ⟨forgotten, before, alone, edges⟩

end ColumnFlow
