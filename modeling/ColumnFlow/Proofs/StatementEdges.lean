import ColumnFlow.Lineage.Extract
import ColumnFlow.Proofs.WriteSources

/-!
# The edges of a script

Statements are extracted one after the other. What a statement leaves to the next ones are columns of tables
and common tables, never a table source: between statements no table is bound. So each statement is extracted
under an environment for which `Env.Supplies.stmtEvents` holds with the names of that statement alone, and the results
follow for every edge of every text.
-/

namespace ColumnFlow

/-! ### Between statements -/

/-- No table is bound in the scope. -/
def Scope.Bare (s : Scope) : Prop := ∀ level ∈ s.levels, level.tables = []

namespace Scope.Bare

theorem empty : ({} : Scope).Bare := List.forall_mem_singleton.2 rfl

theorem define {s : Scope} (bare : s.Bare) (d : CommonDef) : (s.define d).Bare := by
  intro level member
  rcases List.mem_cons.1 member with rfl | outer
  · exact bare s.level List.mem_cons_self
  · exact bare level (List.mem_cons_of_mem _ outer)

theorem proper {s : Scope} (bare : s.Bare) {C : SourceColumn → Prop} : s.Proper C := by
  intro level member b found
  rw [bare level member] at found
  cases found

end Scope.Bare

/-- What holds of the environment between two statements. -/
structure Env.Between (env : Env) (schema : String) (number : Nat) : Prop where
  schema : env.defaultSchema = schema
  bare : env.commons.Bare
  number : env.statement = number

/-- What a statement records makes tables known and changes nothing else. -/
theorem Env.Between.after {env : Env} {schema : String} {number : Nat} (between : env.Between schema number)
    (events : List Event) : (env.after events).Between schema number := by
  unfold Env.after
  induction events generalizing env with
  | nil => exact between
  | cons event rest ih =>
    refine ih ?_
    cases event with
    | common table => exact ⟨between.schema, between.bare.define table, between.number⟩
    | edge | gap | object | table => exact ⟨between.schema, between.bare, between.number⟩

/-! ### Sources of one statement -/

/-- A column of a plain table belongs to a table that stands in the statement or to the table of the enclosing
trigger. -/
def Site.Supplies (site : Site) (schema : String) (c : SourceColumn) : Prop :=
  c.kind = some .plain →
    ∃ o, (o ∈ site.stmt.tableNames ∨ site.owner.bind (·.trigger) = some o) ∧
      c.table = o.name ∧ c.database = o.database ∧
      c.schema = if o.schema = "" ∧ ¬o.isTemp ∧ ¬o.isVariable then schema else o.schema

theorem Env.target_schema (env : Env) (o : ObjectName) :
    (env.target o).schema =
      if o.schema = "" ∧ ¬o.isTemp ∧ ¬o.isVariable then env.defaultSchema else o.schema := by
  simp [Env.target, and_assoc]

theorem Site.supplies (site : Site) (env : Env) :
    { env with owner := site.owner }.Supplies site.stmt.tableNames (site.Supplies env.defaultSchema) where
  unbound := fun _ other plain => absurd plain other
  named := fun o member _ _ _ => ⟨o, .inl member, rfl, rfl, env.target_schema o⟩
  trigger := fun o found _ _ _ => ⟨o, .inr found, rfl, rfl, env.target_schema o⟩
  requalified := fun _ supplied _ plain => supplied plain

theorem Site.events_proper (site : Site) {env : Env} {schema : String} {number : Nat}
    (between : env.Between schema number) :
    ∀ event ∈ (stmtEvents { env with owner := site.owner } site.stmt).events,
      event.Proper number (site.Supplies schema) := by
  have run := (site.supplies env).stmtEvents (Env.admits_proper _ _) between.bare.proper site.stmt
    (List.Subset.refl _) fun _ _ => trivial
  rw [← between.schema, ← between.number]
  exact run.ensures.events

/-! ### Runs -/

/-- Events of consecutive statements from one number up to another: each edge is proper for its own statement,
and statement numbers never decrease. -/
structure Event.Run (schema : String) (site? : Nat → Option Site) (first last : Nat) (events : List Event) :
    Prop where
  own : ∀ e ∈ events.filterMap Event.edge?, first ≤ e.statement ∧ e.statement < last ∧
    ∃ site, site? e.statement = some site ∧ (Event.edge e).Proper e.statement (site.Supplies schema)
  ordered : ((events.filterMap Event.edge?).map (·.statement)).Pairwise (· ≤ ·)

namespace Event.Run

variable {schema : String} {site? : Nat → Option Site} {first middle last : Nat}

theorem empty (number : Nat) : Event.Run schema site? number number [] :=
  ⟨fun _ member => absurd member List.not_mem_nil, .nil⟩

/-- The events of one statement carry its number. -/
theorem single {events : List Event} {site : Site} (found : site? first = some site)
    (proper : ∀ event ∈ events, event.Proper first (site.Supplies schema)) :
    Event.Run schema site? first (first + 1) events := by
  have own (e : Edge) (member : e ∈ events.filterMap Event.edge?) :
      e.statement = first ∧ (Event.edge e).Proper first (site.Supplies schema) := by
    obtain ⟨event, present, isEdge⟩ := List.mem_filterMap.1 member
    cases event <;> cases isEdge
    have holds := proper _ present
    exact ⟨holds.2.1, holds⟩
  refine ⟨fun e member => ?_, ?_⟩
  · obtain ⟨same, holds⟩ := own e member
    rw [same]
    exact ⟨Nat.le_refl _, Nat.lt_succ_self _, site, found, holds⟩
  · refine List.pairwise_map.2 (List.Pairwise.imp_of_mem ?_ (List.pairwise_of_forall fun _ _ => trivial))
    intro a b ha hb _
    exact Nat.le_of_eq ((own a ha).1.trans (own b hb).1.symm)

/-- Runs of neighbouring statements are put together. -/
theorem append {a b : List Event} (ha : Event.Run schema site? first middle a)
    (hb : Event.Run schema site? middle last b) (le : first ≤ middle) (le' : middle ≤ last) :
    Event.Run schema site? first last (a ++ b) := by
  refine ⟨fun e member => ?_, ?_⟩
  · rw [List.filterMap_append] at member
    rcases List.mem_append.1 member with found | found
    · obtain ⟨from', below, site⟩ := ha.own e found
      exact ⟨from', Nat.lt_of_lt_of_le below le', site⟩
    · obtain ⟨from', below, site⟩ := hb.own e found
      exact ⟨Nat.le_trans le from', below, site⟩
  · rw [List.filterMap_append, List.map_append, List.pairwise_append]
    refine ⟨ha.ordered, hb.ordered, ?_⟩
    intro x hx y hy
    obtain ⟨d, inFirst, rfl⟩ := List.mem_map.1 hx
    obtain ⟨e, inSecond, rfl⟩ := List.mem_map.1 hy
    exact Nat.le_of_lt (Nat.lt_of_lt_of_le (ha.own d inFirst).2.1 (hb.own e inSecond).1)

end Event.Run

section

variable {schema : String} (site? : Nat → Option Site)

/-- Statement by statement: numbers go up by one, and each event is that of the statement with its number. -/
theorem Env.extractSites_run (sites : List Site) (env : Env) {number : Nat} (between : env.Between schema number)
    (numbered : ∀ i site, sites[i]? = some site → site? (number + i) = some site) :
    Event.Run schema site? number (number + sites.length) (env.extractSites sites).1 ∧
      (env.extractSites sites).2.Between schema (number + sites.length) := by
  induction sites generalizing env number with
  | nil => exact ⟨.empty number, between⟩
  | cons site rest ih =>
    have first := Event.Run.single (numbered 0 site rfl) (site.events_proper between)
    have left := between.after (stmtEvents { env with owner := site.owner } site.stmt).events
    have shifted (i : Nat) (other : Site) (found : rest[i]? = some other) : site? (number + 1 + i) = some other := by
      rw [Nat.add_assoc, Nat.add_comm 1 i]
      exact numbered (i + 1) other (by simpa using found)
    obtain ⟨later, final⟩ := ih { env.after _ with statement := env.statement + 1 }
      ⟨left.schema, left.bare, by rw [between.number]⟩ shifted
    have length : number + 1 + rest.length = number + (site :: rest).length := by
      rw [List.length_cons]
      omega
    rw [length] at later final
    exact ⟨first.append later (Nat.le_succ _) (by omega), final⟩

/-- Batch by batch, with the numbers going on from one to the next. -/
theorem Env.extractBatches_run (batches : List Batch) (env : Env) {number : Nat}
    (between : env.Between schema number)
    (numbered : ∀ i site, (batches.flatMap Batch.sites)[i]? = some site → site? (number + i) = some site) :
    Event.Run schema site? number (number + (batches.flatMap Batch.sites).length)
      (env.extractBatches batches) := by
  induction batches generalizing env number with
  | nil => exact .empty number
  | cons batch rest ih =>
    rw [List.flatMap_cons] at numbered ⊢
    have inBatch (i : Nat) (site : Site) (found : batch.sites[i]? = some site) : site? (number + i) = some site := by
      refine numbered i site ?_
      rw [List.getElem?_append_left (List.getElem?_eq_some_iff.1 found).1]
      exact found
    obtain ⟨first, final⟩ := Env.extractSites_run site? batch.sites { env with commons := {} }
      ⟨between.schema, .empty, between.number⟩ inBatch
    have later := ih _ final fun i site found => by
      rw [Nat.add_assoc]
      refine numbered _ site ?_
      rw [List.getElem?_append_right (by omega)]
      simpa using found
    rw [List.length_append, ← Nat.add_assoc]
    exact first.append later (Nat.le_add_right _ _) (Nat.le_add_right _ _)

end

/-! ### Every text -/

theorem ExtractOptions.env_between (options : ExtractOptions) :
    options.env.Between (if options.defaultSchema = "" then "dbo" else options.defaultSchema) 0 where
  schema := by simp [ExtractOptions.env]
  bare := .empty
  number := rfl

/-- The edges of a text are those of a run over the statements of its script. -/
theorem extractText_run (source : String) (options : ExtractOptions) (script : Script)
    (parsed : (parse source).1 = some script) :
    ∃ events, (extractText source options).edges = events.filterMap Event.edge? ∧
      Event.Run (if options.defaultSchema = "" then "dbo" else options.defaultSchema)
        (fun i => script.sites[i]?) 0 script.sites.length events := by
  refine ⟨options.env.extractBatches script.batches, ?_, ?_⟩
  · simp [extractText, extract, parsed]
  · have run := Env.extractBatches_run (fun i => script.sites[i]?) script.batches options.env
      options.env_between fun i site found => by
        rw [Nat.zero_add]
        exact found
    rwa [Nat.zero_add] at run

theorem extractText_edges_of_none {source : String} (options : ExtractOptions)
    (parsed : (parse source).1 = none) : (extractText source options).edges = [] := by
  simp [extractText, extract, parsed]

/-- Every edge of every text is well formed, and statement numbers never decrease along the edges. -/
theorem extractText_edges_wellFormed (source : String) (options : ExtractOptions) :
    (∀ e ∈ (extractText source options).edges, e.WellFormed) ∧
      ((extractText source options).edges.map (·.statement)).Pairwise (· ≤ ·) := by
  cases parsed : (parse source).1 with
  | none => simp [extractText_edges_of_none options parsed]
  | some script =>
      obtain ⟨events, edges, run⟩ := extractText_run source options script parsed
      rw [edges]
      refine ⟨fun e member => ?_, run.ordered⟩
      obtain ⟨-, -, site, -, proper⟩ := run.own e member
      exact proper.1

theorem extractText_edges_wellFormed_compound :
    let edges := (extractText "UPDATE t SET a += b" {}).edges
    edges.map (fun e => (e.operator, e.sources.map (·.column))) = [(some .plusEq, ["a", "b"])] ∧
      ∀ e ∈ edges, e.WellFormed :=
  ⟨by decide +kernel, (extractText_edges_wellFormed _ _).1⟩

/-- Every plain source of an edge is a column of a table that stands in the statement of the edge, or of the
table of the trigger around that statement. -/
theorem extractText_plain_sources (source : String) (options : ExtractOptions) (e : Edge)
    (member : e ∈ (extractText source options).edges) :
    ∃ script site, (parse source).1 = some script ∧ script.sites[e.statement]? = some site ∧
      ∀ c ∈ e.sources, c.kind = some .plain →
        ∃ o, (o ∈ site.stmt.tableNames ∨ site.owner.bind (·.trigger) = some o) ∧
          c.table = o.name ∧ c.database = o.database ∧
          c.schema =
            if o.schema = "" ∧ ¬o.isTemp ∧ ¬o.isVariable then
              if options.defaultSchema = "" then "dbo" else options.defaultSchema
            else o.schema := by
  cases parsed : (parse source).1 with
  | none => simp [extractText_edges_of_none options parsed] at member
  | some script =>
      obtain ⟨events, edges, run⟩ := extractText_run source options script parsed
      rw [edges] at member
      obtain ⟨-, -, site, found, proper⟩ := run.own e member
      exact ⟨script, site, rfl, found, proper.2.2⟩

/-- In the body of a trigger `inserted` reads the table of the trigger, which the statement itself does not
name. -/
theorem extractText_plain_sources_trigger :
    let source := "CREATE TRIGGER r ON s.t AFTER INSERT AS INSERT x (a) SELECT b FROM inserted"
    let read : SourceColumn := ⟨"b", "inserted", "", "s", "t", some .plain, false⟩
    let e : Edge := ⟨.insert, ⟨"dbo", "x"⟩, "a", .computed [read] .bare, none, none, 1, 1⟩
    e ∈ (extractText source {}).edges ∧
      ∃ script site, (parse source).1 = some script ∧ script.sites[1]? = some site ∧
        ∀ c ∈ e.sources, c.kind = some .plain →
          ∃ o, (o ∈ site.stmt.tableNames ∨ site.owner.bind (·.trigger) = some o) ∧
            c.table = o.name ∧ c.database = o.database ∧
            c.schema = if o.schema = "" ∧ ¬o.isTemp ∧ ¬o.isVariable then "dbo" else o.schema := by
  intro source read e
  have member : e ∈ (extractText source {}).edges := by decide +kernel
  exact ⟨member, extractText_plain_sources source {} e member⟩

end ColumnFlow
