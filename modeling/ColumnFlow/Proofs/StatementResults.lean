import ColumnFlow.Proofs.BatchComposition

/-!
# The results of single statements

A script is extracted statement by statement, and every edge and gap carries the number of the statement that it comes
from. So the edges and gaps of a result that carry one number are what the statement with that number has recorded, in
the same order, and nothing else.
-/

namespace ColumnFlow

/-! ### Edges and gaps of a traced computation -/

namespace Traced

variable {α β : Type}

/-- The edges that a traced computation records, in order. -/
def edges (x : Traced α) : List Edge := x.events.filterMap Event.edge?

/-- The gaps that a traced computation records, in order. -/
def gaps (x : Traced α) : List Gap := x.events.filterMap Event.gap?

theorem edges_bind (x : Traced α) (f : α → Traced β) : (x >>= f).edges = x.edges ++ (f x.value).edges :=
  List.filterMap_append

theorem gaps_bind (x : Traced α) (f : α → Traced β) : (x >>= f).gaps = x.gaps ++ (f x.value).gaps :=
  List.filterMap_append

variable {x : Traced α}

theorem mem_edges {e : Edge} : e ∈ x.edges ↔ .edge e ∈ x.events := by
  refine List.mem_filterMap.trans ⟨?_, fun member => ⟨_, member, rfl⟩⟩
  rintro ⟨event, member, made⟩
  cases event <;> cases made
  exact member

theorem mem_bind_left {f : α → Traced β} {event : Event} (member : event ∈ x.events) :
    event ∈ (x >>= f).events := List.mem_append_left _ member

theorem mem_bind_right {f : α → Traced β} {event : Event} (member : event ∈ (f x.value).events) :
    event ∈ (x >>= f).events := List.mem_append_right _ member

/-- Queries leave no gap. -/
theorem Emits.gaps_nil (emits : x.Emits Event.OfQuery) : x.gaps = [] := by
  refine List.filterMap_eq_nil_iff.2 fun event member => ?_
  have own := emits.events event member
  cases event <;> first | rfl | exact own.elim

/-- The edges of queries are those of result sets. -/
theorem Emits.edges_select (emits : x.Emits Event.OfQuery) {e : Edge} (member : e ∈ x.edges) :
    e.kind = .select := emits.events (.edge e) (mem_edges.1 member)

/-- So they are not those of a statement that writes. -/
theorem Emits.filter_edges (emits : x.Emits Event.OfQuery) {kind : StatementKind}
    (writes : kind ≠ .select) : x.edges.filter (·.kind == kind) = [] := by
  refine List.filter_eq_nil_iff.2 fun e member => ?_
  simp [emits.edges_select member, writes.symm]

end Traced

variable (env : Env)

theorem Env.mem_emitAll {edges : List Edge} {e : Edge} (member : e ∈ edges) :
    .edge { e with statement := env.statement } ∈ (env.emitAll edges).events :=
  List.mem_map_of_mem (f := fun edge : Edge => Event.edge { edge with statement := env.statement }) member

theorem Env.edges_emitAll (edges : List Edge) :
    (env.emitAll edges).edges = edges.map fun e => { e with statement := env.statement } := by
  induction edges with
  | nil => rfl
  | cons e rest ih => exact congrArg (_ :: ·) ih

theorem Env.gaps_emitAll (edges : List Edge) : (env.emitAll edges).gaps = [] := by
  induction edges with
  | nil => rfl
  | cons e rest ih => exact ih

/-! ### Numbers -/

/-- Every edge and gap of a statement carries its number. -/
theorem stmtEvents_numbered (stmt : Stmt) : (stmtEvents env stmt).Emits (Event.Numbered env.statement) :=
  ((env.supplies_all _).stmtEvents env.admits_numbered env.commons.proper_all stmt (List.Subset.refl _)
    fun _ _ _ same => (Option.some.inj same).symm).ensures

/-- The event carries a number from `first` up to `last`, that one left out, or none. -/
def Event.Within (first last : Nat) (event : Event) : Prop := ∀ m, event.number? = some m → first ≤ m ∧ m < last

namespace Event

theorem Numbered.within {n first last : Nat} {event : Event} (numbered : event.Numbered n) (above : first ≤ n)
    (below : n < last) : event.Within first last :=
  fun m carried => numbered m carried ▸ ⟨above, below⟩

theorem Within.widen {first last first' last' : Nat} {event : Event} (within : event.Within first last)
    (above : first' ≤ first) (below : last ≤ last') : event.Within first' last' :=
  fun m carried =>
    ⟨Nat.le_trans above (within m carried).1, Nat.lt_of_lt_of_le (within m carried).2 below⟩

end Event

namespace Env

/-- Statements in order carry the numbers up to the one that is next behind them. -/
theorem extractSites_within (env : Env) (sites : List Site) :
    env.statement ≤ (env.extractSites sites).2.statement ∧
      ∀ event ∈ (env.extractSites sites).1, event.Within env.statement (env.extractSites sites).2.statement := by
  induction sites generalizing env with
  | nil => exact ⟨Nat.le_refl _, fun event member => absurd member List.not_mem_nil⟩
  | cons site rest ih =>
    obtain ⟨above, later⟩ := ih (extractSites env [site]).2
    have next : (extractSites env [site]).2.statement = env.statement + 1 := rfl
    rw [extractSites_cons]
    refine ⟨by dsimp only; omega, fun event member => ?_⟩
    obtain own | behind := List.mem_append.1 member
    · have numbered := (stmtEvents_numbered { env with owner := site.owner } site.stmt).events event own
      exact numbered.within (Nat.le_refl _) (by dsimp only; omega)
    · exact (later event behind).widen (by omega) (Nat.le_refl _)

theorem extractBatches_within (env : Env) (batches : List Batch) :
    env.statement ≤ (batches.foldl pass env).statement ∧
      ∀ event ∈ env.extractBatches batches, event.Within env.statement (batches.foldl pass env).statement := by
  induction batches generalizing env with
  | nil => exact ⟨Nat.le_refl _, fun event member => absurd member List.not_mem_nil⟩
  | cons batch rest ih =>
    obtain ⟨above, later⟩ := ih (env.pass batch)
    obtain ⟨passed, here⟩ := extractSites_within { env with commons := {} } batch.sites
    rw [extractBatches_cons, List.foldl_cons]
    refine ⟨Nat.le_trans passed above, fun event member => ?_⟩
    obtain own | behind := List.mem_append.1 member
    · exact (here event own).widen (Nat.le_refl _) above
    · exact (later event behind).widen passed (Nat.le_refl _)

theorem reached_statement (env : Env) (done : List Batch) (first : List Site) :
    (env.reached done first).statement = env.statement + (done.flatMap Batch.sites).length + first.length := by
  obtain ⟨tables, commons, passed⟩ := env.foldl_pass_final done
  obtain ⟨tables', commons', final⟩ := extractSites_final { done.foldl pass env with commons := {} } first
  rw [reached, final, passed]

end Env

/-! ### Statements at their places -/

/-- A statement of a script, and what it is extracted under when the script is. -/
def Script.Runs (script : Script) (options : ExtractOptions) (stmt : Stmt) (env : Env) : Prop :=
  ∃ done batch later first rest owner, script.batches = done ++ batch :: later ∧
    batch.sites = first ++ ⟨stmt, owner⟩ :: rest ∧ env = { options.env.reached done first with owner }

/-- An item of a list made of lists stands in one of them. -/
theorem exists_split_of_flatMap {α β : Type} {f : α → List β} {xs : List α} {k : Nat} {y : β}
    (found : (xs.flatMap f)[k]? = some y) :
    ∃ done x later first rest, xs = done ++ x :: later ∧ f x = first ++ y :: rest ∧
      k = (done.flatMap f).length + first.length := by
  induction xs generalizing k with
  | nil => cases found
  | cons x more ih =>
    rw [List.flatMap_cons] at found
    by_cases here : k < (f x).length
    · rw [List.getElem?_append_left here] at found
      obtain ⟨bound, same⟩ := List.getElem?_eq_some_iff.1 found
      refine ⟨[], x, more, (f x).take k, (f x).drop (k + 1), rfl, ?_, ?_⟩
      · rw [← same, List.getElem_cons_drop, List.take_append_drop]
      · simp [Nat.min_eq_left (Nat.le_of_lt here)]
    · rw [List.getElem?_append_right (Nat.le_of_not_lt here)] at found
      obtain ⟨done, x', later, first, rest, split, inside, place⟩ := ih found
      refine ⟨x :: done, x', later, first, rest, by rw [split]; rfl, inside, ?_⟩
      rw [List.flatMap_cons, List.length_append]
      omega

/-- Every statement of a script is extracted under something, which carries its number. -/
theorem Script.exists_runs {script : Script} (options : ExtractOptions) {k : Nat} {site : Site}
    (found : script.sites[k]? = some site) :
    ∃ env, script.Runs options site.stmt env ∧ env.statement = k := by
  obtain ⟨done, batch, later, first, rest, inScript, inBatch, place⟩ := exists_split_of_flatMap found
  refine ⟨{ options.env.reached done first with owner := site.owner },
    ⟨done, batch, later, first, rest, site.owner, inScript, inBatch, rfl⟩, ?_⟩
  have number := options.env.reached_statement done first
  rw [show options.env.statement = 0 from rfl, Nat.zero_add] at number
  exact number.trans place.symm

namespace Script.Runs

variable {script : Script} {options : ExtractOptions} {stmt : Stmt} {env : Env} (runs : script.Runs options stmt env)

include runs

theorem defaultSchema : env.defaultSchema = options.env.defaultSchema := by
  obtain ⟨done, batch, later, first, rest, owner, -, -, rfl⟩ := runs
  obtain ⟨tables, commons, passed⟩ := options.env.foldl_pass_final done
  obtain ⟨tables', commons', reached⟩ := Env.extractSites_final { done.foldl Env.pass options.env with commons := {} } first
  change (options.env.reached done first).defaultSchema = _
  rw [Env.reached, reached, passed]

/-- The number that a statement is extracted under is its place in the script. -/
theorem site : script.sites[env.statement]? = some ⟨stmt, env.owner⟩ := by
  obtain ⟨done, batch, later, first, rest, owner, inScript, inBatch, rfl⟩ := runs
  have number := options.env.reached_statement done first
  rw [show options.env.statement = 0 from rfl, Nat.zero_add] at number
  have place : script.sites = done.flatMap Batch.sites ++ first ++ ⟨stmt, owner⟩ :: (rest ++ later.flatMap Batch.sites) := by
    simp [Script.sites, inScript, inBatch]
  dsimp only
  rw [place, number, ← List.length_append, List.getElem?_append_right (Nat.le_refl _), Nat.sub_self]
  rfl

/-- The events of a run are those of the statements before, of the statement and of those behind. -/
theorem events :
    ∃ before behind last, options.env.extractBatches script.batches = before ++ (stmtEvents env stmt).events ++ behind ∧
      (∀ event ∈ before, event.Within 0 env.statement) ∧
      ∀ event ∈ behind, event.Within (env.statement + 1) last := by
  obtain ⟨done, batch, later, first, rest, owner, inScript, inBatch, rfl⟩ := runs
  have earlier := options.env.extractBatches_within done
  have before := Env.extractSites_within { done.foldl Env.pass options.env with commons := {} } first
  have behind := Env.extractSites_within (Env.extractSites (options.env.reached done first) [⟨stmt, owner⟩]).2 rest
  have after := Env.extractBatches_within ((done.foldl Env.pass options.env).pass batch) later
  have passed : (done.foldl Env.pass options.env).pass batch =
      (Env.extractSites (Env.extractSites (options.env.reached done first) [⟨stmt, owner⟩]).2 rest).2 := by
    rw [Env.pass, inBatch, Env.extractSites_append]
    exact congrArg (·.2) (Env.extractSites_cons (options.env.reached done first) ⟨stmt, owner⟩ rest)
  rw [← passed] at behind
  refine ⟨options.env.extractBatches done ++ (Env.extractSites { done.foldl Env.pass options.env with commons := {} } first).1,
    (Env.extractSites (Env.extractSites (options.env.reached done first) [⟨stmt, owner⟩]).2 rest).1 ++
      Env.extractBatches ((done.foldl Env.pass options.env).pass batch) later,
    (later.foldl Env.pass ((done.foldl Env.pass options.env).pass batch)).statement, ?_, ?_, ?_⟩
  · rw [inScript, Env.extractBatches_append, Env.extractBatches_cons, inBatch, Env.extractSites_append,
      Env.extractSites_cons]
    simp only [Env.reached, List.append_assoc]
  · intro event member
    obtain old | here := List.mem_append.1 member
    · exact (earlier.2 event old).widen (Nat.zero_le _) before.1
    · exact (before.2 event here).widen (Nat.zero_le _) (Nat.le_refl _)
  · intro event member
    obtain here | new := List.mem_append.1 member
    · exact (behind.2 event here).widen (Nat.le_refl _) after.1
    · exact (after.2 event new).widen behind.1 (Nat.le_refl _)

theorem mem_edges (errors : List ParseError) {e : Edge} (emitted : .edge e ∈ (stmtEvents env stmt).events) :
    e ∈ (extract (some script) errors options).edges := by
  obtain ⟨before, behind, -, events, -⟩ := runs.events
  have member : .edge e ∈ options.env.extractBatches script.batches := by
    rw [events]
    exact List.mem_append_left behind (List.mem_append_right before emitted)
  exact List.mem_filterMap.2 ⟨.edge e, member, rfl⟩

/-- Of one kind of result, those with the number of a statement come from the statement. -/
theorem filterMap_eq {α : Type} {f : Event → Option α} {number : α → Nat}
    (carries : ∀ event a, f event = some a → event.number? = some (number a)) :
    ((options.env.extractBatches script.batches).filterMap f).filter (number · == env.statement) =
      (stmtEvents env stmt).events.filterMap f := by
  obtain ⟨before, behind, last, events, below, above⟩ := runs.events
  have absent {part : List Event} (apart : ∀ event ∈ part, ∀ m, event.number? = some m → m ≠ env.statement) :
      (part.filterMap f).filter (number · == env.statement) = [] := by
    refine List.filter_eq_nil_iff.2 fun a member => ?_
    obtain ⟨event, present, made⟩ := List.mem_filterMap.1 member
    simpa using apart event present _ (carries event a made)
  have own : ((stmtEvents env stmt).events.filterMap f).filter (number · == env.statement) =
      (stmtEvents env stmt).events.filterMap f := by
    refine List.filter_eq_self.2 fun a member => ?_
    obtain ⟨event, present, made⟩ := List.mem_filterMap.1 member
    simpa using (stmtEvents_numbered env stmt).events event present _ (carries event a made)
  rw [events, List.filterMap_append, List.filterMap_append, List.filter_append, List.filter_append, own,
    absent fun event member m carried => Nat.ne_of_lt (below event member m carried).2,
    absent fun event member m carried => Nat.ne_of_gt (above event member m carried).1, List.append_nil, List.nil_append]

/-- The edges of a result with the number of a statement are the edges of the statement. -/
theorem edges_eq (errors : List ParseError) :
    (extract (some script) errors options).edges.filter (·.statement == env.statement) = (stmtEvents env stmt).edges := by
  refine runs.filterMap_eq fun event e made => ?_
  cases event <;> cases made
  rfl

/-- The gaps of a result with the number of a statement are the gaps of the statement. -/
theorem gaps_eq (errors : List ParseError) :
    (extract (some script) errors options).gaps.filter (·.statement == env.statement) = (stmtEvents env stmt).gaps := by
  refine runs.filterMap_eq fun event g made => ?_
  cases event <;> cases made
  rfl

end Script.Runs

end ColumnFlow
