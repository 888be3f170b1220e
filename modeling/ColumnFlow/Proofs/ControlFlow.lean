import ColumnFlow.Proofs.StatementPlaces
import ColumnFlow.Proofs.StatementResults

/-!
# Control flow

A block, a `TRY` with its `CATCH` and an `IF` are statements of their own that record nothing, in front of the statements
that they hold. So statements that are put into one keep all that they give, and only their numbers and those behind them
grow by one. `Wraps` lists the three ways, `Rewrites` the places at which statements can stand, and `Site.Inserted` says
what comes of it for the statements of a script in their order.
-/

namespace ColumnFlow

/-! ### Numbers -/

/-- The number of a statement when one is put in at `k`. -/
def pushed (k n : Nat) : Nat := if k ≤ n then n + 1 else n

theorem pushed_of_lt {k n : Nat} (lt : n < k) : pushed k n = n := if_neg (Nat.not_le.2 lt)

theorem pushed_of_le {k n : Nat} (le : k ≤ n) : pushed k n = n + 1 := if_pos le

def Edge.pushed (k : Nat) (e : Edge) : Edge := { e with statement := ColumnFlow.pushed k e.statement }

def Gap.pushed (k : Nat) (g : Gap) : Gap := { g with statement := ColumnFlow.pushed k g.statement }

def Finding.pushed (k : Nat) (f : Finding) : Finding := { f with statement := ColumnFlow.pushed k f.statement }

namespace Event

def pushed (k : Nat) : Event → Event
  | .edge e => .edge (e.pushed k)
  | .gap g => .gap (g.pushed k)
  | event => event

variable {k first last : Nat}

theorem pushed_of_below {event : Event} (within : event.Within first last) (below : last ≤ k) :
    event.pushed k = event := by
  cases event with
  | edge e => exact congrArg (fun n => Event.edge { e with statement := n }) (pushed_of_lt (by have := within _ rfl; omega))
  | gap g => exact congrArg (fun n => Event.gap { g with statement := n }) (pushed_of_lt (by have := within _ rfl; omega))
  | _ => rfl

theorem pushed_of_above {event : Event} (within : event.Within first last) (above : k ≤ first) :
    event.pushed k = event.later 1 := by
  cases event with
  | edge e => exact congrArg (fun n => Event.edge { e with statement := n }) (pushed_of_le (by have := within _ rfl; omega))
  | gap g => exact congrArg (fun n => Event.gap { g with statement := n }) (pushed_of_le (by have := within _ rfl; omega))
  | _ => rfl

end Event

/-! ### Statements in their order -/

theorem Stmt.findings_pushed (source : String) (stmt : Stmt) (k number : Nat) :
    (stmt.findings source number).map (Finding.pushed k) = stmt.findings source (pushed k number) := by
  rw [Stmt.findings, Stmt.findings, List.map_filterMap]
  simp only [Option.map_map]
  rfl

namespace Site

/-- Two statements that record the same under the same owner, those inside them apart. -/
structure Twin (a b : Site) : Prop where
  owner : b.owner = a.owner
  events : ∀ env, stmtEvents env b.stmt = stmtEvents env a.stmt
  findings : ∀ source number, b.stmt.findings source number = a.stmt.findings source number

/-- A statement that records nothing. -/
structure Silent (a : Site) : Prop where
  events : ∀ env, stmtEvents env a.stmt = pure ()
  findings : ∀ source number, a.stmt.findings source number = []

theorem Twin.refl (a : Site) : a.Twin a := ⟨rfl, fun _ => rfl, fun _ _ => rfl⟩

/-- What is found in statements, of which the first has the number `first`. -/
def findingsFrom (source : String) (first : Nat) (sites : List Site) : List Finding :=
  (sites.zipIdx first).flatMap fun site => site.1.stmt.findings source site.2

theorem findingsFrom_cons (source : String) (first : Nat) (a : Site) (sites : List Site) :
    findingsFrom source first (a :: sites) = a.stmt.findings source first ++ findingsFrom source (first + 1) sites := rfl

theorem findingsFrom_of_le (source : String) (sites : List Site) {k first : Nat} (le : k ≤ first) :
    findingsFrom source (first + 1) sites = (findingsFrom source first sites).map (Finding.pushed k) := by
  induction sites generalizing first with
  | nil => rfl
  | cons a rest ih =>
    rw [findingsFrom_cons, findingsFrom_cons, List.map_append, Stmt.findings_pushed, pushed_of_le le,
      ih (Nat.le_succ_of_le le)]

/-- A silent statement is put in behind `k` statements. -/
inductive Inserted : Nat → List Site → List Site → Prop
  | here {a} (silent : a.Silent) (sites) : Inserted 0 sites (a :: sites)
  | behind {a b k sites sites'} (twin : a.Twin b) : Inserted k sites sites' →
      Inserted (k + 1) (a :: sites) (b :: sites')

namespace Inserted

variable {k : Nat} {sites sites' : List Site} (h : Inserted k sites sites')

include h

theorem after (before : List Site) : Inserted (before.length + k) (before ++ sites) (before ++ sites') := by
  induction before with
  | nil => simpa using h
  | cons a rest ih =>
    rw [List.length_cons, Nat.add_right_comm]
    exact .behind (.refl a) ih

theorem append (after : List Site) : Inserted k (sites ++ after) (sites' ++ after) := by
  induction h with
  | here silent sites => exact .here silent (sites ++ after)
  | behind twin _ ih => exact .behind twin ih

theorem le : k ≤ sites.length := by
  induction h with
  | here => exact Nat.zero_le _
  | behind _ _ ih => exact Nat.succ_le_succ ih

/-- What a run over the statements records, and what it leaves behind. -/
theorem extractSites (env : Env) :
    env.extractSites sites' =
      ((env.extractSites sites).1.map (Event.pushed (env.statement + k)), (env.extractSites sites).2.later 1) := by
  induction h generalizing env with
  | @here a silent sites =>
    have next : env.extractSites (a :: sites) = (env.later 1).extractSites sites := by
      rw [Env.extractSites, silent.events]
      rfl
    rw [next, Env.extractSites_later]
    refine congrArg (·, _) (List.map_congr_left fun event member => ?_)
    exact (Event.pushed_of_above ((env.extractSites_within sites).2 event member) (Nat.le_refl _)).symm
  | @behind a b k sites sites' twin _ ih =>
    have one : env.extractSites [b] = env.extractSites [a] := by
      rw [Env.extractSites, twin.owner, twin.events]
      rfl
    have number : (env.extractSites [a]).2.statement + k = env.statement + (k + 1) := Nat.add_right_comm env.statement 1 k
    have own : (env.extractSites [a]).1.map (Event.pushed (env.statement + (k + 1))) = (env.extractSites [a]).1 := by
      refine (List.map_congr_left fun event member => ?_).trans (List.map_id _)
      exact Event.pushed_of_below ((env.extractSites_within [a]).2 event member) (number ▸ Nat.le_add_right _ k)
    have rest := ih (env.extractSites [a]).2
    rw [number] at rest
    rw [← List.singleton_append, ← List.singleton_append (l := sites), Env.extractSites_append, Env.extractSites_append, one,
      rest, List.map_append, own]

/-- The findings before the statement stay, and those behind it count one statement more. -/
theorem findings (source : String) (first : Nat) :
    findingsFrom source first sites' = (findingsFrom source first sites).map (Finding.pushed (first + k)) := by
  induction h generalizing first with
  | here silent sites =>
    rw [findingsFrom_cons, silent.findings, List.nil_append, findingsFrom_of_le source sites (Nat.le_refl first)]
    rfl
  | behind twin _ ih =>
    rw [findingsFrom_cons, findingsFrom_cons, twin.findings, ih, List.map_append, Stmt.findings_pushed,
      pushed_of_lt (Nat.lt_add_of_pos_right (Nat.succ_pos _)), Nat.add_right_comm first 1]
    rfl

end Inserted

end Site

/-! ### Scripts -/

/-- The statement holds the statements in one of the three ways. -/
inductive Wraps : List Stmt → Stmt → Prop
  | block (span body) : Wraps body (.block span body)
  | tryCatch (span attempt handler) : Wraps (attempt ++ handler) (.tryCatch span attempt handler)
  | ifElse (span) {cond} (yes no) :
      (∀ node ∈ Outline.visitAll (fun _ => false) (Outline.ofExpr cond), node.risk? = none) →
      Wraps [yes, no] (.ifElse span cond yes (some no))

/-- Somewhere in the statements, behind `k` others, some are put into one that wraps them. -/
inductive Rewrites : Option Owner → Nat → List Stmt → List Stmt → Prop
  | here {owner ss w} : Wraps ss w → Rewrites owner 0 ss [w]
  | between {owner k ss ss'} (before after) : Rewrites owner k ss ss' →
      Rewrites owner ((Site.ofStmts owner before).length + k) (before ++ ss ++ after) (before ++ ss' ++ after)
  | block {owner k ss ss'} (span) : Rewrites owner k ss ss' →
      Rewrites owner (k + 1) [.block span ss] [.block span ss']
  | yes {owner k s s'} (span cond no) : Rewrites owner k [s] [s'] →
      Rewrites owner (k + 1) [.ifElse span cond s no] [.ifElse span cond s' no]
  | no {owner k s s'} (span cond yes) : Rewrites owner k [s] [s'] →
      Rewrites owner ((Site.ofStmt owner yes).length + k + 1) [.ifElse span cond yes (some s)]
        [.ifElse span cond yes (some s')]
  | loop {owner k s s'} (span cond) : Rewrites owner k [s] [s'] →
      Rewrites owner (k + 1) [.loop span cond s] [.loop span cond s']
  | attempt {owner k ss ss'} (span handler) : Rewrites owner k ss ss' →
      Rewrites owner (k + 1) [.tryCatch span ss handler] [.tryCatch span ss' handler]
  | handler {owner k ss ss'} (span attempt) : Rewrites owner k ss ss' →
      Rewrites owner ((Site.ofStmts owner attempt).length + k + 1) [.tryCatch span attempt ss]
        [.tryCatch span attempt ss']
  | createProc {owner k ss ss'} (span alter name params) : Rewrites (some { name }) k ss ss' →
      Rewrites owner (k + 1) [.createProc span alter name params ss] [.createProc span alter name params ss']
  | createFunction {owner k ss ss'} (span header) : Rewrites (some { name := header.name }) k ss ss' →
      Rewrites owner (k + 1) [.createFunction span header ss] [.createFunction span header ss']
  | createTrigger {owner k ss ss'} (span alter name table events) :
      Rewrites (some { name, trigger := table }) k ss ss' →
      Rewrites owner (k + 1) [.createTrigger span alter name table events ss]
        [.createTrigger span alter name table events ss']

namespace Site

variable {owner : Option Owner} {k : Nat} {ss ss' : List Stmt}

theorem ofStmts_singleton (s : Stmt) : ofStmts owner [s] = ofStmt owner s := by
  rw [ofStmts, ofStmts, List.append_nil]

/-- The wrapping statement comes first, and what it holds follows as before. -/
theorem inserted_of_wraps {w : Stmt} (wraps : Wraps ss w) : Inserted 0 (ofStmts owner ss) (ofStmts owner [w]) := by
  rw [ofStmts_singleton]
  cases wraps with
  | block span => exact .here ⟨fun _ => rfl, fun _ _ => rfl⟩ _
  | tryCatch span attempt handler =>
    rw [Stmt.sites_append]
    exact .here ⟨fun _ => rfl, fun _ _ => rfl⟩ _
  | ifElse span yes no quiet =>
    rw [ofStmts, ofStmts_singleton]
    refine .here ⟨fun _ => rfl, fun source number => List.filterMap_eq_nil_iff.2 fun node member => ?_⟩ _
    rw [quiet node member]
    rfl

/-- By induction on the rewriting: the statements around the one put in go on in their order. -/
theorem inserted_of_rewrites (rewrites : Rewrites owner k ss ss') :
    Inserted k (ofStmts owner ss) (ofStmts owner ss') := by
  induction rewrites with
  | here wraps => exact inserted_of_wraps wraps
  | between before after _ ih =>
    simp only [Stmt.sites_append]
    exact (ih.after _).append _
  | no span cond yes _ ih =>
    simp only [ofStmts_singleton] at ih ⊢
    exact .behind ⟨rfl, fun _ => rfl, fun _ _ => rfl⟩ (ih.after _)
  | handler span attempt _ ih =>
    simp only [ofStmts_singleton]
    exact .behind ⟨rfl, fun _ => rfl, fun _ _ => rfl⟩ (ih.after _)
  | yes span cond no _ ih =>
    simp only [ofStmts_singleton] at ih ⊢
    exact .behind ⟨rfl, fun _ => rfl, fun _ _ => rfl⟩ (ih.append _)
  | attempt span handler _ ih =>
    simp only [ofStmts_singleton]
    exact .behind ⟨rfl, fun _ => rfl, fun _ _ => rfl⟩ (ih.append _)
  | loop span cond _ ih =>
    simp only [ofStmts_singleton] at ih ⊢
    exact .behind ⟨rfl, fun _ => rfl, fun _ _ => rfl⟩ ih
  | _ =>
    rename_i ih
    simp only [ofStmts_singleton]
    exact .behind ⟨rfl, fun _ => rfl, fun _ _ => rfl⟩ ih

end Site

/-- The same for a whole run. -/
theorem Env.extractBatches_inserted (env : Env) (before after : List Batch) {batch batch' : Batch} {k : Nat}
    (inserted : Site.Inserted k batch.sites batch'.sites) :
    env.extractBatches (before ++ batch' :: after) = (env.extractBatches (before ++ batch :: after)).map
      (Event.pushed (env.statement + (before.flatMap Batch.sites).length + k)) := by
  obtain ⟨tables, commons, passed⟩ := env.foldl_pass_final before
  have number : (before.foldl pass env).statement = env.statement + (before.flatMap Batch.sites).length := by rw [passed]
  have here := inserted.extractSites { before.foldl pass env with commons := {} }
  have next : (before.foldl pass env).pass batch' = ((before.foldl pass env).pass batch).later 1 := congrArg Prod.snd here
  obtain ⟨_, _, final⟩ := Env.extractSites_final { before.foldl pass env with commons := {} } batch.sites
  have behind : ((before.foldl pass env).pass batch).statement = (before.foldl pass env).statement + batch.sites.length := by
    rw [pass, final]
  rw [extractBatches_append, extractBatches_append, extractBatches_cons, extractBatches_cons, here, next,
    extractBatches_later, List.map_append, List.map_append]
  congr 1
  · refine ((List.map_congr_left fun event member => ?_).trans (List.map_id _)).symm
    exact Event.pushed_of_below ((env.extractBatches_within before).2 event member) (number ▸ Nat.le_add_right _ k)
  congr 1
  · exact congrArg (fun n => List.map (Event.pushed (n + k)) _) number
  · refine List.map_congr_left fun event member =>
      (Event.pushed_of_above ((Env.extractBatches_within _ after).2 event member) ?_).symm
    have := inserted.le
    omega

/-- In one batch of the script, behind `k` statements of it, some are put into one that wraps them. -/
structure Script.Rewritten (script script' : Script) (before after : List Batch) (k : Nat) : Prop where
  source : script'.source = script.source
  batches : ∃ batch batch' : Batch, script.batches = before ++ batch :: after ∧
    script'.batches = before ++ batch' :: after ∧ Rewrites none k batch.stmts batch'.stmts

/-- Control flow is transparent. Where statements are put into a block, into a `TRY` with its `CATCH` or into an `IF`
whose condition runs no code, at any place of a script, all edges, gaps, objects and findings stay as they are, and the
numbers of these statements and of all behind them grow by one. -/
theorem control_flow_transparent {script script' : Script} {before after : List Batch} {k : Nat}
    (rewritten : script.Rewritten script' before after k) (errors : List ParseError) (options : ExtractOptions) :
    let place := (before.flatMap Batch.sites).length + k
    let l := extract (some script) errors options
    let l' := extract (some script') errors options
    l'.edges = l.edges.map (Edge.pushed place) ∧ l'.gaps = l.gaps.map (Gap.pushed place) ∧ l'.objects = l.objects ∧
      l'.findings = l.findings.map (Finding.pushed place) := by
  intro place l l'
  obtain ⟨batch, batch', batches, batches', rewrites⟩ := rewritten.batches
  have inserted : Site.Inserted k batch.sites batch'.sites := Site.inserted_of_rewrites rewrites
  have events : options.env.extractBatches script'.batches =
      (options.env.extractBatches script.batches).map (Event.pushed place) := by
    rw [batches, batches', options.env.extractBatches_inserted before after inserted]
    rw [show options.env.statement = 0 from rfl, Nat.zero_add]
  have part {α : Type} (f : Event → Option α) (g : α → α) (same : ∀ event, f (event.pushed place) = (f event).map g) :
      (options.env.extractBatches script'.batches).filterMap f =
        ((options.env.extractBatches script.batches).filterMap f).map g := by
    rw [events, List.filterMap_map, List.map_filterMap]
    exact congrArg (List.filterMap · _) (funext same)
  refine ⟨part _ _ ?_, part _ _ ?_, ?_, ?_⟩
  · intro event
    cases event <;> rfl
  · intro event
    cases event <;> rfl
  · have objects := part Event.object? id (by intro event; cases event <;> rfl)
    rwa [List.map_id] at objects
  · have sites : Site.Inserted place script.sites script'.sites := by
      rw [Script.sites, Script.sites, batches, batches', List.flatMap_append, List.flatMap_append, List.flatMap_cons,
        List.flatMap_cons]
      exact (inserted.append _).after _
    have found := sites.findings script.source 0
    rw [Nat.zero_add] at found
    change (Site.findingsFrom script'.source 0 script'.sites).mergeSort Finding.isBefore =
      ((Site.findingsFrom script.source 0 script.sites).mergeSort Finding.isBefore).map (Finding.pushed place)
    have sorted (findings : List Finding) : (findings.mergeSort Finding.isBefore).map (Finding.pushed place) =
        (findings.map (Finding.pushed place)).mergeSort Finding.isBefore := List.map_mergeSort fun _ _ _ _ => rfl
    rw [rewritten.source, found, sorted]

/-- The last two of three statements are put into a block. -/
theorem control_flow_transparent_block :
    ∃ script span first rest, (parse "SELECT a INTO #t FROM s; EXEC (@q); INSERT u (b) SELECT * FROM #t").1 = some script ∧
      script.batches = [⟨span, first :: rest⟩] ∧
      let wrapped : Script := { script with batches := [⟨span, [first, .block .unset rest]⟩] }
      let l := extract (some script) [] {}
      let l' := extract (some wrapped) [] {}
      script.Rewritten wrapped [] [] 1 ∧ l.edges.map (·.statement) = [0, 2] ∧ l.findings.map (·.statement) = [1] ∧
        l'.edges = l.edges.map (Edge.pushed 1) ∧ l'.findings = l.findings.map (Finding.pushed 1) := by
  obtain ⟨script, parsed, counts, edges, findings⟩ :
      ∃ script ∈ (parse "SELECT a INTO #t FROM s; EXEC (@q); INSERT u (b) SELECT * FROM #t").1,
        script.batches.map (·.stmts.map fun s => (Site.ofStmts none [s]).length) = [[1, 1, 1]] ∧
          (extract (some script) [] {}).edges.map (·.statement) = [0, 2] ∧
          (extract (some script) [] {}).findings.map (·.statement) = [1] := by decide +kernel
  obtain ⟨⟨span, stmts⟩, _, batches, counts, more⟩ := List.map_eq_cons_iff.1 counts
  obtain rfl := List.map_eq_nil_iff.1 more
  obtain ⟨first, rest, rfl, one, -⟩ := List.map_eq_cons_iff.1 counts
  refine ⟨script, span, first, rest, parsed, batches, ?_⟩
  intro wrapped l l'
  have place : Rewrites none ((Site.ofStmts none [first]).length + 0) (first :: rest) [first, .block .unset rest] := by
    have inside : Rewrites none 0 rest [.block .unset rest] := .here (.block .unset rest)
    have inside := inside.between [first] []
    rwa [List.append_nil] at inside
  rw [one] at place
  have rewritten : script.Rewritten wrapped [] [] 1 := ⟨rfl, ⟨span, _⟩, ⟨span, _⟩, batches, rfl, place⟩
  obtain ⟨edges', -, -, findings'⟩ := control_flow_transparent rewritten [] {}
  exact ⟨rewritten, edges, findings, edges', findings'⟩

end ColumnFlow
