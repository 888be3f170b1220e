import ColumnFlow.Lineage.Parallel

/-!
# Parallel extraction is sequential extraction

`Steps` says once what a step of a run can do. Three things follow from it for every schedule. What is kept of the
definitions, the contexts and the slots is `Sound`, so that a run which returns its slots returns the results of the
definitions in order. A run that has not returned can go on without an interruption. And each step uses up some of a
fixed amount of work, so that no schedule is longer than that.
-/

namespace ColumnFlow.Parallel

variable {limit : Nat} {options : ExtractOptions} {definitions : List Definition} {p q : Pool} {m : Move}

/-! ### What a step can do -/

/-- The steps that are possible while nothing is returned. -/
inductive Steps (limit : Nat) (options : ExtractOptions) (p : Pool) : Move → Pool → Prop where
  | interrupt (cause : Interruption) (fresh : p.interruption = none) :
    Steps limit options p (.interrupt cause) { p with interruption := some cause }
  | spread (cause : Interruption) (known : p.interruption = some cause) (fresh : p.shared = none) :
    Steps limit options p .spread { p with shared := some cause }
  | handOut (before : List Job) (j : Job) (after : List Job) (jobs : p.jobs = before ++ j :: after)
    (waiting : j.phase = .waiting) (free : (p.jobs.filter (·.isBusy)).length < limit) :
    Steps limit options p .handOut { p with jobs := before ++ { j with phase := .started } :: after }
  | work (before : List Job) (j : Job) (after : List Job) (next : Job) (jobs : p.jobs = before ++ j :: after)
    (advance : j.advance options p.shared = some next) :
    Steps limit options p (.work before.length)
      { p with
        jobs := before ++ next :: after
        failure := p.failure.or j.error?
        shared := p.shared.or (j.error?.map fun _ => .canceled) }
  | fail (cause : Interruption) (allDone : ∀ j ∈ p.jobs, j.phase = .done) (failed : p.failure = some cause) :
    Steps limit options p .join { p with outcome := some (.error cause) }
  | join (fresh : p.joined = false) (allDone : ∀ j ∈ p.jobs, j.phase = .done) (passed : p.failure = none) :
    Steps limit options p .join { p with joined := true }
  | finish (joined : p.joined = true) : Steps limit options p .finish { p with outcome := some p.result }

/-- The first definition that waits is handed out, and no other job changes. -/
theorem Job.handOut_eq_some {jobs jobs' : List Job} (given : Job.handOut jobs = some jobs') :
    ∃ before j after, jobs = before ++ j :: after ∧ j.phase = .waiting ∧
      jobs' = before ++ { j with phase := .started } :: after := by
  induction jobs generalizing jobs' with
  | nil => cases given
  | cons first rest ih =>
    rw [handOut] at given
    split at given
    · rename_i waiting
      cases given
      exact ⟨[], first, rest, rfl, waiting, rfl⟩
    · obtain ⟨later, found, rfl⟩ := Option.map_eq_some_iff.1 given
      obtain ⟨before, j, after, rfl, waiting, rfl⟩ := ih found
      exact ⟨first :: before, j, after, rfl, waiting, rfl⟩

/-- A step that can be taken is one of the kinds that `Steps` lists. -/
theorem Steps.of_step (taken : p.step limit options m = some q) : p.outcome = none ∧ Steps limit options p m q := by
  unfold Pool.step at taken
  split at taken
  · cases taken
  · rename_i returned
    refine ⟨by simpa using returned, ?_⟩
    cases m with
    | interrupt cause =>
      simp only [Option.ite_none_left_eq_some, Option.some.injEq] at taken
      obtain ⟨fresh, rfl⟩ := taken
      exact .interrupt cause (by simpa using fresh)
    | spread =>
      simp only [Option.ite_none_left_eq_some, Option.map_eq_some_iff] at taken
      obtain ⟨fresh, cause, known, rfl⟩ := taken
      exact .spread cause known (by simpa using fresh)
    | handOut =>
      simp only [Option.ite_none_right_eq_some, Option.map_eq_some_iff] at taken
      obtain ⟨free, jobs, given, rfl⟩ := taken
      obtain ⟨before, j, after, found, waiting, rfl⟩ := Job.handOut_eq_some given
      exact .handOut before j after found waiting free
    | work number =>
      simp only [Pool.work, Option.bind_eq_bind, Option.bind_eq_some_iff, Option.pure_def, Option.some.injEq] at taken
      obtain ⟨j, found, next, advance, rfl⟩ := taken
      obtain ⟨inside, rfl⟩ := List.getElem?_eq_some_iff.1 found
      obtain ⟨before, after, jobs, rfl, replaced⟩ := @List.exists_of_set _ number next p.jobs inside
      rw [replaced]
      exact .work before _ after next jobs advance
    | join =>
      simp only [Option.ite_none_left_eq_some, Bool.or_eq_true, List.any_eq_true, not_or, not_exists, not_and,
        bne_iff_ne, ne_eq, Decidable.not_not] at taken
      obtain ⟨⟨fresh, allDone⟩, taken⟩ := taken
      split at taken
      · rename_i cause failed
        cases taken
        exact .fail cause allDone failed
      · rename_i passed
        cases taken
        exact .join (by simpa using fresh) allDone passed
    | finish =>
      simp only [Option.ite_none_right_eq_some, Option.some.injEq] at taken
      obtain ⟨joined, rfl⟩ := taken
      exact .finish joined

/-! ### What a run keeps -/

/-- What holds of a job at each phase. The worker of a refused job has seen the context of the workers end, and a job
that is done has its result in its slot unless there was an error. -/
def Job.Sound (options : ExtractOptions) (shared failure : Option Interruption) (j : Job) : Prop :=
  match j.phase with
  | .waiting | .started | .admitted => True
  | .written => j.slot = some (j.definition.lineage options)
  | .refused cause => shared = some cause
  | .done => failure = none → j.slot = some (j.definition.lineage options)

/-- A context that is over stays so, and an error is not forgotten. -/
theorem Job.Sound.mono {shared shared' failure failure' : Option Interruption} {j : Job}
    (sound : j.Sound options shared failure) (ended : ∀ cause, shared = some cause → shared' = some cause)
    (kept : failure' = none → failure = none) : j.Sound options shared' failure' := by
  unfold Sound at sound ⊢
  split <;> simp_all

/-- What is to be returned: the results of the definitions, unless the caller's context is over. -/
def answer (definitions : List Definition) (options : ExtractOptions) :
    Option Interruption → Except Interruption (List (Option Lineage))
  | some cause => .error cause
  | none => .ok (definitions.map fun d => some (d.lineage options))

/-- What holds in every state of a run. -/
structure Pool.Sound (definitions : List Definition) (options : ExtractOptions) (p : Pool) : Prop where
  inOrder : p.jobs.map (·.definition) = definitions
  jobs : ∀ j ∈ p.jobs, j.Sound options p.shared p.failure
  shared : ∀ cause, p.shared = some cause → p.interruption = some cause
  failure : ∀ cause, p.failure = some cause → p.interruption = some cause
  joined : p.joined = true → p.failure = none ∧ ∀ j ∈ p.jobs, j.phase = .done
  outcome : ∀ r, p.outcome = some r → r = answer definitions options p.interruption

/-- What a worker's step can do to its job. -/
theorem Job.advance_cases {shared : Option Interruption} {j next : Job}
    (advance : j.advance options shared = some next) :
    (j.phase = .started ∧ shared = none ∧ next = { j with phase := .admitted }) ∨
      (∃ cause, j.phase = .started ∧ shared = some cause ∧ next = { j with phase := .refused cause }) ∨
      (j.phase = .admitted ∧ next = { j with phase := .written, slot := some (j.definition.lineage options) }) ∨
      (j.phase = .written ∧ next = { j with phase := .done }) ∨
      ∃ cause, j.phase = .refused cause ∧ next = { j with phase := .done } := by
  unfold Job.advance at advance
  split at advance <;> rename_i phase
  · cases advance
  · cases advance
  · split at advance <;> cases advance
    · exact .inl ⟨phase, rfl, rfl⟩
    · exact .inr (.inl ⟨_, phase, rfl, rfl⟩)
  · cases advance
    exact .inr (.inr (.inl ⟨phase, rfl⟩))
  · cases advance
    exact .inr (.inr (.inr (.inl ⟨phase, rfl⟩)))
  · cases advance
    exact .inr (.inr (.inr (.inr ⟨_, phase, rfl⟩)))

namespace Pool.Sound

theorem start (definitions : List Definition) (options : ExtractOptions) :
    (start definitions).Sound definitions options where
  inOrder := by simp [Pool.start, Function.comp_def]
  jobs := by
    intro j member
    obtain ⟨d, -, rfl⟩ := List.mem_map.1 member
    trivial
  shared := nofun
  failure := nofun
  joined := nofun
  outcome := nofun

/-- The slots hold the results in order once all jobs are done without an error. -/
theorem slots (sound : p.Sound definitions options) (passed : p.failure = none)
    (allDone : ∀ j ∈ p.jobs, j.phase = .done) :
    p.jobs.map (·.slot) = definitions.map fun d => some (d.lineage options) := by
  rw [← sound.inOrder, List.map_map]
  refine List.map_congr_left fun j member => ?_
  have done := sound.jobs j member
  rw [Job.Sound, allDone j member] at done
  exact done passed

/-- A worker's step keeps its job sound. An error it returns with is why the context of the workers is over. -/
theorem advance (sound : p.Sound definitions options) {j next : Job} (member : j ∈ p.jobs)
    (advance : j.advance options p.shared = some next) :
    next.definition = j.definition ∧ j.phase ≠ .done ∧ (∀ cause, j.error? = some cause → p.shared = some cause) ∧
      next.Sound options p.shared (p.failure.or j.error?) := by
  have before := sound.jobs j member
  obtain ⟨phase, -, rfl⟩ | ⟨cause, phase, ended, rfl⟩ | ⟨phase, rfl⟩ | ⟨phase, rfl⟩ | ⟨cause, phase, rfl⟩ :=
    Job.advance_cases advance <;> simp only [Job.Sound, phase] at before
  · simp [Job.Sound, Job.error?, phase]
  · simp [Job.Sound, Job.error?, phase, ended]
  · simp [Job.Sound, Job.error?, phase]
  · simp [Job.Sound, Job.error?, phase, before]
  · simp [Job.Sound, Job.error?, phase, before]

/-- One job that is not done moves on. -/
theorem replace (sound : p.Sound definitions options) (running : p.outcome = none) {before after : List Job}
    {j next : Job} {failure : Option Interruption} (jobs : p.jobs = before ++ j :: after)
    (same : next.definition = j.definition) (unfinished : j.phase ≠ .done)
    (known : ∀ cause, failure = some cause → p.interruption = some cause)
    (kept : failure = none → p.failure = none) (moved : next.Sound options p.shared failure) :
    { p with jobs := before ++ next :: after, failure }.Sound definitions options where
  inOrder := by simpa [same, jobs] using sound.inOrder
  jobs := by
    intro other member
    have old : other ∈ p.jobs ∨ other = next := by
      rw [jobs]
      grind
    obtain old | rfl := old
    · exact (sound.jobs other old).mono (fun _ => id) kept
    · exact moved
  shared := sound.shared
  failure := known
  joined := fun joined => absurd ((sound.joined joined).2 j (by simp [jobs])) unfinished
  outcome := by simp [running]

/-- Each kind of step keeps what is known of a pool. -/
theorem step (sound : p.Sound definitions options) (running : p.outcome = none) (taken : Steps limit options p m q) :
    q.Sound definitions options := by
  cases taken with
  | interrupt cause fresh =>
    have known : ∀ c, p.interruption = some c → some cause = some c := by simp [fresh]
    exact { sound with
      shared := fun c ended => known c (sound.shared c ended)
      failure := fun c failed => known c (sound.failure c failed)
      outcome := by simp [running] }
  | spread cause known fresh =>
    exact { sound with
      jobs := fun j member => (sound.jobs j member).mono (by simp [fresh]) id
      shared := fun c ended => known.trans ended }
  | handOut before j after jobs waiting free =>
    exact sound.replace running jobs rfl (by simp [waiting]) sound.failure id trivial
  | work before j after next jobs advance =>
    obtain ⟨same, unfinished, seen, moved⟩ := sound.advance (by simp [jobs]) advance
    have unchanged : p.shared.or (j.error?.map fun _ => .canceled) = p.shared := by
      cases error : j.error? with
      | none => simp
      | some cause => simp [seen cause error]
    rw [unchanged]
    refine sound.replace running jobs same unfinished ?_ (fun passed => (Option.or_eq_none_iff.1 passed).1) moved
    intro cause failed
    obtain old | ⟨-, new⟩ := Option.or_eq_some_iff.1 failed
    · exact sound.failure cause old
    · exact sound.shared cause (seen cause new)
  | fail cause allDone failed =>
    exact { sound with
      outcome := by
        rintro r ⟨⟩
        rw [sound.failure cause failed]
        rfl }
  | join fresh allDone passed => exact { sound with joined := fun _ => ⟨passed, allDone⟩ }
  | finish joined =>
    obtain ⟨passed, allDone⟩ := sound.joined joined
    exact { sound with
      outcome := by
        rintro r ⟨⟩
        rw [Pool.result, sound.slots passed allDone]
        rfl }

end Pool.Sound

/-- The caller's context is over after a step if it was before or the step is its interruption. -/
theorem Steps.interruption_iff (taken : Steps limit options p m q) (cause : Interruption) :
    q.interruption = some cause ↔ p.interruption = some cause ∨ m = .interrupt cause := by
  cases taken with
  | interrupt c fresh => simp [fresh]
  | spread | handOut | work | fail | join | finish => simp

/-! ### A run comes to an end -/

/-- The steps that a job still needs, at most. -/
def Job.remaining (j : Job) : Nat :=
  match j.phase with
  | .waiting => 4
  | .started => 3
  | .admitted => 2
  | .written | .refused _ => 1
  | .done => 0

theorem Job.advance_remaining {shared : Option Interruption} {j next : Job}
    (advance : j.advance options shared = some next) : next.remaining < j.remaining := by
  obtain ⟨phase, -, rfl⟩ | ⟨cause, phase, -, rfl⟩ | ⟨phase, rfl⟩ | ⟨phase, rfl⟩ | ⟨cause, phase, rfl⟩ :=
    Job.advance_cases advance <;> simp [remaining, phase]

def Job.remainingAll : List Job → Nat
  | [] => 0
  | j :: rest => j.remaining + Job.remainingAll rest

theorem Job.remainingAll_append (front back : List Job) :
    Job.remainingAll (front ++ back) = Job.remainingAll front + Job.remainingAll back := by
  induction front with
  | nil => simp [remainingAll]
  | cons j rest ih => simp [remainingAll, ih, Nat.add_assoc]

theorem Job.remainingAll_waiting (definitions : List Definition) :
    Job.remainingAll (definitions.map fun definition => { definition }) = 4 * definitions.length := by
  induction definitions with
  | nil => rfl
  | cons d rest ih =>
    simp only [List.map_cons, remainingAll, remaining, ih, List.length_cons]
    omega

/-- The steps that are left, at most: those of the jobs, two of the caller, an interruption and its spreading. -/
def Pool.remaining (p : Pool) : Nat :=
  Job.remainingAll p.jobs + (!p.joined).toNat + p.outcome.isNone.toNat + p.interruption.isNone.toNat
    + p.shared.isNone.toNat

theorem Pool.remaining_start (definitions : List Definition) :
    (Pool.start definitions).remaining = 4 * definitions.length + 4 := by
  simp [Pool.remaining, Pool.start, Job.remainingAll_waiting]

/-- Every step uses up some of what remains to be done, which bounds a run. -/
theorem Steps.remaining_lt (running : p.outcome = none) (taken : Steps limit options p m q) :
    q.remaining < p.remaining := by
  cases taken with
  | interrupt cause fresh | spread cause known fresh => simp [Pool.remaining, fresh]
  | handOut before j after jobs waiting free =>
    simp [Pool.remaining, jobs, Job.remainingAll_append, Job.remainingAll, Job.remaining, waiting]
  | work before j after next jobs advance =>
    have fewer := Job.advance_remaining advance
    have shared : (p.shared.or (j.error?.map fun _ => Interruption.canceled)).isNone.toNat ≤ p.shared.isNone.toNat := by
      cases p.shared <;> simp [Bool.toNat_le]
    simp only [Pool.remaining, jobs, Job.remainingAll_append, Job.remainingAll]
    omega
  | fail cause allDone failed => simp [Pool.remaining, running]
  | join fresh allDone passed => simp [Pool.remaining, fresh]
  | finish joined => simp [Pool.remaining, running]

/-- What each step keeps or uses up, over a whole schedule. -/
theorem Pool.Sound.run (sound : p.Sound definitions options) {schedule : List Move}
    (ran : p.run limit options schedule = some q) :
    q.Sound definitions options ∧
      (∀ cause, q.interruption = some cause ↔ p.interruption = some cause ∨ .interrupt cause ∈ schedule) ∧
      schedule.length + q.remaining ≤ p.remaining := by
  induction schedule generalizing p with
  | nil =>
    cases ran
    exact ⟨sound, by simp, by simp⟩
  | cons m rest ih =>
    obtain ⟨next, first, later⟩ := Option.bind_eq_some_iff.1 ran
    obtain ⟨running, taken⟩ := Steps.of_step first
    obtain ⟨final, interrupted, bound⟩ := ih (sound.step running taken) later
    have fewer := taken.remaining_lt running
    refine ⟨final, fun cause => ?_, by rw [List.length_cons]; omega⟩
    rw [interrupted, taken.interruption_iff, or_assoc, List.mem_cons, eq_comm (a := m)]

/-! ### A run can go on -/

theorem Job.handOut_isSome {jobs : List Job} {j : Job} (member : j ∈ jobs) (waiting : j.phase = .waiting) :
    (Job.handOut jobs).isSome = true := by
  induction jobs with
  | nil => cases member
  | cons first rest ih =>
    rw [handOut]
    split
    · rfl
    · rename_i other
      rw [Option.isSome_map]
      exact ih ((List.mem_cons.1 member).resolve_left fun same => other (same ▸ waiting))

theorem Job.advance_isSome (options : ExtractOptions) (shared : Option Interruption) {j : Job} (busy : j.isBusy = true) :
    (j.advance options shared).isSome = true := by
  unfold isBusy at busy
  cases phase : j.phase with
  | waiting | done => simp [phase] at busy
  | started => cases shared <;> simp [advance, phase]
  | admitted | written | refused => simp [advance, phase]

/-- While nothing is returned some party can take a step, whether or not the context is ever interrupted. -/
theorem Pool.progress (positive : 0 < limit) (running : p.outcome = none) :
    ∃ m, (∀ cause, m ≠ .interrupt cause) ∧ (p.step limit options m).isSome = true := by
  by_cases joined : p.joined = true
  · exact ⟨.finish, nofun, by simp [Pool.step, running, joined]⟩
  · by_cases busy : ∃ j ∈ p.jobs, j.isBusy = true
    · obtain ⟨j, member, busy⟩ := busy
      obtain ⟨i, inside, rfl⟩ := List.getElem_of_mem member
      obtain ⟨next, advance⟩ := Option.isSome_iff_exists.1 (Job.advance_isSome options p.shared busy)
      exact ⟨.work i, nofun, by simp [Pool.step, running, Pool.work, inside, advance]⟩
    · have idle : p.jobs.filter (·.isBusy) = [] := by simpa using busy
      by_cases waits : ∃ j ∈ p.jobs, j.phase = .waiting
      · obtain ⟨j, member, waiting⟩ := waits
        have given := Job.handOut_isSome member waiting
        exact ⟨.handOut, nofun, by simp [Pool.step, running, idle, positive, given]⟩
      · have allDone : p.jobs.any (·.phase != .done) = false := by
          rw [List.any_eq_false]
          intro j member unfinished
          have begun : j.phase ≠ .waiting := fun waiting => waits ⟨j, member, waiting⟩
          exact busy ⟨j, member, by simp [Job.isBusy, begun, unfinished]⟩
        refine ⟨.join, nofun, ?_⟩
        simp only [Pool.step, running, joined, allDone]
        cases p.failure <;> rfl

theorem workerLimit_pos (workers : Int) : 0 < workerLimit workers := by
  unfold workerLimit
  split <;> omega

/-- In whatever order the caller and the workers take their steps, and whenever the caller's context is interrupted, a
run that has returned has returned one result for each definition in their order, the extraction of its text under its
own default schema, or else that of the options, with its name set, as in sequential extraction, if the context was not
over at the last look at it, and the reason alone if it was. A run that has not returned can go on without an
interruption, and every run ends after a bounded number of steps. -/
theorem parallel_eq_sequential (definitions : List Definition) (options : ExtractOptions) (workers : Int)
    {schedule : List Move} {p : Pool}
    (ran : (Pool.start definitions).run (workerLimit workers) options schedule = some p) :
    (∀ r, p.outcome = some r →
        (r = .ok (definitions.map fun d =>
            let schema := if d.defaultSchema = "" then options.defaultSchema else d.defaultSchema
            some { extractText d.sql { options with defaultSchema := schema } with name := d.name }) ∧
          r = .ok ((extractAll definitions options).map some) ∧ ∀ cause, .interrupt cause ∉ schedule) ∨
        ∃ cause, r = .error cause ∧ .interrupt cause ∈ schedule) ∧
      (p.outcome = none →
        ∃ m, (∀ cause, m ≠ .interrupt cause) ∧ (p.step (workerLimit workers) options m).isSome = true) ∧
      schedule.length ≤ 4 * definitions.length + 4 := by
  obtain ⟨sound, interrupted, bound⟩ := (Pool.Sound.start definitions options).run ran
  have ended : ∀ cause, p.interruption = some cause ↔ .interrupt cause ∈ schedule := by
    simpa [Pool.start] using interrupted
  rw [Pool.remaining_start] at bound
  refine ⟨fun r returned => ?_, Pool.progress (workerLimit_pos workers), by omega⟩
  have same := sound.outcome r returned
  cases found : p.interruption with
  | some cause =>
    rw [found] at same
    exact .inr ⟨cause, same, (ended cause).1 found⟩
  | none =>
    rw [found] at same
    refine .inl ⟨by simpa [answer, Definition.lineage] using same,
      by simpa [extractAll, answer, Function.comp_def] using same, fun cause member => ?_⟩
    rw [← ended, found] at member
    cases member

/-- Two definitions by two workers, of which the second is done first. Once both have begun, an interruption reaches
neither of them; before the last look it makes the run return the reason, and without it the run returns both results. -/
theorem parallel_eq_sequential_late :
    let definitions : List Definition := [⟨"a", "SELECT x FROM t", "sales"⟩, ⟨"b", "SELECT y FROM u", ""⟩]
    let begun : List Move := [.handOut, .handOut, .work 1, .work 0]
    let rest : List Move := [.work 1, .work 1, .work 0, .work 0, .join, .finish]
    extractBy 2 {} definitions (begun ++ rest) =
        some (.ok [some { extractText "SELECT x FROM t" { defaultSchema := "sales" } with name := "a" },
          some { extractText "SELECT y FROM u" {} with name := "b" }]) ∧
      extractBy 2 {} definitions (begun ++ [.interrupt .canceled, .spread] ++ rest) = some (.error .canceled) := by
  intro definitions begun rest
  have returned (schedule : List Move) (returns : (extractBy 2 {} definitions schedule).isSome = true) :
      ∃ p r, (Pool.start definitions).run (workerLimit 2) {} schedule = some p ∧ p.outcome = some r ∧
        extractBy 2 {} definitions schedule = some r := by
    obtain ⟨r, found⟩ := Option.isSome_iff_exists.1 returns
    obtain ⟨p, ran, outcome⟩ := Option.bind_eq_some_iff.1 found
    exact ⟨p, r, ran, outcome, found⟩
  constructor
  · obtain ⟨p, r, ran, outcome, found⟩ := returned (begun ++ rest) (by decide +kernel)
    obtain ⟨same, -⟩ | ⟨cause, -, member⟩ := (parallel_eq_sequential definitions {} 2 ran).1 r outcome
    · rw [found, same]
      simp [definitions]
    · simp [begun, rest] at member
  · obtain ⟨p, r, ran, outcome, found⟩ :=
      returned (begun ++ [.interrupt .canceled, .spread] ++ rest) (by decide +kernel)
    obtain ⟨-, -, never⟩ | ⟨cause, same, member⟩ := (parallel_eq_sequential definitions {} 2 ran).1 r outcome
    · exact absurd (by simp [begun]) (never .canceled)
    · obtain rfl : cause = .canceled := by simpa [begun, rest] using member
      rw [found, same]

end ColumnFlow.Parallel
