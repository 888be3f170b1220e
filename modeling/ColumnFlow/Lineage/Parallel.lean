import ColumnFlow.Lineage.Extract

/-!
# Extraction in parallel

Many definitions are extracted by workers, a limited number of them at a time. The caller hands out the definitions
in order, waits until every worker is done, and looks at its context once more before it returns. A worker looks at
the context of the workers before it begins; one that has begun runs to the end and leaves its result in a slot of
its own. A worker that finds the context over returns the reason, and the first such error is the error of them all.

The caller and the workers take their steps in any order, and the caller's context may be interrupted between any
two of them. The context of the workers is one derived from it, which learns of the interruption some time later.
`Pool.step` is one step of one party, and a schedule lists the steps of a whole run.
-/

namespace ColumnFlow

/-- Why a context is over. -/
inductive Interruption where
  | canceled | deadlineExceeded
  deriving DecidableEq, Repr

namespace Interruption

def text : Interruption → String
  | .canceled => "context canceled"
  | .deadlineExceeded => "context deadline exceeded"

/-- The error of an extraction that was interrupted. -/
def message (cause : Interruption) : String := "extract definitions: " ++ cause.text

end Interruption

/-- How many workers are busy at a time: four, unless a positive number is given. -/
def workerLimit (workers : Int) : Nat := if workers ≤ 0 then 4 else workers.toNat

namespace Parallel

/-- How far the work on a definition is. -/
inductive Phase where
  /-- No worker has it yet. -/
  | waiting
  /-- A worker has it and has not looked at the context yet. -/
  | started
  /-- The context was not over. -/
  | admitted
  /-- The result is in its slot. -/
  | written
  /-- The context was over. -/
  | refused (cause : Interruption)
  /-- The worker has returned. -/
  | done
  deriving DecidableEq, Repr

structure Job where
  definition : Definition
  phase : Phase := .waiting
  slot : Option Lineage := none

namespace Job

/-- Whether a worker is taken up by the job. -/
def isBusy (j : Job) : Bool := j.phase != .waiting && j.phase != .done

/-- The next step of the worker. -/
def advance (options : ExtractOptions) (shared : Option Interruption) (j : Job) : Option Job :=
  match j.phase with
  | .waiting | .done => none
  | .started =>
    match shared with
    | none => some { j with phase := .admitted }
    | some cause => some { j with phase := .refused cause }
  | .admitted => some { j with phase := .written, slot := some (j.definition.lineage options) }
  | .written | .refused _ => some { j with phase := .done }

/-- The error that the worker is about to return with. -/
def error? (j : Job) : Option Interruption :=
  match j.phase with
  | .refused cause => some cause
  | _ => none

/-- Give the first job that is waiting to a worker. -/
def handOut : List Job → Option (List Job)
  | [] => none
  | j :: rest =>
    if j.phase = .waiting then some ({ j with phase := .started } :: rest) else (handOut rest).map (j :: ·)

end Job

/-- The state of a run. -/
structure Pool where
  jobs : List Job
  /-- Whether the caller's context is over. -/
  interruption : Option Interruption := none
  /-- Whether the context of the workers is over. -/
  shared : Option Interruption := none
  /-- The first error of a worker. -/
  failure : Option Interruption := none
  /-- Set when all workers are done and none had an error. -/
  joined : Bool := false
  /-- What the caller returns: an error, or the slots. -/
  outcome : Option (Except Interruption (List (Option Lineage))) := none

inductive Move where
  /-- The caller's context is over from here on. -/
  | interrupt (cause : Interruption)
  /-- The context of the workers learns that the caller's is over. -/
  | spread
  /-- The caller gives the next definition to a worker. -/
  | handOut
  /-- The worker of a definition takes its next step. -/
  | work (number : Nat)
  /-- The caller has waited for all workers. -/
  | join
  /-- The caller looks at its context for the last time and returns. -/
  | finish
  deriving DecidableEq, Repr

namespace Pool

def start (definitions : List Definition) : Pool := { jobs := definitions.map fun definition => { definition } }

/-- A worker's step. An error ends the context of the workers. -/
def work (options : ExtractOptions) (p : Pool) (number : Nat) : Option Pool := do
  let j ← p.jobs[number]?
  let next ← j.advance options p.shared
  return { p with
    jobs := p.jobs.set number next
    failure := p.failure.or j.error?
    shared := p.shared.or (j.error?.map fun _ => .canceled) }

/-- What the caller returns when no worker had an error. -/
def result (p : Pool) : Except Interruption (List (Option Lineage)) :=
  match p.interruption with
  | some cause => .error cause
  | none => .ok (p.jobs.map (·.slot))

/-- The state after a step, if the step is possible. -/
def step (limit : Nat) (options : ExtractOptions) (p : Pool) (m : Move) : Option Pool :=
  if p.outcome.isSome then none
  else match m with
    | .interrupt cause => if p.interruption.isSome then none else some { p with interruption := some cause }
    | .spread => if p.shared.isSome then none else p.interruption.map fun cause => { p with shared := some cause }
    | .handOut =>
      if (p.jobs.filter (·.isBusy)).length < limit then (Job.handOut p.jobs).map fun jobs => { p with jobs } else none
    | .work number => p.work options number
    | .join =>
      if p.joined || p.jobs.any (·.phase != .done) then none
      else match p.failure with
        | some cause => some { p with outcome := some (.error cause) }
        | none => some { p with joined := true }
    | .finish => if p.joined then some { p with outcome := some p.result } else none

/-- The state after the steps of a schedule, if each of them is possible. -/
def run (limit : Nat) (options : ExtractOptions) : Pool → List Move → Option Pool
  | p, [] => some p
  | p, m :: rest => (p.step limit options m).bind fun next => run limit options next rest

end Pool

/-- What a run returns, if its schedule is possible and leads that far. -/
def extractBy (workers : Int) (options : ExtractOptions) (definitions : List Definition) (schedule : List Move) :
    Option (Except Interruption (List (Option Lineage))) :=
  ((Pool.start definitions).run (workerLimit workers) options schedule).bind (·.outcome)

/-- The schedule in which a worker is done with its definition before the next one is handed out. -/
def inOrder (definitions : Nat) : List Move :=
  (List.range definitions).flatMap (fun i => [.handOut, .work i, .work i, .work i]) ++ [.join, .finish]

end Parallel

end ColumnFlow
