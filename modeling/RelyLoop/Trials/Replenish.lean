import RelyLoop.Concurrency.RowVersions
import RelyLoop.Trials.Workers

/-!
# The orchestrator's ticks

A tick of `start_study` checks the stop conditions of its study and tops up the
trials in flight, under an advisory lock of its session. The optimizer's storage, the
queue and the table share no transaction. Any number of orchestrators and workers
run at once, and any process may die between two operations.
-/

namespace RelyLoop.Trials.Replenish

open Concurrency Studies

/-! ## The world -/

/-- The configuration of the study: its id, `max_trials`, and the effective parallelism. -/
structure ReplenishConfig where
  studyId : ℕ
  maxTrials : Option ℕ
  parallelism : ℕ
  deriving DecidableEq, Repr

/-- The study, its trials and their jobs. -/
structure ReplenishWorld (T : Type) where
  status : StudyStatus
  /-- The `trials` table, and the states of the optimizer's trials. -/
  records : Beside T ℕ Trial Optuna
  /-- How many trials the optimizer has allocated for the study. -/
  allocated : ℕ
  /-- The trials with a `run_trial` job, queued or executing. -/
  queue : List ℕ
  /-- The owner of the advisory lock. -/
  lock : Option T
  /-- The trial that a process has asked for and not enqueued yet. -/
  asked : T → Option ℕ
  /-- The history of the losses: the trials whose process ended between `ask` and
  `enqueue_job`, and those whose job ended with an exception. -/
  lost : List ℕ

/-- The operations of an orchestrator and of a worker. -/
inductive ReplenishOp where
  /-- An operation of `run_trial`. -/
  | trial (o : BesideOp ℕ Trial OptunaOp)
  /-- `repo.get_study`: its status. -/
  | getStatus
  /-- A query of the rows of the table. -/
  | trialRows
  /-- A transition from `running`, with its commit; whether it was legal. -/
  | endStudy (target : StudyStatus)
  /-- `pg_try_advisory_xact_lock`. -/
  | tryLock
  /-- `optuna_study.trials`: their states. -/
  | optunaStates
  /-- `optuna_study.ask`; nobody enqueues trials in the optimizer. -/
  | ask
  /-- `arq_pool.enqueue_job`. -/
  | enqueueJob (number : ℕ)
  | commit
  | rollback
  /-- The queue drops a job that has ended. -/
  | finish (number : ℕ) (raised : Bool)

/-- The answers. -/
abbrev ReplenishOp.Res : ReplenishOp → Type
  | trial o => o.Res OptunaOp.Res
  | getStatus => StudyStatus
  | trialRows => List Trial
  | endStudy _ => Bool
  | tryLock => Bool
  | optunaStates => List TrialState
  | ask => ℕ
  | _ => Unit

variable {T : Type} [DecidableEq T]

/-- The states of the allocated trials. -/
def ReplenishWorld.states (cfg : ReplenishConfig) (w : ReplenishWorld T) : List TrialState :=
  (List.range w.allocated).map fun number : ℕ => w.records.outside cfg.studyId number

/-- The committed rows. -/
def ReplenishWorld.rows (w : ReplenishWorld T) : List Trial :=
  w.records.table.keys.filterMap w.records.table.committed

/-- The effect of an operation of `run_trial`. -/
def execTrial (t : T) (w : Beside T ℕ Trial Optuna) :
    (o : BesideOp ℕ Trial OptunaOp) → Option (Beside T ℕ Trial Optuna × o.Res OptunaOp.Res)
  | .row o => (Store.exec t w.table o).map fun (s, a) => (⟨s, w.outside⟩, a)
  | .outside o => (execOptuna w.outside o).map fun (x, a) => (⟨w.table, x⟩, a)

/-- Giving up the advisory lock. -/
def ReplenishWorld.unlock (w : ReplenishWorld T) (t : T) : ReplenishWorld T :=
  if w.lock = some t then { w with lock := none } else w

/-- The effect of one operation. -/
def execReplenish (cfg : ReplenishConfig) (t : T) (w : ReplenishWorld T) :
    (o : ReplenishOp) → Option (ReplenishWorld T × o.Res)
  | .trial o => (execTrial t w.records o).map fun (records, a) => ({ w with records }, a)
  | .getStatus => some (w, w.status)
  | .trialRows => some (w, w.rows)
  | .endStudy target =>
    if w.status = .running then some ({ w with status := target }, true) else some (w, false)
  | .tryLock =>
    match w.lock with
    | none => some ({ w with lock := some t }, true)
    | some owner => some (w, owner = t)
  | .optunaStates => some (w, w.states cfg)
  | .ask => some
    ({ w with
        records := ⟨w.records.table, w.records.outside.update cfg.studyId w.allocated .running⟩
        allocated := w.allocated + 1
        asked := Function.update w.asked t (some w.allocated)
        lost := w.lost ++ (w.asked t).toList }, w.allocated)
  | .enqueueJob number => some
    ({ w with
        queue := w.queue ++ [number]
        asked := if w.asked t = some number then Function.update w.asked t none else w.asked }, ())
  | .commit => some (w.unlock t, ())
  | .rollback => some (w.unlock t, ())
  | .finish number raised => some
    ({ w with
        queue := w.queue.filter fun other => other ≠ number
        lost := if raised then w.lost ++ [number] else w.lost }, ())

/-- The end of a process, by return, exception or death. -/
def resetReplenish (t : T) (w : ReplenishWorld T) : ReplenishWorld T :=
  { w.unlock t with
    records := ⟨w.records.table.rollback t, w.records.outside⟩
    asked := Function.update w.asked t none
    lost := w.lost ++ (w.asked t).toList }

/-! ## The tick -/

/-- What a top-up may raise between two trials. -/
inductive TickFault where
  | ask
  | applySearchSpace
  | enqueueJob
  deriving DecidableEq, Repr

/-- The exceptions. -/
inductive ReplenishError where
  | trial (failure : TrialFailure)
  | tick (fault : TickFault)
  deriving DecidableEq

/-- A program of an orchestrator or a worker. -/
abbrev Db := Program ReplenishOp ReplenishOp.Res ReplenishError

/-- A tick: whether the time budget is exceeded, and what the rounds of its top-up raise. -/
structure TickRun where
  budgetExceeded : Bool := false
  fault : ℕ → Option TickFault := fun _ => none

/-- The most recent `n` rows, by the numbers of their trials. -/
def lastRows (rows : List Trial) (studyId n : ℕ) : List Trial :=
  ((optunaTrials rows studyId).insertionSort fun x y =>
    y.optunaTrialNumber ≤ x.optunaTrialNumber).take n

/-- `_last_n_all_failed`. -/
def lastNAllFailed (rows : List Trial) (studyId n : ℕ) : Bool :=
  let recent := lastRows rows studyId n
  if recent.length < n then false else recent.all fun row => row.status = .failed

/-- `_last_n_all_zero`. -/
def lastNAllZero (rows : List Trial) (studyId n : ℕ) : Bool :=
  let recent := lastRows rows studyId n
  if recent.length < n then false
  else recent.all fun row => row.status = .complete && row.primaryMetric = some 0

/-- `_CONSECUTIVE_FAILURE_THRESHOLD`. -/
def consecutiveFailureThreshold : ℕ := 5

/-- `_ZERO_STREAK_THRESHOLD`. -/
def zeroStreakThreshold : ℕ := 20

/-- The terminal trials of a summary. -/
def terminalCount (rows : List Trial) (studyId : ℕ) : ℕ :=
  let summary := aggregateTrialsSummary rows studyId
  summary.complete + summary.failed + summary.pruned

/-- `max_trials is not None and terminal >= max_trials`. -/
def maxTrialsReached (cfg : ReplenishConfig) (rows : List Trial) : Bool :=
  cfg.maxTrials.any fun maxTrials => maxTrials ≤ terminalCount rows cfg.studyId

/-- The rows of the table. -/
def trialRows : Db (List Trial) := Program.perform ReplenishOp.trialRows

/-- `fail_study` or `_stop`, which tolerate a lost race. -/
def endStudy (target : StudyStatus) : Db Unit :=
  discard (Program.perform (ReplenishOp.endStudy target))

/-- The stop conditions of a tick; whether it goes on. -/
def stopConditions (cfg : ReplenishConfig) (run : TickRun) : Db Bool := do
  let current ← Program.perform ReplenishOp.getStatus
  if current ≠ .running then return false
  else
    let summarized ← trialRows
    if lastNAllFailed (← trialRows) cfg.studyId consecutiveFailureThreshold then
      endStudy .failed
      return false
    else if lastNAllZero (← trialRows) cfg.studyId zeroStreakThreshold then
      endStudy .failed
      return false
    else if maxTrialsReached cfg summarized then
      endStudy .completed
      return false
    else if run.budgetExceeded then
      endStudy .completed
      return false
    else return true

/-- `optuna_study.trials`. -/
def optunaStates : Db (List TrialState) := Program.perform ReplenishOp.optunaStates

/-- `_count_in_flight`. -/
def countInFlight : Db ℕ := do
  let running := (← optunaStates).countP fun state => state = .running
  let waiting := (← optunaStates).countP fun state => state = .waiting
  return running + waiting

/-- `slots_open`, and the length of its `range`. -/
def openSlots (cfg : ReplenishConfig) (inFlight totalAllocated : ℕ) : ℕ :=
  let slotsOpen : ℤ := cfg.parallelism - inFlight
  match cfg.maxTrials with
  | some maxTrials => (min slotsOpen (maxTrials - totalAllocated)).toNat
  | none => slotsOpen.toNat

/-- Raising an exception. -/
def raiseFault (fault : TickFault) : Db Unit := throw (.tick fault)

/-- A round of the top-up. -/
def topUp (run : TickRun) (round : ℕ) : Db Unit :=
  match run.fault round with
  | some .ask => raiseFault .ask
  | fault => do
    let number ← Program.perform ReplenishOp.ask
    match fault with
    | some fault => raiseFault fault
    | none => Program.perform (ReplenishOp.enqueueJob number)

/-- The top-up under the advisory lock. -/
def replenishUnderLock (cfg : ReplenishConfig) (run : TickRun) : Db Unit := do
  if ← Program.perform ReplenishOp.tryLock then
    let inFlight ← countInFlight
    let totalAllocated := (← optunaStates).length
    Program.each (topUp run) (List.range (openSlots cfg inFlight totalAllocated))
    Program.perform ReplenishOp.commit
  else return

/-- The block `async with session_factory() as db` of the top-up. -/
def replenish (cfg : ReplenishConfig) (run : TickRun) : Db Unit :=
  tryCatch (do
      replenishUnderLock cfg run
      Program.perform ReplenishOp.rollback)
    fun e => do
      Program.perform ReplenishOp.rollback
      throw e

/-- One tick of the polling loop. -/
def tick (cfg : ReplenishConfig) (run : TickRun) : Db Unit := do
  if ← stopConditions cfg run then replenish cfg run else return

/-! ## The jobs -/

/-- A program of `run_trial`. -/
def ofTrial {α : Type} : Trials.Db α → Db α
  | .done a => .done a
  | .raise e => .raise (.trial e)
  | .call o next => .call (.trial o) fun r => ofTrial (next r)

/-- An execution of a `run_trial` job: the queue drops the job when it returns, and also
when it raises. -/
def deliver (ev : Eval.Evaluator) (delivery : Delivery) : Db Unit :=
  tryCatch (do
      ofTrial (runTrial ev delivery)
      Program.perform (ReplenishOp.finish delivery.inputs.optunaTrialNumber.toNat false))
    fun e => do
      Program.perform (ReplenishOp.finish delivery.inputs.optunaTrialNumber.toNat true)
      throw e

/-- What a process does next: a tick of an orchestrator, the execution of a job, or the
cancellation of the study; the queue may also give up a job after too many tries. -/
inductive Job where
  | tick (run : TickRun)
  | deliver (delivery : Delivery)
  | giveUp (number : ℕ)
  | cancel

/-- The code of a job. -/
def Job.code (cfg : ReplenishConfig) (ev : Eval.Evaluator) : Job → Db Unit
  | tick run => Replenish.tick cfg run
  | deliver delivery => Replenish.deliver ev delivery
  | giveUp number => Program.perform (ReplenishOp.finish number true)
  | cancel => endStudy .cancelled

/-- A delivery needs a job of the queue, and finds its study. -/
def Job.admitted (cfg : ReplenishConfig) (queue : List ℕ) : Job → Bool
  | deliver delivery =>
    delivery.inputs.studyId = cfg.studyId && 0 ≤ delivery.inputs.optunaTrialNumber &&
      delivery.inputs.optunaTrialNumber.toNat ∈ queue && !delivery.faults.studyMissing
  | giveUp number => number ∈ queue
  | _ => true

/-- Any number of orchestrators and workers. -/
def replenishSystem (T : Type) [DecidableEq T] (cfg : ReplenishConfig) (ev : Eval.Evaluator) :
    System T Job (ReplenishWorld T) ReplenishOp ReplenishOp.Res ReplenishError where
  code := Job.code cfg ev
  admits w j := j.admitted cfg w.queue
  exec := execReplenish cfg
  reset := resetReplenish

end RelyLoop.Trials.Replenish
