import RelyLoop.Concurrency.InsertTable
import RelyLoop.Studies.StudyState
import RelyLoop.Trials.Workers

/-!
# The baseline trial of a study

The orchestrator enqueues one baseline trial for a study and waits for it; the
worker inserts its row into `trials`; both stamp the study with it, and so does an
orchestrator that resumes the study. Jobs are delivered any number of times, any
process may die between two operations, and the other transitions of the study go
on meanwhile.
-/

namespace RelyLoop.Trials.Baseline

open Concurrency Eval Studies

/-! ## The tables and the queue -/

/-- The rows of the partial unique index `uq_trials_study_baseline_complete`. -/
def isCompleteBaseline (trial : Trial) : Bool := trial.isBaseline && trial.status = .complete

/-- Two rows of `trials` that may not both be present: by the primary key, or by the
partial unique index on the study. -/
def clash (x y : Trial) : Bool :=
  x.id = y.id || (isCompleteBaseline x && isCompleteBaseline y && x.studyId = y.studyId)

/-- The two tables, and the baseline jobs that were enqueued: study and trial. -/
structure BaselineWorld (T : Type) where
  studies : Store T ℕ Study
  trials : InsertTable T Trial
  queue : List (ℕ × ℕ)

/-- The statements of a session, and `arq_pool.enqueue_job`, which may refuse a
duplicate. -/
inductive BaselineOp where
  | study (o : RowOp ℕ Study)
  | findTrials (p : Trial → Bool) (before : Trial → Trial → Bool)
  | insertTrial (row : Trial)
  | enqueue (studyId trialId : ℕ) (accepted : Bool)

/-- The answers. -/
abbrev BaselineOp.Res : BaselineOp → Type
  | study o => o.Res
  | findTrials _ _ => List Trial
  | insertTrial _ => Bool
  | enqueue _ _ _ => Bool

/-- The effect of one operation; a commit or a rollback ends the transaction on both
tables. -/
def execBaseline {T : Type} [DecidableEq T] (t : T) (w : BaselineWorld T) :
    (o : BaselineOp) → Option (BaselineWorld T × o.Res)
  | .study o => (Store.exec t w.studies o).map fun (s, a) =>
    ({ w with studies := s, trials := w.trials.follow t o }, a)
  | .findTrials p before => some (w, w.trials.find t p before)
  | .insertTrial row => (w.trials.insert clash t row).map fun (s, a) => ({ w with trials := s }, a)
  | .enqueue studyId trialId accepted =>
    some (if accepted then { w with queue := w.queue ++ [(studyId, trialId)] } else w, accepted)

/-- The exceptions that the modelled code distinguishes. -/
inductive BaselineError where
  | study (e : StudyError)
  | trial (exc : TrialException)
  | baselineTrialNotFound (trialId : ℕ)
  | invalidBaselineTrialState (trialId : ℕ)
  deriving DecidableEq

/-- `BaselineTrialNotFound` and `InvalidBaselineTrialState`. -/
def BaselineError.ofStamp : BaselineError → Bool
  | baselineTrialNotFound _ => true
  | invalidBaselineTrialState _ => true
  | _ => false

/-- `str(exc)`; the exceptions of a stamp and of the state machine do not reach the
handler that records a text. -/
def BaselineError.text : BaselineError → String
  | study e => e.message
  | trial exc => exc.text
  | baselineTrialNotFound trialId => toString trialId
  | invalidBaselineTrialState trialId => toString trialId

/-- A program with a session on the two tables. -/
abbrev Db := Program BaselineOp BaselineOp.Res BaselineError

/-- A program of a session on `studies`. -/
def onStudies {α : Type} : Transaction ℕ Study StudyError α → Db α
  | .done a => .done a
  | .raise e => .raise (.study e)
  | .call o next => .call (.study o) fun r => onStudies (next r)

/-- `db.commit()`. -/
def commit : Db Unit := Program.perform (BaselineOp.study .commit)

/-- `db.rollback()`. -/
def rollback : Db Unit := Program.perform (BaselineOp.study .rollback)

/-- `async with session_factory() as db`: the session is closed in the end. -/
def inSession {α : Type} (body : Db α) : Db α :=
  tryCatch (do
      let a ← body
      rollback
      return a)
    fun e => do
      rollback
      throw e

/-! ## The repository functions -/

/-- `repo.get_study`. -/
def getStudy (studyId : ℕ) : Db (Option Study) := onStudies (Studies.getStudy studyId)

/-- The first row of a `SELECT … LIMIT 1`; `before` is the order of the scan. -/
def findTrial (p : Trial → Bool) (before : Trial → Trial → Bool) : Db (Option Trial) := do
  let found ← Program.perform (BaselineOp.findTrials p before)
  return found.head?

/-- `repo.get_trial`, and `_existing_terminal_row`: every status of the table is terminal. -/
def getTrial (trialId : ℕ) : Db (Option Trial) :=
  findTrial (fun trial => trial.id = trialId) fun _ _ => true

/-- `_find_terminal_baseline_row`. -/
def findTerminalBaselineRow (studyId : ℕ) (before : Trial → Trial → Bool) : Db (Option Trial) :=
  findTrial (fun trial => trial.studyId = studyId && trial.isBaseline) before

/-- `repo.create_trial`, answered by whether it raises no `IntegrityError`. -/
def createTrial (row : Trial) : Db Bool := Program.perform (BaselineOp.insertTrial row)

/-- Raising an exception that the job meets. -/
def raiseIfAny : Option TrialException → Db Unit
  | none => pure ()
  | some exc => throw (.trial exc)

/-! ## The stamp -/

/-- The columns that a stamp sets. -/
def stamp (trialId : ℕ) (primaryMetric : ℚ) (study : Study) : Study :=
  { study with baselineTrialId := some trialId, baselineMetric := some primaryMetric }

/-- `stamp_baseline_trial`. -/
def stampBaselineTrial (studyId trialId : ℕ) (primaryMetric : ℚ) : Db Bool := do
  match ← getTrial trialId with
  | none => throw (.baselineTrialNotFound trialId)
  | some trial =>
    if trial.studyId ≠ studyId then throw (.invalidBaselineTrialState trialId)
    else if ¬trial.isBaseline then throw (.invalidBaselineTrialState trialId)
    else if trial.status ≠ .complete then throw (.invalidBaselineTrialState trialId)
    else Program.perform (BaselineOp.study (.updateWhere studyId
      (fun study => study.baselineTrialId = none) (stamp trialId primaryMetric)))

/-- A stamp and its caller: `commit`, or `rollback` when the stamp raised. -/
def stampAndCommit (studyId trialId : ℕ) (primaryMetric : ℚ) : Db Unit :=
  tryCatch (do
      let _ ← stampBaselineTrial studyId trialId primaryMetric
      commit)
    fun e => if e.ofStamp then rollback else throw e

/-! ## The worker -/

/-- A delivery of `run_baseline_trial`: what its search and its judgments are, and
the exceptions that it meets when it prepares the search, when it inserts its row,
when it stamps the study, and when it records a failure. -/
structure BaselineRun where
  studyId : ℕ
  trialId : ℕ
  qrels : Qrels
  call : EngineCall
  prepareRaises : Option TrialException := none
  insertRaises : Option TrialException := none
  stampRaises : Option TrialException := none
  recordRaises : Option TrialException := none

/-- The inputs of the trial. -/
def BaselineRun.inputs (run : BaselineRun) (study : Study) : TrialInputs where
  trialId := run.trialId
  studyId := run.studyId
  optunaTrialNumber := -1
  objective := study.objective
  config := study.config
  qrels := run.qrels
  call := run.call

/-- The row of the complete baseline trial. -/
def baselineRow (run : BaselineRun) (study : Study) (primary : ℚ) (scored : ScoreResult) : Trial :=
  { completeRow (run.inputs study) primary scored with isBaseline := true }

/-- The row of a failed baseline trial. -/
def failedBaselineRow (run : BaselineRun) (error : String) : Trial where
  id := run.trialId
  studyId := run.studyId
  optunaTrialNumber := -1
  status := .failed
  error := some (upTo500 error)
  isBaseline := true

/-- The insertion of the complete row, and the worker's own stamp. -/
def insertAndStamp (run : BaselineRun) (study : Study) (primary : ℚ) (scored : ScoreResult) :
    Db Unit :=
  match run.insertRaises with
  | some (.integrity _) => rollback
  | some exc => throw (.trial exc)
  | none => do
    if ← createTrial (baselineRow run study primary scored) then
      commit
      raiseIfAny run.stampRaises
      stampAndCommit run.studyId run.trialId primary
    -- a sibling has written the complete baseline of the study, or this very row
    else rollback

/-- The body of `run_baseline_trial`. -/
def attemptBaseline (ev : Evaluator) (run : BaselineRun) : Db Unit := do
  match ← getTrial run.trialId with
  | some existing =>
    match existing.status, existing.primaryMetric with
    | .complete, some primaryMetric => stampAndCommit run.studyId run.trialId primaryMetric
    | _, _ => return
  | none =>
    match ← getStudy run.studyId with
    | none => return
    | some study => do
      raiseIfAny run.prepareRaises
      match objectiveMetricKey study.objective with
      | .error e => throw (.trial (.other e.text))
      | .ok objectiveKey =>
        match searchAndScore ev (run.inputs study) objectiveKey with
        | .error exc => throw (.trial exc)
        | .ok (primary, scored) => insertAndStamp run study primary scored

/-- The handler of `run_baseline_trial`: an infrastructure failure is raised again,
otherwise the failed row is written. -/
def recordFailure (run : BaselineRun) (e : BaselineError) : Db Unit := do
  rollback
  match e with
  | .trial (.operational _) => throw e
  | e =>
    match run.recordRaises with
    | some (.integrity _) => rollback
    | some exc => throw (.trial exc)
    | none => do
      if ← createTrial (failedBaselineRow run e.text) then commit else rollback

/-- `run_baseline_trial`. -/
def runBaselineTrial (ev : Evaluator) (run : BaselineRun) : Db Unit :=
  inSession (tryCatch (attemptBaseline ev run) (recordFailure run))

/-! ## The orchestrator -/

/-- A run of `_run_baseline_phase`: whether the resolver finds parameters, the id
that it generates, whether the queue accepts the job, how often the orchestrator polls
before its deadline, and the order in which a scan returns the trials. -/
structure PhaseRun where
  studyId : ℕ
  paramsResolved : Bool
  trialId : ℕ
  accepted : Bool
  polls : ℕ
  before : Trial → Trial → Bool

/-- `BaselineEnqueueResult`. -/
inductive BaselineEnqueueResult where
  | skipped
  | enqueued (trialId : ℕ)
  | deduped
  deriving DecidableEq

/-- `float(primary_metric or 0.0)`. -/
def metricOrZero (trial : Trial) : ℚ := trial.primaryMetric.getD 0

/-- The first session of the phase: the stamp of a complete baseline that was not
stamped; whether the phase goes on. -/
def restamp (run : PhaseRun) : Db Bool := do
  match ← getStudy run.studyId with
  | none => return false
  | some study =>
    if study.baselineTrialId.isSome then return false
    else
      match ← findTerminalBaselineRow run.studyId run.before with
      | none => return true
      | some existing =>
        match existing.status with
        | .complete =>
          stampAndCommit run.studyId existing.id (metricOrZero existing)
          return false
        | .failed => return false
        | .pruned => return true

/-- `_resolve_and_enqueue_baseline`; `none` when the study is gone. -/
def resolveAndEnqueueBaseline (run : PhaseRun) : Db (Option BaselineEnqueueResult) := do
  match ← getStudy run.studyId with
  | none => return none
  | some _ =>
    if ¬run.paramsResolved then return some .skipped
    else if ← Program.perform (BaselineOp.enqueue run.studyId run.trialId run.accepted) then
      return some (.enqueued run.trialId)
    else return some .deduped

/-- One poll: the trial, `some none` when the study is not running any more, and
`none` when there is nothing yet. -/
def poll (studyId : ℕ) (find : Db (Option Trial)) : Db (Option (Option Trial)) := do
  match ← find with
  | some trial => return some (some trial)
  | none =>
    match ← getStudy studyId with
    | none => return some none
    | some study => if study.status ≠ .running then return some none else return none

/-- `_wait_for_baseline_trial_by_id` and `_wait_for_baseline_trial_by_study`. -/
def waitForBaselineTrial (studyId : ℕ) (find : Db (Option Trial)) : ℕ → Db (Option Trial)
  | 0 => do
    let found ← inSession (poll studyId find)
    return found.join
  | polls + 1 => do
    match ← inSession (poll studyId find) with
    | some result => return result
    | none => waitForBaselineTrial studyId find polls

/-- The stamp of the trial that was waited for. -/
def stampWaitedFor (studyId : ℕ) : Option Trial → Db Unit
  | none => return
  | some trial =>
    match trial.status with
    | .complete => inSession (stampAndCommit studyId trial.id (metricOrZero trial))
    | _ => return

/-- `_run_baseline_phase`. -/
def runBaselinePhase (run : PhaseRun) : Db Unit := do
  if ← inSession (restamp run) then
    match ← inSession (resolveAndEnqueueBaseline run) with
    | none => return
    | some .skipped => return
    | some (.enqueued trialId) => do
      let trial ← waitForBaselineTrial run.studyId (getTrial trialId) run.polls
      stampWaitedFor run.studyId trial
    | some .deduped => do
      let trial ← waitForBaselineTrial run.studyId
        (findTerminalBaselineRow run.studyId run.before) run.polls
      stampWaitedFor run.studyId trial
  else return

/-- What a process is asked to run: the baseline phase of a start or a resume of a
study, a delivery of the baseline job, or another request on the study. -/
inductive Job where
  | phase (run : PhaseRun)
  | deliver (run : BaselineRun)
  | serve (request : Request)

/-- The code of a job. -/
def Job.code (ev : Evaluator) (recursionLimit : ℕ) : Job → Db Unit
  | phase run => runBaselinePhase run
  | deliver run => runBaselineTrial ev run
  | serve request => inSession (onStudies (Studies.serve recursionLimit request))

/-- A delivery needs an enqueued job. -/
def Job.admitted (queue : List (ℕ × ℕ)) : Job → Bool
  | deliver run => (run.studyId, run.trialId) ∈ queue
  | _ => true

/-- Any number of processes that run these jobs. -/
def baselineSystem (T : Type) [DecidableEq T] (ev : Evaluator) (recursionLimit : ℕ) :
    System T Job (BaselineWorld T) BaselineOp BaselineOp.Res BaselineError where
  code := Job.code ev recursionLimit
  admits w j := j.admitted w.queue
  exec := execBaseline
  reset t w := { w with studies := w.studies.rollback t, trials := w.trials.rollback t }

end RelyLoop.Trials.Baseline
