import RelyLoop.Concurrency.TableBeside
import RelyLoop.Eval.Scoring
import RelyLoop.Studies.ConfigRuns
import RelyLoop.Studies.Records

/-!
# The trial workers

`run_trial` and `run_baseline_trial`: they search with the queries of the study,
score the hits and record a row of the `trials` table. `run_trial` also tells the
optimizer, whose storage shares no transaction with the table. The optimizer is a
third-party package: a trial is told once, and telling it again raises.
-/

namespace RelyLoop.Trials

open Concurrency Eval Studies

/-- `TrialState`, with the value of a finished trial. -/
inductive TrialState where
  | waiting
  | running
  | complete (value : ℚ)
  | fail
  | pruned (value : Option ℚ)
  deriving DecidableEq, Repr

/-- `TrialState.is_finished`. -/
def TrialState.isFinished : TrialState → Bool
  | waiting => false
  | running => false
  | complete _ => true
  | fail => true
  | pruned _ => true

/-- The name of a state in the optimizer's messages. -/
def TrialState.name : TrialState → String
  | waiting => "WAITING"
  | running => "RUNNING"
  | complete _ => "COMPLETE"
  | fail => "FAIL"
  | pruned _ => "PRUNED"

/-- The optimizer's storage: the states of the trials of each study. -/
abbrev Optuna := ℕ → ℤ → TrialState

/-- How the storage fails when it is told a trial: before or after the effect. -/
inductive TellFault where
  | refused (message : String)
  | unacknowledged (message : String)
  deriving DecidableEq, Repr

/-- The calls of the optimizer. A `tell` before `optuna_study` is bound raises. -/
inductive OptunaOp where
  | snapshot (studyId : ℕ) (optunaTrialNumber : ℤ)
  | tell (studyLoaded : Bool) (studyId : ℕ) (optunaTrialNumber : ℤ) (state : TrialState)
      (fault : Option TellFault)
  deriving DecidableEq

/-- The answer of a call; for a `tell` the text of its exception, if any. -/
abbrev OptunaOp.Res : OptunaOp → Type
  | .snapshot _ _ => TrialState
  | .tell _ _ _ _ _ => Option String

/-- The storage in which a trial has another state. -/
def Optuna.update (optuna : Optuna) (studyId : ℕ) (optunaTrialNumber : ℤ) (state : TrialState) :
    Optuna := fun study number =>
  if study = studyId ∧ number = optunaTrialNumber then state else optuna study number

/-- The effect of a call. -/
def execOptuna (optuna : Optuna) : (o : OptunaOp) → Option (Optuna × o.Res)
  | .snapshot studyId optunaTrialNumber => some (optuna, optuna studyId optunaTrialNumber)
  | .tell false _ _ _ _ => some (optuna, some
      "cannot access local variable 'optuna_study' where it is not associated with a value")
  | .tell true studyId optunaTrialNumber state fault =>
    match fault with
    | some (.refused message) => some (optuna, some message)
    | _ =>
      if optuna studyId optunaTrialNumber = .running then
        some (optuna.update studyId optunaTrialNumber state, match fault with
          | some (.unacknowledged message) => some message
          | _ => none)
      else some (optuna, some ("Cannot tell a " ++ (optuna studyId optunaTrialNumber).name ++
        " trial."))

/-- The exceptions that the workers tell apart. -/
inductive TrialException where
  | operational (message : String)
  | integrity (message : String)
  | other (message : String)
  deriving DecidableEq, Repr

/-- `str(exc)`. -/
def TrialException.text : TrialException → String
  | operational message => message
  | integrity message => message
  | other message => message

/-- An exception, with the locals that its handler reads: whether `optuna_study`
is bound, and `tell_succeeded`. -/
structure TrialFailure where
  exc : TrialException
  studyLoaded : Bool := false
  tellSucceeded : Bool := false
  deriving DecidableEq, Repr

/-- A program with a session on `trials` and access to the optimizer. -/
abbrev Db := Program (BesideOp ℕ Trial OptunaOp) (BesideOp.Res OptunaOp.Res) TrialFailure

/-- A statement of the session. -/
def statement (o : RowOp ℕ Trial) : Db o.Res := Program.perform (BesideOp.row o)

/-- What a trial is run on. -/
structure TrialInputs where
  trialId : ℕ
  studyId : ℕ
  optunaTrialNumber : ℤ
  objective : Objective
  config : StudyConfig
  qrels : Qrels
  call : EngineCall

/-- The exceptions that a delivery meets besides those of the search: when it
loads the study, the optimizer's study, the trial's snapshot, or the cluster,
template, queries and judgments, when it tells the optimizer, and when it writes
its row. -/
structure TrialFaults where
  studyMissing : Bool := false
  studyRaises : Option TrialException := none
  loadRaises : Option TrialException := none
  snapshotRaises : Option TrialException := none
  prepareRaises : Option TrialException := none
  tellFault : Option TellFault := none
  tellFailFault : Option TellFault := none
  insertRaises : Option TrialException := none
  recordRaises : Option TrialException := none

/-- A delivery of a job. -/
structure Delivery where
  inputs : TrialInputs
  faults : TrialFaults := {}

/-! ## Search and score -/

/-- `run_dict`. -/
def runDict (hits : Python.Dict String (List ScoredHit)) : Run :=
  hits.mapValues fun hitList => Python.Dict.ofList (hitList.map fun hit => (hit.docId, hit.score))

/-- The search of a trial, and the primary metric of its scores. -/
def searchAndScore (ev : Evaluator) (inputs : TrialInputs) (objectiveKey : String) :
    Except TrialException (ℚ × ScoreResult) :=
  match inputs.call.searchBatch false with
  | .error e => .error (.other e.text)
  | .ok hits =>
    match score ev inputs.qrels (runDict hits)
        (ev.setOrder (metricsSet objectiveKey inputs.config)) with
    | .error e => .error (.other e.text)
    | .ok scored =>
      match scored.aggregate.get? objectiveKey with
      | none => .error (.other (quoted objectiveKey))
      | some primary => .ok (primary, scored)

/-- The row of a complete trial. -/
def completeRow (inputs : TrialInputs) (primary : ℚ) (scored : ScoreResult) : Trial where
  id := inputs.trialId
  studyId := inputs.studyId
  optunaTrialNumber := inputs.optunaTrialNumber
  status := .complete
  primaryMetric := some primary
  metrics := scored.aggregate.entries
  perQueryMetrics := some (scored.perQuery.entries.map fun entry => (entry.1, entry.2.entries))

/-- The row of a failed trial. -/
def failedRow (inputs : TrialInputs) (exc : TrialException) : Trial where
  id := inputs.trialId
  studyId := inputs.studyId
  optunaTrialNumber := inputs.optunaTrialNumber
  status := .failed
  error := some (upTo500 exc.text)

/-- The row that `_reconstruct_from_optuna` builds from a finished trial. -/
def reconstructedRow (inputs : TrialInputs) (objectiveKey : String) : TrialState → Option Trial
  | .complete value => some
    { id := inputs.trialId
      studyId := inputs.studyId
      optunaTrialNumber := inputs.optunaTrialNumber
      status := .complete
      primaryMetric := some value
      metrics := [(objectiveKey, value)] }
  | .fail => some
    { id := inputs.trialId
      studyId := inputs.studyId
      optunaTrialNumber := inputs.optunaTrialNumber
      status := .failed
      error := some "reconstructed from Optuna FAIL state; original exception unavailable" }
  | .pruned value => some
    { id := inputs.trialId
      studyId := inputs.studyId
      optunaTrialNumber := inputs.optunaTrialNumber
      status := .pruned
      primaryMetric := value }
  | _ => none

/-! ## `run_trial` -/

/-- Raising an exception that the delivery meets. -/
def raiseIfAny (exc : Option TrialException) (studyLoaded tellSucceeded : Bool) : Db Unit :=
  match exc with
  | none => pure ()
  | some exc => throw { exc, studyLoaded, tellSucceeded }

/-- `_existing_terminal_app_row`: every status of the table is terminal. -/
def existingTerminalAppRow (studyId : ℕ) (optunaTrialNumber : ℤ) : Db (Option Trial) := do
  let found ← statement (.selectWhere
    (fun _ row => row.studyId = studyId ∧ row.optunaTrialNumber = optunaTrialNumber)
    fun _ _ => true)
  return found.head?.map Prod.snd

/-- `_snapshot_optuna_trial`. -/
def snapshotOptunaTrial (studyId : ℕ) (optunaTrialNumber : ℤ) : Db TrialState :=
  Program.perform (BesideOp.outside (OptunaOp.snapshot studyId optunaTrialNumber))

/-- `optuna_study.tell`; the answer is the text of its exception, if any. -/
def tell (inputs : TrialInputs) (studyLoaded : Bool) (state : TrialState)
    (fault : Option TellFault) : Db (Option String) :=
  Program.perform (BesideOp.outside
    (OptunaOp.tell studyLoaded inputs.studyId inputs.optunaTrialNumber state fault))

/-- `repo.create_trial` and the commit. -/
def createTrial (row : Trial) : Db Unit := do
  statement (.insert row.id row)
  statement .commit

/-- `_reconstruct_from_optuna`. -/
def reconstructFromOptuna (delivery : Delivery) (objectiveKey : String) (state : TrialState) :
    Db Unit :=
  match reconstructedRow delivery.inputs objectiveKey state with
  | none => throw
      { exc := .other ("unexpected non-terminal Optuna state " ++ state.name)
        studyLoaded := true }
  | some row => do
    raiseIfAny delivery.faults.insertRaises true false
    createTrial row

/-- The happy path of `run_trial`, from the load of the cluster on. -/
def executeTrial (ev : Evaluator) (delivery : Delivery) (objectiveKey : String) : Db Unit := do
  raiseIfAny delivery.faults.prepareRaises true false
  match searchAndScore ev delivery.inputs objectiveKey with
  | .error exc => throw { exc, studyLoaded := true }
  | .ok (primary, scored) =>
    match ← tell delivery.inputs true (.complete primary) delivery.faults.tellFault with
    | some message => throw { exc := .other message, studyLoaded := true }
    | none => do
      raiseIfAny delivery.faults.insertRaises true true
      createTrial (completeRow delivery.inputs primary scored)

/-- The body of `run_trial`. -/
def attemptTrial (ev : Evaluator) (delivery : Delivery) : Db Unit := do
  raiseIfAny delivery.faults.studyRaises false false
  if delivery.faults.studyMissing then return
  else
    match ← existingTerminalAppRow delivery.inputs.studyId delivery.inputs.optunaTrialNumber with
    | some _ => return
    | none => do
      raiseIfAny delivery.faults.loadRaises false false
      match objectiveMetricKey delivery.inputs.objective with
      | .error e => throw { exc := .other e.text, studyLoaded := true }
      | .ok objectiveKey => do
        raiseIfAny delivery.faults.snapshotRaises true false
        let state ← snapshotOptunaTrial delivery.inputs.studyId delivery.inputs.optunaTrialNumber
        if state.isFinished then reconstructFromOptuna delivery objectiveKey state
        else executeTrial ev delivery objectiveKey

/-- The handler of `run_trial`: an infrastructure failure and a failure after the
`tell` are raised again; otherwise the optimizer is told, whatever comes of it,
and the failed row is written. -/
def recordFailure (delivery : Delivery) (failure : TrialFailure) : Db Unit := do
  statement .rollback
  match failure.exc with
  | .operational _ => throw failure
  | exc =>
    if failure.tellSucceeded then throw failure
    else do
      let _ ← tell delivery.inputs failure.studyLoaded .fail delivery.faults.tellFailFault
      raiseIfAny delivery.faults.recordRaises failure.studyLoaded false
      createTrial (failedRow delivery.inputs exc)

/-- `run_trial`. -/
def runTrial (ev : Evaluator) (delivery : Delivery) : Db Unit :=
  inSession (tryCatch (attemptTrial ev delivery) (recordFailure delivery))

/-! ## `run_baseline_trial` -/

/-- The inputs of a baseline trial, which has no number in the optimizer. -/
def TrialInputs.baseline (inputs : TrialInputs) : TrialInputs :=
  { inputs with optunaTrialNumber := -1 }

/-- `_existing_terminal_row`. -/
def existingTerminalRow (trialId : ℕ) : Db (Option Trial) := do
  let found ← statement (.selectWhere (fun key _ => key = trialId) fun _ _ => true)
  return found.head?.map Prod.snd

/-- The body of `run_baseline_trial`; its stamp of the study is left out. -/
def attemptBaseline (ev : Evaluator) (delivery : Delivery) : Db Unit := do
  match ← existingTerminalRow delivery.inputs.trialId with
  | some _ => return
  | none => do
    raiseIfAny delivery.faults.studyRaises false false
    if delivery.faults.studyMissing then return
    else do
      raiseIfAny delivery.faults.prepareRaises false false
      match objectiveMetricKey delivery.inputs.objective with
      | .error e => throw { exc := .other e.text }
      | .ok objectiveKey =>
        match searchAndScore ev delivery.inputs objectiveKey with
        | .error exc => throw { exc }
        | .ok (primary, scored) =>
          match delivery.faults.insertRaises with
          -- a sibling has written the complete baseline of the study
          | some (.integrity _) => statement .rollback
          | some exc => throw { exc }
          | none =>
            createTrial
              { completeRow delivery.inputs.baseline primary scored with isBaseline := true }

/-- The handler of `run_baseline_trial`. -/
def recordBaselineFailure (delivery : Delivery) (failure : TrialFailure) : Db Unit := do
  statement .rollback
  match failure.exc with
  | .operational _ => throw failure
  | exc =>
    match delivery.faults.recordRaises with
    | some (.integrity _) => statement .rollback
    | some exc => throw { exc }
    | none =>
      createTrial { failedRow delivery.inputs.baseline exc with isBaseline := true }

/-- `run_baseline_trial`. -/
def runBaselineTrial (ev : Evaluator) (delivery : Delivery) : Db Unit :=
  inSession (tryCatch (attemptBaseline ev delivery) (recordBaselineFailure delivery))

/-- Any number of processes that run trials. -/
def trialSystem (T : Type) [DecidableEq T] (ev : Evaluator) :
    System T Delivery (Beside T ℕ Trial Optuna) (BesideOp ℕ Trial OptunaOp)
      (BesideOp.Res OptunaOp.Res) TrialFailure :=
  besideSystem (runTrial ev) (fun _ _ => true) execOptuna

end RelyLoop.Trials
