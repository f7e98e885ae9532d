import RelyLoop.Concurrency.TableBeside

/-!
# The judgment workers

The lifecycle of a judgment list: the API inserts it and enqueues a worker, the
sweep at worker boot and the periodic resume tick enqueue workers again, and two
workers, for LLM lists and for UBI lists, bring it to a terminal status. The
workers' use of the engine and of the model is represented by how it ends; the
judgment rows are kept in another table.
-/

namespace RelyLoop.Judgments

open Concurrency

/-- `judgment_lists.status`. -/
inductive JudgmentListStatus where
  | generating
  | complete
  | failed
  deriving DecidableEq, Repr

/-- `generation_params["generation_kind"]`: `ubi`, or anything else. -/
inductive GenerationKind where
  | ubi
  | other
  deriving DecidableEq, Repr

/-- The part of `generation_params` that routing looks at. -/
structure GenerationParams where
  generationKind : GenerationKind
  deriving DecidableEq, Repr

/-- A row of the `judgment_lists` table. -/
structure JudgmentList where
  status : JudgmentListStatus
  failedReason : Option String := none
  calibration : Option String := none
  generationParams : Option GenerationParams := none
  deriving DecidableEq, Repr

/-- The two worker functions. -/
inductive Worker where
  | generateJudgmentsLlm
  | generateJudgmentsFromUbi
  deriving DecidableEq, Repr

/-- Who enqueues a worker. -/
inductive Caller where
  | dispatch
  | onStartup
  | resumeTick
  deriving DecidableEq, Repr

/-- The jobs that were enqueued: each may be delivered any number of times. -/
abbrev Queue := List (Worker × ℕ)

/-- `arq_pool.enqueue_job`. -/
inductive QueueOp where
  | enqueue (caller : Caller) (worker : Worker) (judgmentListId : ℕ)
  deriving DecidableEq

/-- The effect of `enqueue_job`. -/
def execQueue (queue : Queue) : QueueOp → Option (Queue × Unit)
  | .enqueue _ worker judgmentListId => some (queue ++ [(worker, judgmentListId)], ())

/-- The exceptions that the modelled code distinguishes. -/
inductive JudgmentError where
  | lookupError (judgmentListId : ℕ)
  | nameTaken
  | other (typeName : String)
  deriving DecidableEq

/-- `type(exc).__name__`. -/
def JudgmentError.typeName : JudgmentError → String
  | lookupError _ => "LookupError"
  | nameTaken => "HTTPException"
  | other typeName => typeName

/-- A program with a session on `judgment_lists` and access to the queue. -/
abbrev Db :=
  Program (BesideOp ℕ JudgmentList QueueOp) (BesideOp.Res fun _ => Unit) JudgmentError

/-- A statement of the session. -/
def statement (o : RowOp ℕ JudgmentList) : Db o.Res := Program.perform (BesideOp.row o)

/-- `db.commit()`. -/
def commit : Db Unit := statement .commit

/-- `arq_pool.enqueue_job`. -/
def enqueueJob (caller : Caller) (worker : Worker) (judgmentListId : ℕ) : Db Unit :=
  Program.perform (BesideOp.outside (.enqueue caller worker judgmentListId))

/-! ## The repository functions -/

/-- `get_judgment_list`. -/
def getJudgmentList (judgmentListId : ℕ) : Db (Option JudgmentList) :=
  statement (.select judgmentListId)

/-- `db.flush()` after attributes were set: the columns whose loaded value changes
are written, and nothing is written when there are none. -/
def flush (judgmentListId : ℕ) (loaded : JudgmentList)
    (change : JudgmentList → JudgmentList → JudgmentList) : Db Unit :=
  if change loaded loaded = loaded then pure ()
  else statement (.update judgmentListId (change loaded))

/-- The assignments of `update_judgment_list_status`. -/
def setStatus (status : JudgmentListStatus) (failedReason : Option String)
    (loaded row : JudgmentList) : JudgmentList :=
  { row with
    status := if loaded.status = status then row.status else status
    failedReason :=
      if failedReason = none ∨ loaded.failedReason = failedReason then row.failedReason
      else failedReason }

/-- The assignment of `update_judgment_list_calibration`. -/
def setCalibration (calibration : String) (loaded row : JudgmentList) : JudgmentList :=
  { row with
    calibration :=
      if loaded.calibration = some calibration then row.calibration else some calibration }

/-- The common part of the two updates: read the list, change it, flush. -/
def updateJudgmentList (judgmentListId : ℕ)
    (change : JudgmentList → JudgmentList → JudgmentList) : Db Unit := do
  match ← getJudgmentList judgmentListId with
  | none => throw (.lookupError judgmentListId)
  | some loaded => flush judgmentListId loaded change

/-- `update_judgment_list_status`. -/
def updateJudgmentListStatus (judgmentListId : ℕ) (status : JudgmentListStatus)
    (failedReason : Option String) : Db Unit :=
  updateJudgmentList judgmentListId (setStatus status failedReason)

/-- `update_judgment_list_calibration`. -/
def updateJudgmentListCalibration (judgmentListId : ℕ) (calibration : String) : Db Unit :=
  updateJudgmentList judgmentListId (setCalibration calibration)

/-- `list_generating_judgment_list_ids`; `before` is the order of the answer. -/
def listGeneratingJudgmentListIds (before : ℕ × JudgmentList → ℕ × JudgmentList → Bool) :
    Db (List ℕ) := do
  let found ← statement (.selectWhere (fun _ row => row.status = .generating) before)
  return found.map Prod.fst

/-- `fail_judgment_list`. -/
def failJudgmentList (judgmentListId : ℕ) (failedReason : String) : Db Unit := do
  updateJudgmentListStatus judgmentListId .failed (some failedReason)
  commit

/-- The update to `complete`, and its commit. -/
def completeJudgmentList (judgmentListId : ℕ) : Db Unit := do
  updateJudgmentListStatus judgmentListId .complete none
  commit

/-- `_write_calibration_and_complete`. -/
def writeCalibrationAndComplete (judgmentListId : ℕ) (calibration : String) : Db Unit := do
  updateJudgmentListCalibration judgmentListId calibration
  completeJudgmentList judgmentListId

/-! ## The LLM worker -/

/-- How the processing of one query ends. -/
inductive QueryOutcome where
  | rated
  | skipped
  | budgetExceeded
  | unknownModelPricing
  | raises (typeName : String)
  deriving DecidableEq

/-- What a run of the LLM worker meets outside the list's row. -/
structure LlmRun where
  entryRaises : Option String := none
  clusterFound : Bool := true
  templateFound : Bool := true
  apiKeySet : Bool := true
  pricingKnown : Bool := true
  setupRaises : Option String := none
  queries : List QueryOutcome := []

/-- Raising an exception that the run meets. -/
def raiseIfAny : Option String → Db Unit
  | none => pure ()
  | some typeName => throw (.other typeName)

/-- The first session of the LLM worker; whether the run goes on. -/
def llmEntry (judgmentListId : ℕ) (run : LlmRun) : Db Bool := do
  raiseIfAny run.entryRaises
  match ← getJudgmentList judgmentListId with
  | none => return false
  | some judgmentList =>
    if judgmentList.status ≠ .generating then return false
    else if ¬run.clusterFound then do
      failJudgmentList judgmentListId "CLUSTER_NOT_FOUND"
      return false
    else if ¬run.templateFound then do
      failJudgmentList judgmentListId "TEMPLATE_NOT_FOUND"
      return false
    else if run.queries = [] then do
      completeJudgmentList judgmentListId
      return false
    else return true

/-- The end of the query loop: the reason of an abort, or the number of skipped queries. -/
def judgeQueries (skipped : ℕ) : List QueryOutcome → Except JudgmentError (String ⊕ ℕ)
  | [] => .ok (.inr skipped)
  | .rated :: queries => judgeQueries skipped queries
  | .skipped :: queries => judgeQueries (skipped + 1) queries
  | .budgetExceeded :: _ => .ok (.inl "OPENAI_BUDGET_EXCEEDED")
  | .unknownModelPricing :: _ => .ok (.inl "UNKNOWN_MODEL_PRICING")
  | .raises typeName :: _ => .error (.other typeName)

/-- The LLM worker after its first session. -/
def llmJudge (judgmentListId : ℕ) (run : LlmRun) : Db Unit :=
  if ¬run.apiKeySet then inSession (failJudgmentList judgmentListId "OPENAI_NOT_CONFIGURED")
  else if ¬run.pricingKnown then
    inSession (failJudgmentList judgmentListId "UNKNOWN_MODEL_PRICING")
  else do
    raiseIfAny run.setupRaises
    match judgeQueries 0 run.queries with
    | .error e => throw e
    | .ok (.inl reason) => inSession (failJudgmentList judgmentListId reason)
    | .ok (.inr skipped) =>
      if skipped = 0 then inSession (completeJudgmentList judgmentListId)
      else inSession (failJudgmentList judgmentListId
        ("PARTIAL_LLM_FAILURE: " ++ toString skipped ++ " queries unrated"))

/-- The handler of an exception in a worker: the list is marked as failed. -/
def recordUnexpected (judgmentListId : ℕ) (e : JudgmentError) : Db Unit :=
  tryCatch (inSession (failJudgmentList judgmentListId ("UNEXPECTED:" ++ e.typeName)))
    fun _ => pure ()

/-- `generate_judgments_llm`. -/
def generateJudgmentsLlm (judgmentListId : ℕ) (run : LlmRun) : Db Unit :=
  tryCatch (do
      if ← inSession (llmEntry judgmentListId run) then llmJudge judgmentListId run
      else pure ())
    (recordUnexpected judgmentListId)

/-! ## The UBI worker -/

/-- How reading and converting the features ends. -/
inductive UbiOutcome where
  | notEnabled
  | noFeatures
  | noScopedFeatures
  | budgetExceeded
  | unknownModelPricing
  | raises (typeName : String)
  | rated
  deriving DecidableEq

/-- What a run of the UBI worker meets outside the list's row. -/
structure UbiRun where
  entryRaises : Option String := none
  clusterFound : Bool := true
  outcome : UbiOutcome := .rated
  calibration : String := ""

/-- The first session of the UBI worker; whether the run goes on. -/
def ubiEntry (judgmentListId : ℕ) (run : UbiRun) : Db Bool := do
  raiseIfAny run.entryRaises
  match ← getJudgmentList judgmentListId with
  | none => return false
  | some judgmentList =>
    if judgmentList.status ≠ .generating then return false
    else if judgmentList.generationParams.all fun params => params.generationKind ≠ .ubi then do
      failJudgmentList judgmentListId "MISSING_GENERATION_PARAMS"
      return false
    else if ¬run.clusterFound then do
      failJudgmentList judgmentListId "CLUSTER_NOT_FOUND"
      return false
    else return true

/-- The UBI worker after its first session. -/
def ubiJudge (judgmentListId : ℕ) (run : UbiRun) : Db Unit :=
  match run.outcome with
  | .notEnabled => inSession (failJudgmentList judgmentListId "UBI_NOT_ENABLED")
  | .noFeatures => inSession (failJudgmentList judgmentListId "UBI_INSUFFICIENT_DATA")
  | .noScopedFeatures => inSession (writeCalibrationAndComplete judgmentListId run.calibration)
  | .budgetExceeded => inSession (failJudgmentList judgmentListId "OPENAI_BUDGET_EXCEEDED")
  | .unknownModelPricing => inSession (failJudgmentList judgmentListId "UNKNOWN_MODEL_PRICING")
  | .raises typeName => throw (.other typeName)
  | .rated => inSession do
      -- the commit of the judgment rows
      commit
      writeCalibrationAndComplete judgmentListId run.calibration

/-- `generate_judgments_from_ubi`. -/
def generateJudgmentsFromUbi (judgmentListId : ℕ) (run : UbiRun) : Db Unit :=
  tryCatch (do
      if ← inSession (ubiEntry judgmentListId run) then ubiJudge judgmentListId run
      else pure ())
    (recordUnexpected judgmentListId)

/-! ## Who enqueues the workers -/

/-- `_insert_generating_list_and_enqueue`: the name may be taken, and the pool
may be absent or raise. -/
def insertGeneratingListAndEnqueue (judgmentListId : ℕ)
    (generationParams : Option GenerationParams) (worker : Worker) (nameTaken enqueued : Bool) :
    Db Unit :=
  if nameTaken then do
    statement .rollback
    throw .nameTaken
  else do
    statement (.insert judgmentListId
      { status := .generating, generationParams := generationParams })
    commit
    if enqueued then enqueueJob .dispatch worker judgmentListId else pure ()

/-- `start_judgment_generation`, after its checks. -/
def startJudgmentGeneration (judgmentListId : ℕ) (nameTaken enqueued : Bool) : Db Unit :=
  insertGeneratingListAndEnqueue judgmentListId none .generateJudgmentsLlm nameTaken enqueued

/-- `start_ubi_judgment_generation`, after its checks. -/
def startUbiJudgmentGeneration (judgmentListId : ℕ) (nameTaken enqueued : Bool) : Db Unit :=
  insertGeneratingListAndEnqueue judgmentListId (some { generationKind := .ubi })
    .generateJudgmentsFromUbi nameTaken enqueued

/-- `ubi_resume_ids`: the lists whose row has generation parameters. -/
def ubiResumeIds : List ℕ → Db (List ℕ)
  | [] => pure []
  | judgmentListId :: rest => do
    let row ← getJudgmentList judgmentListId
    let ids ← ubiResumeIds rest
    return if row.any fun row => row.generationParams.isSome then judgmentListId :: ids else ids

/-- The judgment sweep of `on_startup`. -/
def onStartup (before : ℕ × JudgmentList → ℕ × JudgmentList → Bool) : Db Unit := do
  let generatingJudgmentIds ← inSession (listGeneratingJudgmentListIds before)
  let ubiIds ← inSession (ubiResumeIds generatingJudgmentIds)
  Program.each (fun judgmentListId =>
    enqueueJob .onStartup
      (if judgmentListId ∈ ubiIds then .generateJudgmentsFromUbi else .generateJudgmentsLlm)
      judgmentListId) generatingJudgmentIds

/-- `resume_stuck_judgment_lists`; `passes` says for which lists the daily counter
is under its cap and nothing raises. -/
def resumeStuckJudgmentLists (before : ℕ × JudgmentList → ℕ × JudgmentList → Bool)
    (passes : ℕ → Bool) : Db Unit := do
  let candidateIds ← inSession (listGeneratingJudgmentListIds before)
  Program.each (fun judgmentListId =>
    if passes judgmentListId then enqueueJob .resumeTick .generateJudgmentsLlm judgmentListId
    else pure ()) candidateIds

/-- What a process is asked to run. -/
inductive Job where
  | startLlm (judgmentListId : ℕ) (nameTaken enqueued : Bool)
  | startUbi (judgmentListId : ℕ) (nameTaken enqueued : Bool)
  | onStartup (before : ℕ × JudgmentList → ℕ × JudgmentList → Bool)
  | resume (before : ℕ × JudgmentList → ℕ × JudgmentList → Bool) (passes : ℕ → Bool)
  | deliverLlm (judgmentListId : ℕ) (run : LlmRun)
  | deliverUbi (judgmentListId : ℕ) (run : UbiRun)

/-- The worker and the list of a delivery. -/
def Job.delivery : Job → Option (Worker × ℕ)
  | deliverLlm judgmentListId _ => some (.generateJudgmentsLlm, judgmentListId)
  | deliverUbi judgmentListId _ => some (.generateJudgmentsFromUbi, judgmentListId)
  | _ => none

/-- The code of a job. -/
def Job.code : Job → Db Unit
  | startLlm judgmentListId nameTaken enqueued =>
    startJudgmentGeneration judgmentListId nameTaken enqueued
  | startUbi judgmentListId nameTaken enqueued =>
    startUbiJudgmentGeneration judgmentListId nameTaken enqueued
  | onStartup before => Judgments.onStartup before
  | resume before passes => resumeStuckJudgmentLists before passes
  | deliverLlm judgmentListId run => generateJudgmentsLlm judgmentListId run
  | deliverUbi judgmentListId run => generateJudgmentsFromUbi judgmentListId run

/-- A delivery needs an enqueued job. -/
def Job.admitted (queue : Queue) (job : Job) : Bool :=
  job.delivery.all fun delivery => delivery ∈ queue

/-- Any number of processes that run these jobs. -/
def judgmentSystem (T : Type) [DecidableEq T] :
    System T Job (Beside T ℕ JudgmentList Queue) (BesideOp ℕ JudgmentList QueueOp)
      (BesideOp.Res fun _ => Unit) JudgmentError :=
  besideSystem Job.code Job.admitted execQueue

end RelyLoop.Judgments
