import RelyLoop.Judgments.Workers
import RelyLoop.Eval.SearchBatch
import Mathlib.Data.Finset.Dedup
import Mathlib.Data.Finset.Card
import Mathlib.Algebra.Order.Ring.Rat

/-!
# Generating the judgments of a list

The LLM worker on one list, query by query: count the rows that exist, peek the
budget, search, ask the model for ratings, and insert the rows of the query in
one transaction. No other task works on the list meanwhile, so a session is a
working copy of the committed tables. The engine's answers are recorded.
-/

namespace RelyLoop.Judgments.Generation

open Concurrency Python Eval

/-! ## The tables -/

/-- `judgments.source`. -/
inductive JudgmentSource where
  | llm
  | human
  | click
  deriving DecidableEq, Repr

/-- A row of the `judgments` table; its rating is checked to be from 0 to 3. -/
structure Judgment where
  rating : Fin 4
  source : JudgmentSource
  raterRef : String
  notes : Option String
  deriving DecidableEq, Repr

/-- The row of one list in `judgment_lists`, and its rows in `judgments`, by their
unique key: the query and the document. -/
structure ListTables where
  list : Option JudgmentList
  judgments : Dict (String × String) Judgment

/-- What the engine answers to the search for one query. -/
inductive EngineReply where
  | msearch (reply : MsearchReply)
  | select (target : String) (uniqueKeyRaises : Option String) (reply : SelectReply)

/-- The search for one query. -/
def EngineReply.call (queryId : String) : EngineReply → EngineCall
  | msearch reply => .elastic [queryId] reply
  | select target uniqueKeyRaises reply => .solr target uniqueKeyRaises [(queryId, reply)]

/-- The committed tables, the tables as the open session sees them, and what the
engine has answered to the searches for each query so far. -/
structure GenerationWorld where
  committed : ListTables
  working : ListTables
  answers : List (String × EngineReply)

/-- The exceptions that the modelled code distinguishes. -/
inductive GenerationError where
  | lookupError
  | budgetExceeded
  | unknownModelPricing
  | other (typeName : String)
  deriving DecidableEq, Repr

/-- `type(exc).__name__`. -/
def GenerationError.typeName : GenerationError → String
  | lookupError => "LookupError"
  | budgetExceeded => "BudgetExceededError"
  | unknownModelPricing => "UnknownModelPricingError"
  | other typeName => typeName

/-- The statements of a session, and the search. -/
inductive GenerationOp where
  | getJudgmentList
  | countJudgments (queryId : String)
  | searchBatch (queryId : String) (reply : EngineReply)
  | bulkCreateJudgments (rows : List ((String × String) × Judgment))
  | flush (change : JudgmentList → JudgmentList)
  | commit
  | close

/-- The answers. -/
abbrev GenerationOp.Res : GenerationOp → Type
  | getJudgmentList => Option JudgmentList
  | countJudgments _ => ℕ
  | searchBatch _ _ => Except SearchError (Dict String (List ScoredHit))
  | bulkCreateJudgments _ => Unit
  | flush _ => Unit
  | commit => Unit
  | close => Unit

/-- `INSERT … ON CONFLICT DO NOTHING`: a row whose key is present is skipped. -/
def insertAbsent (judgments : Dict (String × String) Judgment) :
    List ((String × String) × Judgment) → Dict (String × String) Judgment
  | [] => judgments
  | row :: rows =>
    insertAbsent (if (judgments.get? row.1).isSome then judgments else judgments.set row.1 row.2)
      rows

/-- The number of rows of a query. -/
def ListTables.countJudgments (tables : ListTables) (queryId : String) : ℕ :=
  (tables.judgments.entries.filter fun e => e.1.1 = queryId).length

/-- The effect of one operation. -/
def execGeneration (w : GenerationWorld) : (o : GenerationOp) → GenerationWorld × o.Res
  | .getJudgmentList => (w, w.working.list)
  | .countJudgments queryId => (w, w.working.countJudgments queryId)
  | .searchBatch queryId reply =>
    ({ w with answers := w.answers ++ [(queryId, reply)] },
      (reply.call queryId).searchBatch false)
  | .bulkCreateJudgments rows =>
    ({ w with working := { w.working with judgments := insertAbsent w.working.judgments rows } },
      ())
  | .flush change =>
    ({ w with working := { w.working with list := w.working.list.map change } }, ())
  | .commit => ({ w with committed := w.working }, ())
  | .close => ({ w with working := w.committed }, ())

/-- A program of the worker. -/
abbrev Db := Program GenerationOp GenerationOp.Res GenerationError

/-- `async with factory() as db`: the session is closed in the end. -/
def inSession {α : Type} (body : Db α) : Db α :=
  tryCatch (do
      let a ← body
      Program.perform GenerationOp.close
      return a)
    fun e => do
      Program.perform GenerationOp.close
      throw e

/-! ## The repository functions -/

/-- `get_judgment_list`. -/
def getJudgmentList : Db (Option JudgmentList) :=
  Program.perform GenerationOp.getJudgmentList

/-- `count_judgments_for_list_and_query`. -/
def countJudgmentsForListAndQuery (queryId : String) : Db ℕ :=
  Program.perform (GenerationOp.countJudgments queryId)

/-- `bulk_create_judgments`. -/
def bulkCreateJudgments (rows : List ((String × String) × Judgment)) : Db Unit :=
  Program.perform (GenerationOp.bulkCreateJudgments rows)

/-- `db.commit()`. -/
def commit : Db Unit := Program.perform GenerationOp.commit

/-- `update_judgment_list_status`. -/
def updateJudgmentListStatus (status : JudgmentListStatus) (failedReason : Option String) :
    Db Unit := do
  match ← getJudgmentList with
  | none => throw .lookupError
  | some loaded => Program.perform (GenerationOp.flush (setStatus status failedReason loaded))

/-- `fail_judgment_list`. -/
def failJudgmentList (failedReason : String) : Db Unit := do
  updateJudgmentListStatus .failed (some failedReason)
  commit

/-- The update to `complete`, and its commit. -/
def completeJudgmentList : Db Unit := do
  updateJudgmentListStatus .complete none
  commit

/-! ## The model's ratings -/

/-- The value under `doc_id` in an item of the response. -/
inductive ItemDocId where
  | text (docId : String)
  | otherHashable
  | unhashable
  deriving DecidableEq, Repr

/-- An item of `ratings`; a rating that is no integer and a rationale that is no
string are `none`. -/
structure RatingItem where
  docId : ItemDocId
  rating : Option ℤ
  rationale : Option String
  deriving DecidableEq, Repr

/-- `DocRating`. -/
structure DocRating where
  docId : String
  rating : Fin 4
  rationale : String
  deriving DecidableEq, Repr

/-- How a call of the model fails: by the client, by a status, by a content that is
no JSON or has no list of ratings, or otherwise. -/
inductive OpenAiError where
  | timeout
  | connection
  | status (code : ℕ)
  | unreadable
  | other (typeName : String)
  deriving DecidableEq, Repr

/-- The failures after which `rate_query_batch` tries again. -/
def OpenAiError.retryable : OpenAiError → Bool
  | timeout => true
  | connection => true
  | status code => code = 429 ∨ (500 ≤ code ∧ code < 600)
  | unreadable => true
  | other _ => false

/-- The exceptions that `process_judgment_query` does not handle, by name. -/
def OpenAiError.misconfigured : OpenAiError → Option String
  | status 400 => some "BadRequestError"
  | status 401 => some "AuthenticationError"
  | status 403 => some "PermissionDeniedError"
  | status 404 => some "NotFoundError"
  | _ => none

/-- A rating in range. -/
def ratingInRange (rating : ℤ) : Option (Fin 4) :=
  if h : 0 ≤ rating ∧ rating ≤ 3 then some ⟨rating.toNat, by omega⟩ else none

/-- The validation of one item: `none` when it is dropped. -/
def validateItem (expectedDocIds : List String) (item : RatingItem) :
    Except OpenAiError (Option DocRating) :=
  match item.docId with
  | .unhashable => .error (.other "TypeError")
  | .otherHashable => .ok none
  | .text docId =>
    if docId ∉ expectedDocIds then .ok none
    else .ok do
      let rationale ← item.rationale
      let rating ← item.rating
      let rating ← ratingInRange rating
      return { docId := docId, rating := rating, rationale := rationale }

/-- The loop over the items of a response; items that are no objects are `none`. -/
def validateItems (expectedDocIds : List String) :
    List (Option RatingItem) → Except OpenAiError (List DocRating)
  | [] => .ok []
  | none :: items => validateItems expectedDocIds items
  | some item :: items => do
    let validated ← validateItem expectedDocIds item
    let rest ← validateItems expectedDocIds items
    return validated.toList ++ rest

/-- What the model answers to each attempt. -/
abbrev Completions := ℕ → Except OpenAiError (List (Option RatingItem))

/-- The attempts of `rate_query_batch` from `attempt` on, with `left` more to come. -/
def rateAttempts (completions : Completions) (expectedDocIds : List String) (attempt : ℕ) :
    ℕ → Except OpenAiError (List DocRating)
  | 0 => completions attempt >>= validateItems expectedDocIds
  | left + 1 =>
    match completions attempt with
    | .ok items => validateItems expectedDocIds items
    | .error e =>
      if e.retryable then rateAttempts completions expectedDocIds (attempt + 1) left
      else .error e

/-- `max_retries`. -/
def maxRetries : ℕ := 3

/-- `rate_query_batch`. -/
def rateQueryBatch (completions : Completions) (expectedDocIds : List String) :
    Except OpenAiError (List DocRating) :=
  rateAttempts completions expectedDocIds 1 (maxRetries - 1)

/-! ## One query -/

/-- What the processing of one query meets: the day's total that `peek_daily_total`
reads or the exception that it raises, whether `adapter.render` raises, the
engine, the rendering of the prompt, the model, and the insertion of the rows. -/
structure QueryRun where
  dailyTotal : Except String ℚ := .ok 0
  renderRaises : Bool := false
  reply : EngineReply
  promptRaises : Option String := none
  completions : Completions
  insertRaises : Option String := none

/-- The settings of a run: `openai_model`, what a call of it may cost if its
pricing is known, and `openai_daily_budget_usd`. -/
structure GenerationSettings where
  model : String
  estimatedMaxCallCost : Option ℚ
  budgetUsd : ℚ

/-- Raising an exception that the run meets. -/
def raiseIfAny : Option String → Db Unit
  | none => pure ()
  | some typeName => throw (.other typeName)

/-- The peek before a call of the model. -/
def checkBudget (settings : GenerationSettings) (run : QueryRun) : Db Unit :=
  if 0 < settings.budgetUsd then
    match run.dailyTotal, settings.estimatedMaxCallCost with
    | .error typeName, _ => throw (.other typeName)
    | .ok _, none => throw .unknownModelPricing
    | .ok current, some estMax =>
      if settings.budgetUsd < current + estMax then throw .budgetExceeded else pure ()
  else pure ()

/-- The ids in the prompt, with the documents that they stand for. -/
def promptIds (hits : List ScoredHit) : List (String × String) :=
  hits.zipIdx.map fun hit => ("item-" ++ toString hit.2, hit.1.docId)

/-- The response has each expected id exactly once. -/
def exactlyExpected (returnedIds expectedDocIds : List String) : Bool :=
  returnedIds.toFinset = expectedDocIds.toFinset ∧ returnedIds.length = returnedIds.toFinset.card

/-- The row of a rating. -/
def judgmentRow (queryId raterRef : String) (promptIdToReal : Dict String String)
    (r : DocRating) : Except GenerationError ((String × String) × Judgment) :=
  match promptIdToReal.get? r.docId with
  | none => .error (.other "KeyError")
  | some docId => .ok ((queryId, docId),
      { rating := r.rating, source := .llm, raterRef := raterRef, notes := some r.rationale })

/-- The ratings of the hits as rows, `none` when the query is skipped. -/
def rateHits (settings : GenerationSettings) (queryId : String) (run : QueryRun)
    (hits : List ScoredHit) : Except GenerationError (Option (List ((String × String) × Judgment))) :=
  match run.promptRaises with
  | some typeName => .error (.other typeName)
  | none =>
    let expectedDocIds := (promptIds hits).map Prod.fst
    match rateQueryBatch run.completions expectedDocIds with
    | .error e =>
      match e.misconfigured with
      | some typeName => .error (.other typeName)
      | none => .ok none
    | .ok ratings =>
      if ¬exactlyExpected (ratings.map DocRating.docId) expectedDocIds then .ok none
      else do
        let rows ← ratings.mapM
          (judgmentRow queryId ("openai:" ++ settings.model) (Dict.ofList (promptIds hits)))
        return some rows

/-- `process_judgment_query`. -/
def processJudgmentQuery (settings : GenerationSettings) (queryId : String) (run : QueryRun) :
    Db Bool := do
  let existing ← countJudgmentsForListAndQuery queryId
  if 0 < existing then return true
  else
    checkBudget settings run
    if run.renderRaises then return false
    else
      match ← Program.perform (GenerationOp.searchBatch queryId run.reply) with
      | .error _ => return false
      | .ok hitsByQid =>
        let hits := (hitsByQid.get? queryId).getD []
        -- no hits, or an error of the engine that the search has turned into no hits
        if hits = [] then return true
        else
          match rateHits settings queryId run hits with
          | .error e => throw e
          | .ok none => return false
          | .ok (some rows) =>
            raiseIfAny run.insertRaises
            bulkCreateJudgments rows
            commit
            return true

/-! ## The worker -/

/-- What a run of the worker meets. -/
structure GenerationRun where
  settings : GenerationSettings
  clusterFound : Bool := true
  templateFound : Bool := true
  apiKeySet : Bool := true
  setupRaises : Option String := none
  query : String → QueryRun

/-- The first session of the worker; whether the run goes on. -/
def entry (querySet : List String) (run : GenerationRun) : Db Bool := do
  match ← getJudgmentList with
  | none => return false
  | some judgmentList =>
    if judgmentList.status ≠ .generating then return false
    else if ¬run.clusterFound then
      failJudgmentList "CLUSTER_NOT_FOUND"
      return false
    else if ¬run.templateFound then
      failJudgmentList "TEMPLATE_NOT_FOUND"
      return false
    else if querySet = [] then
      completeJudgmentList
      return false
    else return true

/-- The reasons of `fail_on_budget_or_pricing_error`. -/
def GenerationError.fatalReason : GenerationError → Option String
  | budgetExceeded => some "OPENAI_BUDGET_EXCEEDED"
  | unknownModelPricing => some "UNKNOWN_MODEL_PRICING"
  | _ => none

/-- A round of the query loop: whether the query was rated, `none` when the list was
failed and the worker returns. -/
def judgeQuery (run : GenerationRun) (queryId : String) : Db (Option Bool) :=
  inSession (tryCatch (do
      let ok ← processJudgmentQuery run.settings queryId (run.query queryId)
      return some ok)
    fun e => match e.fatalReason with
      | some reason => do
        inSession (failJudgmentList reason)
        return none
      | none => throw e)

/-- The query loop: the number of skipped queries, `none` when the worker returns. -/
def judgeQueries (run : GenerationRun) (skipped : ℕ) : List String → Db (Option ℕ)
  | [] => pure (some skipped)
  | queryId :: queryIds => do
    match ← judgeQuery run queryId with
    | none => return none
    | some ok => judgeQueries run (if ok then skipped else skipped + 1) queryIds

/-- The worker after its first session. -/
def judge (querySet : List String) (run : GenerationRun) : Db Unit :=
  if ¬run.apiKeySet then inSession (failJudgmentList "OPENAI_NOT_CONFIGURED")
  else if run.settings.estimatedMaxCallCost = none then
    inSession (failJudgmentList "UNKNOWN_MODEL_PRICING")
  else do
    raiseIfAny run.setupRaises
    match ← judgeQueries run 0 querySet with
    | none => return
    | some skipped =>
      if skipped = 0 then inSession completeJudgmentList
      else inSession (failJudgmentList
        ("PARTIAL_LLM_FAILURE: " ++ toString skipped ++ " queries unrated"))

/-- The handler of an exception: the list is marked as failed. -/
def recordUnexpected (e : GenerationError) : Db Unit :=
  tryCatch (inSession (failJudgmentList ("UNEXPECTED:" ++ e.typeName))) fun _ => pure ()

/-- `generate_judgments_llm`. -/
def generateJudgmentsLlm (querySet : List String) (run : GenerationRun) : Db Unit :=
  tryCatch (do
      if ← inSession (entry querySet run) then judge querySet run else pure ())
    recordUnexpected

/-- Deliveries of the worker for one list, one after the other; each may be cut
short at any operation. -/
def generationSystem (querySet : List String) :
    System Unit GenerationRun GenerationWorld GenerationOp GenerationOp.Res GenerationError where
  code := generateJudgmentsLlm querySet
  admits _ _ := true
  exec _ w o := some (execGeneration w o)
  reset _ w := { w with working := w.committed }

end RelyLoop.Judgments.Generation
