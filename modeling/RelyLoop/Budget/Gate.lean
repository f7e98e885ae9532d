import RelyLoop.Concurrency.Program
import RelyLoop.Metering.SharedCounter
import RelyLoop.Python.Dict
import Mathlib.Algebra.Order.Field.Rat
import Mathlib.Data.Rat.Cast.Order
import Mathlib.Tactic.NormNum
import Mathlib.Tactic.Positivity

/-!
# The daily budget

Callers of the language model read the day's total from Redis before a call, compare it with the
budget, and add what the call cost afterwards. Both operations are atomic; nothing is reserved in
between. Amounts are exact.
-/

namespace RelyLoop.Budget

open Concurrency Metering
open Python (Dict)

/-- What ends a caller early. -/
inductive GateError where
  | budgetExceeded
  | unknownModelPricing
  /-- Any other exception, by its type. -/
  | other (type : String)
  deriving DecidableEq, Repr

/-! ## Costs -/

/-- `_MODEL_USD_PER_1K_INPUT`. -/
def modelUsdPer1kInput : Dict String ℚ :=
  Dict.ofList [("gpt-4o-2024-08-06", 25 / 10000), ("gpt-4o-mini-2024-07-18", 15 / 100000)]

/-- `_MODEL_USD_PER_1K_OUTPUT`. -/
def modelUsdPer1kOutput : Dict String ℚ :=
  Dict.ofList [("gpt-4o-2024-08-06", 1 / 100), ("gpt-4o-mini-2024-07-18", 6 / 10000)]

/-- `_INPUT_TOKEN_CEILING`. -/
def inputTokenCeiling : ℕ := 10000

/-- `_OUTPUT_TOKEN_CEILING`. -/
def outputTokenCeiling : ℕ := 2000

/-- `compute_call_cost`. -/
def computeCallCost (model : String) (inputTokens outputTokens : ℕ) : Except GateError ℚ :=
  match modelUsdPer1kInput.get? model, modelUsdPer1kOutput.get? model with
  | some inRate, some outRate =>
    .ok (inputTokens / 1000 * inRate + outputTokens / 1000 * outRate)
  | _, _ => .error .unknownModelPricing

/-- `estimated_max_call_cost`. -/
def estimatedMaxCallCost (model : String) : Except GateError ℚ :=
  computeCallCost model inputTokenCeiling outputTokenCeiling

/-! ## The counter -/

/-- `peek_daily_total`, of the value under the day's key. -/
def peekDailyTotal (raw : Option ℚ) : ℚ := raw.getD 0

/-- `record_cost`, on the value under the day's key. -/
def recordCost (raw : Option ℚ) (costUsd : ℚ) : Option ℚ := some (peekDailyTotal raw + costUsd)

/-- The two operations on the day's key. -/
inductive GateOp where
  | get
  | incrByFloat (costUsd : ℚ)
  deriving DecidableEq

/-- What they answer. -/
abbrev GateOp.Res : GateOp → Type
  | get => Option ℚ
  | incrByFloat _ => ℚ

/-- The code of a caller. -/
abbrev Gate := Program GateOp GateOp.Res GateError

/-! ## The callers -/

/-- The settings that the callers share. -/
structure BudgetSettings where
  /-- `openai_model`. -/
  model : String
  /-- `openai_daily_budget_usd`; the check is off unless it is positive. -/
  budgetUsd : ℚ

/-- How the search of a query, or the fetch of its documents, ends. -/
inductive SearchOutcome where
  | raises (type : String)
  | noHits
  | hits
  deriving DecidableEq

/-- How `rate_query_batch` ends. -/
inductive RateOutcome where
  /-- One of the exceptions that both callers raise further. -/
  | misconfigured (type : String)
  | raises
  /-- An answer, with its usage and whether it has exactly the expected documents. -/
  | answers (inputTokens outputTokens : ℕ) (complete : Bool)
  deriving DecidableEq

/-- What a caller meets on its turn for one query. -/
structure BudgetTurn where
  alreadyJudged : Bool := false
  peekRaises : Option String := none
  search : SearchOutcome := .hits
  rate : RateOutcome
  insertRaises : Option String := none
  recordRaises : Bool := false

variable (settings : BudgetSettings)

/-- The check before a call. -/
def checkBudget (peekRaises : Option String) : Gate Unit :=
  if 0 < settings.budgetUsd then
    match peekRaises with
    | some type => throw (.other type)
    | none => do
      let raw ← Program.perform GateOp.get
      match estimatedMaxCallCost settings.model with
      | .error e => throw e
      | .ok estMax =>
        if settings.budgetUsd < peekDailyTotal raw + estMax then throw .budgetExceeded
        else pure ()
  else pure ()

/-- `safe_record_cost`: what Redis raises is swallowed. -/
def safeRecordCost (costUsd : ℚ) (recordRaises : Bool) : Gate Unit :=
  if recordRaises then pure ()
  else do
    let _ ← Program.perform (GateOp.incrByFloat costUsd)
    pure ()

/-- `process_judgment_query`, as far as the budget sees it. -/
def processJudgmentQuery (turn : BudgetTurn) : Gate Bool :=
  if turn.alreadyJudged then pure true
  else do
    checkBudget settings turn.peekRaises
    match turn.search with
    | .raises _ => pure false
    | .noHits => pure true
    | .hits =>
      match turn.rate with
      | .misconfigured type => throw (.other type)
      | .raises => pure false
      | .answers inputTokens outputTokens complete =>
        match computeCallCost settings.model inputTokens outputTokens with
        -- raised inside `rate_query_batch`, and caught like any failure of the call
        | .error _ => pure false
        | .ok costUsd =>
          if complete then
            match turn.insertRaises with
            | some type => throw (.other type)
            | none => do
              safeRecordCost costUsd turn.recordRaises
              pure true
          else do
            safeRecordCost costUsd turn.recordRaises
            pure false

/-- One query text of the callback of `make_hybrid_llm_rate_callback`. -/
def hybridTurn (turn : BudgetTurn) : Gate Unit := do
  checkBudget settings turn.peekRaises
  match turn.search with
  | .raises type => throw (.other type)
  | _ =>
    match turn.rate with
    | .misconfigured type => throw (.other type)
    | .raises => pure ()
    | .answers inputTokens outputTokens _ =>
      match computeCallCost settings.model inputTokens outputTokens with
      | .error e => throw e
      | .ok costUsd => safeRecordCost costUsd turn.recordRaises

/-- What a caller works on: the queries of a list, or the query texts of a hybrid tail. -/
inductive GateJob where
  | judgmentList (turns : List BudgetTurn)
  | hybridTail (turns : List BudgetTurn)

/-- The turns of a job. -/
def GateJob.turns : GateJob → List BudgetTurn
  | judgmentList turns => turns
  | hybridTail turns => turns

/-- The code of a job. -/
def GateJob.code : GateJob → Gate Unit
  | judgmentList turns =>
    Program.each (fun turn => (processJudgmentQuery settings turn).bind fun _ => .done ()) turns
  | hybridTail turns => Program.each (hybridTurn settings) turns

/-- The cost of a call is at most the estimate. -/
def BudgetTurn.affordable (turn : BudgetTurn) : Bool :=
  match turn.rate with
  | .answers inputTokens outputTokens _ =>
    match computeCallCost settings.model inputTokens outputTokens,
      estimatedMaxCallCost settings.model with
    | .ok costUsd, .ok estMax => costUsd ≤ estMax
    | _, _ => true
  | _ => true

/-! ## The callers together -/

/-- The value under the day's key, with the tasks whose last reading left room for a call that
they have not recorded since. No caller sees the latter. -/
structure GateWorld (T : Type) where
  dailyKey : Option ℚ
  admitted : T → Bool

/-- The counter as a meter. -/
def GateWorld.meter {T : Type} (w : GateWorld T) : Meter T ℚ :=
  ⟨peekDailyTotal w.dailyKey, w.admitted⟩

/-- A reading leaves room for a call. -/
def leavesRoom (raw : Option ℚ) : Bool :=
  match estimatedMaxCallCost settings.model with
  | .error _ => false
  | .ok estMax => peekDailyTotal raw + estMax ≤ settings.budgetUsd

variable {T : Type} [DecidableEq T]

/-- The effect of an operation. -/
def execGate (t : T) (w : GateWorld T) : (o : GateOp) → Option (GateWorld T × o.Res)
  | .get =>
    some ({ w with admitted := Function.update w.admitted t (leavesRoom settings w.dailyKey) },
      w.dailyKey)
  | .incrByFloat costUsd =>
    some (⟨recordCost w.dailyKey costUsd, Function.update w.admitted t false⟩,
      peekDailyTotal (recordCost w.dailyKey costUsd))

/-- Concurrent callers whose calls all cost at most the estimate. -/
def callers (T : Type) [DecidableEq T] :
    System T GateJob (GateWorld T) GateOp GateOp.Res GateError where
  code := GateJob.code settings
  admits _ job := job.turns.all fun turn => turn.affordable settings
  exec := execGate settings
  reset t w := { w with admitted := Function.update w.admitted t false }

/-- The start of a day. -/
def newDay (T : Type) : GateWorld T := ⟨none, fun _ => false⟩

/-! ## Costs are positive -/

section

variable {model : String} {estMax costUsd : ℚ} {inputTokens outputTokens : ℕ}

theorem rates_pos {inRate outRate : ℚ} (hin : modelUsdPer1kInput.get? model = some inRate)
    (hout : modelUsdPer1kOutput.get? model = some outRate) : 0 < inRate ∧ 0 < outRate := by
  have hinMem := Dict.mem_of_get?_ofList hin
  have houtMem := Dict.mem_of_get?_ofList hout
  constructor
  · simp only [List.mem_cons, Prod.mk.injEq, List.not_mem_nil, or_false] at hinMem
    rcases hinMem with ⟨-, rfl⟩ | ⟨-, rfl⟩ <;> norm_num
  · simp only [List.mem_cons, Prod.mk.injEq, List.not_mem_nil, or_false] at houtMem
    rcases houtMem with ⟨-, rfl⟩ | ⟨-, rfl⟩ <;> norm_num

theorem computeCallCost_ok (h : computeCallCost model inputTokens outputTokens = .ok costUsd) :
    ∃ inRate outRate : ℚ, 0 < inRate ∧ 0 < outRate ∧
      costUsd = inputTokens / 1000 * inRate + outputTokens / 1000 * outRate := by
  rw [computeCallCost] at h
  split at h
  · rename_i inRate outRate hin hout
    obtain ⟨hinPos, houtPos⟩ := rates_pos hin hout
    exact ⟨inRate, outRate, hinPos, houtPos, (Except.ok.inj h).symm⟩
  · cases h

theorem computeCallCost_nonneg
    (h : computeCallCost model inputTokens outputTokens = .ok costUsd) : 0 ≤ costUsd := by
  obtain ⟨inRate, outRate, hin, hout, rfl⟩ := computeCallCost_ok h
  positivity

theorem estimatedMaxCallCost_pos (h : estimatedMaxCallCost model = .ok estMax) : 0 < estMax := by
  obtain ⟨inRate, outRate, hin, hout, rfl⟩ := computeCallCost_ok h
  rw [inputTokenCeiling, outputTokenCeiling]
  positivity

end

end RelyLoop.Budget
