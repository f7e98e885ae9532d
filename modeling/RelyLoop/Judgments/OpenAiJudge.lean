import RelyLoop.Budget.Gate
import RelyLoop.Judgments.Generation
import RelyLoop.Python.Json
import RelyLoop.Python.Loops
import Mathlib.Algebra.BigOperators.Intervals
import Mathlib.Algebra.Order.BigOperators.Group.Finset

/-!
# One call of the judge

A rating request is sent again after a transient failure, a content that is no JSON, or
one of another shape than asked for. The first response of the right shape is validated
item by item, and its usage is priced. `json.loads` is a parameter.
-/

namespace RelyLoop.Judgments.OpenAiJudge

open Budget Generation Python

variable {F : Type}

/-! ## What the provider answers -/

/-- How a call of the client fails. All of these are instances of `openai.OpenAIError`; a
rate limit is the status 429. -/
inductive ProviderError where
  | timeout
  | connection
  | status (code : ℕ)
  | other (typeName : String)
  deriving DecidableEq, Repr

/-- The failures after which another attempt is made. -/
def ProviderError.retryable : ProviderError → Bool
  | timeout => true
  | connection => true
  | status code => code = 429 ∨ (500 ≤ code ∧ code < 600)
  | other _ => false

/-- `response.usage`. -/
structure Usage where
  promptTokens : ℕ
  completionTokens : ℕ
  deriving DecidableEq, Repr

/-- What the code reads of a response. -/
structure Response where
  content : Option String
  usage : Option Usage
  deriving DecidableEq, Repr

/-- The end of a call of the client. -/
abbrev Reply := Except ProviderError Response

/-- How `json.loads` fails: by a `JSONDecodeError`, or otherwise. -/
inductive LoadsError where
  | decode
  | other (typeName : String)
  deriving DecidableEq, Repr

/-! ## The exceptions and the result -/

/-- What `rate_query_batch` raises. -/
inductive JudgeError where
  | provider (e : ProviderError)
  | jsonDecode
  /-- The `ValueError` of a response of another shape. -/
  | schemaViolation
  | unknownModelPricing
  /-- The `RuntimeError` of a loop without attempts. -/
  | noAttempt
  | other (typeName : String)
  deriving DecidableEq, Repr

/-- The exceptions that the documentation of `rate_query_batch` names. -/
def JudgeError.Documented : JudgeError → Prop
  | provider _ => True
  | jsonDecode => True
  | unknownModelPricing => True
  | schemaViolation => False
  | noAttempt => False
  | other _ => False

/-- `JudgeCallResult`, without its duration. -/
structure JudgeCallResult where
  ratings : List DocRating
  inputTokens : ℕ
  outputTokens : ℕ
  costUsd : ℚ
  model : String

/-! ## The items of a response -/

/-- `isinstance(value, int)`, with the integer; booleans are integers. -/
def asInt : Json F → Option ℤ
  | .int i => some i
  | .bool b => some (if b then 1 else 0)
  | _ => none

/-- `isinstance(value, str)`, with the text. -/
def asText : Json F → Option String
  | .str text => some text
  | _ => none

/-- The value of `item.get("doc_id")`. -/
def itemDocId : Option (Json F) → ItemDocId
  | some (.str docId) => .text docId
  | some (.list _) => .unhashable
  | some (.dict _ _) => .unhashable
  | _ => .otherHashable

/-- An item of the response, `none` unless it is an object. -/
def ratingItem : Json F → Option RatingItem
  | .dict keys values =>
    let item := Json.dict keys values
    some
      { docId := itemDocId (item.get? "doc_id")
        rating := (item.get? "rating").bind asInt
        rationale := (item.get? "rationale").bind asText }
  | _ => none

/-- `parsed["ratings"]` of an object that has a list there. -/
def rawRatings (parsed : Json F) : Option (List (Json F)) :=
  match parsed.get? "ratings" with
  | some (.list items) => some items
  | _ => none

/-! ## The attempts -/

/-- The end of an attempt whose response has the right shape. -/
def acceptResponse (model : String) (expectedDocIds : List String) (response : Response)
    (items : List (Json F)) : Attempt JudgeError JudgeCallResult :=
  match validateItems expectedDocIds (items.map ratingItem) with
  -- `doc_id not in expected_doc_ids` hashes the value
  | .error _ => .raised (.other "TypeError")
  | .ok ratings =>
    let inputTokens := (response.usage.map Usage.promptTokens).getD 0
    let outputTokens := (response.usage.map Usage.completionTokens).getD 0
    match computeCallCost model inputTokens outputTokens with
    | .error _ => .raised .unknownModelPricing
    | .ok costUsd => .result
      { ratings := ratings
        inputTokens := inputTokens
        outputTokens := outputTokens
        costUsd := costUsd
        model := model }

/-- A pass of the loop. -/
def judgeAttempt (loads : String → Except LoadsError (Json F)) (model : String)
    (expectedDocIds : List String) : Reply → Attempt JudgeError JudgeCallResult
  | .error e => if e.retryable then .discarded (.provider e) else .raised (.provider e)
  | .ok response =>
    match loads (response.content.getD "") with
    | .error .decode => .discarded .jsonDecode
    | .error (.other typeName) => .raised (.other typeName)
    | .ok parsed =>
      match rawRatings parsed with
      | none => .discarded .schemaViolation
      | some items => acceptResponse model expectedDocIds response items

/-- `rate_query_batch`, with the reply to each attempt. -/
def rateQueryBatch (loads : String → Except LoadsError (Json F)) (model : String)
    (expectedDocIds : List String) (maxRetries : ℤ) (replies : ℕ → Reply) :
    Attempted JudgeError JudgeCallResult :=
  retryFrom (fun attempt => judgeAttempt loads model expectedDocIds (replies attempt)) 1
    maxRetries.toNat .noAttempt

/-! ## What a caller relies on -/

/-- An item that counts: an object with an expected id, an integer from 0 to 3, and a
rationale. -/
structure IsRated (expectedDocIds : List String) (item : Json F) (rated : DocRating) : Prop where
  docId : item.get? "doc_id" = some (.str rated.docId)
  expected : rated.docId ∈ expectedDocIds
  rating : (item.get? "rating").bind asInt = some (rated.rating : ℕ)
  rationale : item.get? "rationale" = some (.str rated.rationale)

/-- The second list has what the items of the first are related to, in order, and nothing
for those that are related to nothing. -/
inductive Keeps {α β : Type} (related : α → β → Prop) : List α → List β → Prop
  | nil : Keeps related [] []
  | keep {a : α} {b : β} {as : List α} {bs : List β} (h : related a b)
      (hrest : Keeps related as bs) : Keeps related (a :: as) (b :: bs)
  | drop {a : α} {as : List α} {bs : List β} (h : ∀ b, ¬ related a b)
      (hrest : Keeps related as bs) : Keeps related (a :: as) bs

/-- The items of a reply that is a response of the right shape. -/
def acceptedItems (loads : String → Except LoadsError (Json F)) : Reply → Option (List (Json F))
  | .error _ => none
  | .ok response => ((loads (response.content.getD "")).toOption).bind rawRatings

/-- What the provider bills for a reply. -/
def billedCost (model : String) : Reply → ℚ
  | .ok { content := _, usage := some usage } =>
    ((computeCallCost model usage.promptTokens usage.completionTokens).toOption).getD 0
  | _ => 0

/-- The contract: no more calls than allowed, the valid ratings of the last reply and
nothing else, a cost that covers all replies, and only the documented exceptions. -/
structure MeetsContract (loads : String → Except LoadsError (Json F)) (model : String)
    (expectedDocIds : List String) (maxRetries : ℤ) (replies : ℕ → Reply)
    (run : Attempted JudgeError JudgeCallResult) : Prop where
  calls : (run.calls : ℤ) ≤ maxRetries
  ratings : ∀ result, run.outcome = .ok result →
    ∃ items, acceptedItems loads (replies run.calls) = some items ∧
      Keeps (IsRated expectedDocIds) items result.ratings
  cost : ∀ result, run.outcome = .ok result →
    ∑ attempt ∈ Finset.Icc 1 run.calls, billedCost model (replies attempt) ≤ result.costUsd
  documented : ∀ e, run.outcome = .error e → e.Documented

end RelyLoop.Judgments.OpenAiJudge
