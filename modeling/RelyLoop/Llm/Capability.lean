import RelyLoop.Concurrency.RelyGuarantee
import RelyLoop.Python.Json
import RelyLoop.Python.Text

/-!
# The capability check of the LLM endpoint

Four probes of an OpenAI-compatible endpoint, the result of which is cached in Redis.
A request that misses the cache repeats the check under a lock of its worker process,
after it has looked again. Redis, the endpoint and the other worker processes are met
by a run: whether a command raises, and how each call is answered.
-/

namespace RelyLoop.Llm

open Concurrency Python

/-- The exceptions that the probes distinguish. -/
inductive ProbeError where
  | keyError
  | indexError
  | valueError
  | typeError
  | attributeError
  /-- A request raises something else than an `httpx.HTTPError`. -/
  | request
  deriving DecidableEq, Repr

/-- How a call of the endpoint ends: an `httpx.HTTPError`, another exception, or a response, whose
body is `none` when it is not JSON. -/
inductive HttpAnswer (F : Type) where
  | httpError
  | raises
  | response (statusCode : ℕ) (body : Option (Json F))

variable {F : Type}

/-! ## Reading a body -/

/-- `value[key]`. -/
def item (key : String) : Json F → Except ProbeError (Json F)
  | .dict keys values => ((keys.zip values).lookup key).elim (.error .keyError) .ok
  | _ => .error .typeError

/-- `value[0]`. -/
def firstItem : Json F → Except ProbeError (Json F)
  | .list items => items.head?.elim (.error .indexError) .ok
  | .str s => s.toList.head?.elim (.error .indexError) fun c => .ok (.str (String.singleton c))
  | .dict _ _ => .error .keyError
  | _ => .error .typeError

/-- `value.get(key)`. -/
def getItem (key : String) : Json F → Except ProbeError (Json F)
  | .dict keys values => .ok (((keys.zip values).lookup key).getD .null)
  | _ => .error .attributeError

/-- `bool(value)`. -/
def truthy [PyFloat F] : Json F → Bool
  | .null => false
  | .bool b => b
  | .int i => decide (i ≠ 0)
  | .float f => PyFloat.text f ∉ ["0.0".toList, "-0.0".toList]
  | .str s => decide (s ≠ "")
  | .list items => !items.isEmpty
  | .dict keys _ => !keys.isEmpty

/-- `text in value`. -/
def contains (text : String) : Json F → Except ProbeError Bool
  | .dict keys _ => .ok (keys.contains text)
  | .list items => .ok (items.any fun
    | .str s => s = text
    | _ => false)
  | .str s => .ok (isSubstring text.toList s.toList)
  | _ => .error .typeError

/-- `body["choices"][0]["message"]`. -/
def firstMessage (body : Json F) : Except ProbeError (Json F) := do
  item "message" (← firstItem (← item "choices" body))

/-! ## The probes -/

/-- The errors in `errors` are caught and answered by `False`. -/
def caught (errors : List ProbeError) : Except ProbeError Bool → Except ProbeError Bool
  | .error e => if e ∈ errors then .ok false else .error e
  | .ok b => .ok b

/-- A probe that asks for a completion: `accepts` looks at the body. -/
def probeCompletion (errors : List ProbeError) (accepts : Json F → Except ProbeError Bool) :
    HttpAnswer F → Except ProbeError Bool
  | .httpError => .ok false
  | .raises => .error .request
  | .response statusCode body =>
    if 400 ≤ statusCode then .ok false
    else caught errors (body.elim (.error .valueError) accepts)

/-- `_probe_models_endpoint`. -/
def probeModelsEndpoint : HttpAnswer F → Except ProbeError (Bool × Option ℕ)
  | .httpError => .ok (false, none)
  | .raises => .error .request
  | .response statusCode _ =>
    .ok (if 400 ≤ statusCode then (false, some statusCode) else (true, none))

/-- `_probe_chat_completion`. -/
def probeChatCompletion : HttpAnswer F → Except ProbeError Bool :=
  probeCompletion [.keyError, .indexError, .valueError] fun body => do
    let _ ← firstMessage body
    return true

/-- `_probe_function_calling`. -/
def probeFunctionCalling [PyFloat F] : HttpAnswer F → Except ProbeError Bool :=
  probeCompletion [.keyError, .indexError, .valueError] fun body => do
    let toolCalls ← getItem "tool_calls" (← firstMessage body)
    if truthy toolCalls then return true else throw .valueError

/-- `json.loads(content)`. -/
def loadContent [PyFloat F] : Json F → Except ProbeError (Json F)
  | .str s => (loads s.toList).elim (.error .valueError) .ok
  | _ => .error .typeError

/-- `_probe_structured_output`. -/
def probeStructuredOutput [PyFloat F] : HttpAnswer F → Except ProbeError Bool :=
  probeCompletion [.keyError, .indexError, .valueError, .typeError] fun body => do
    let parsed ← loadContent (← item "content" (← firstMessage body))
    if ← contains "value" parsed then return true else throw .valueError

/-! ## Results and the cache -/

/-- The outcome of the first probe. -/
inductive ModelsStatus where
  | ok
  | fail
  deriving DecidableEq, Repr

/-- `ProbeStatus`. -/
inductive ProbeStatus where
  | ok
  | fail
  | untested
  deriving DecidableEq, Repr

/-- `"ok" if passed else "fail"`. -/
def ProbeStatus.ofBool (passed : Bool) : ProbeStatus := if passed then .ok else .fail

/-- `CapabilityResult`. -/
structure CapabilityResult where
  baseUrl : String
  model : String
  modelsEndpoint : ModelsStatus
  chatCompletion : ProbeStatus
  functionCalling : ProbeStatus
  structuredOutput : ProbeStatus
  modelsEndpointStatusCode : Option ℕ
  testedAt : ℕ
  deriving DecidableEq, Repr

/-- The later probes are skipped exactly when the first one fails, and only then there may be a
status code. -/
def CapabilityResult.coherent (r : CapabilityResult) : Bool :=
  match r.modelsEndpoint with
  | .ok => r.chatCompletion != .untested && r.functionCalling != .untested &&
      r.structuredOutput != .untested && r.modelsEndpointStatusCode.isNone
  | .fail => r.chatCompletion == .untested && r.functionCalling == .untested &&
      r.structuredOutput == .untested && r.modelsEndpointStatusCode.all fun code => 400 ≤ code

/-- The texts of results in Redis: `model_dump_json` and `model_validate_json`. -/
class ResultCodec (Text : Type) where
  dump : CapabilityResult → Text
  validate : Text → Option CapabilityResult
  validate_dump : ∀ r, validate (dump r) = some r

/-- `cache_key`; `sha256` is the hexadecimal digest. -/
def cacheKey (sha256 : String → String) (baseUrl : String) : String :=
  "openai:capabilities:" ++ sha256 baseUrl

/-- Who runs the check. -/
inductive Caller where
  | request
  | startup
  deriving DecidableEq, Repr

/-- Why a probe may be needed again: a Redis command raises, a check raises or is cancelled,
the entry is not there any more. -/
inductive Disturbance where
  | readFailed
  | writeFailed
  | raised
  | cancelled
  | lost
  deriving DecidableEq, Repr

/-- What is kept of a run. -/
inductive CacheEvent where
  | probed (caller : Caller) (key : String)
  | disturbed (cause : Disturbance) (key : String)
  | answered (baseUrl : String) (keySet : Bool) (result : Option CapabilityResult)
  deriving DecidableEq

/-- Redis, and the lock of the worker process with the key that its owner checks. -/
structure CacheWorld (T Text : Type) where
  entries : String → Option Text
  recomputeLock : Option (T × String)
  history : List CacheEvent

/-- The operations of a request. -/
inductive CacheOp (Text : Type) where
  | get (key : String) (raises : Bool)
  | set (key : String) (entry : Text) (raises : Bool)
  | acquire (key : String)
  | release
  | getModels (caller : Caller) (key : String)
  | postCompletion
  | warnRaised (key : String)
  | answer (baseUrl : String) (keySet : Bool) (result : Option CapabilityResult)
  /-- Another process writes the entry, or it expires. -/
  | replace (key : String) (entry : Option Text)

namespace CacheOp

/-- The answer to an operation. -/
abbrev Res {Text : Type} : CacheOp Text → Type
  | get _ _ => Option Text
  | _ => Unit

end CacheOp

/-- A program of a request. -/
abbrev CapabilityTask (Text α : Type) := Program (CacheOp Text) CacheOp.Res ProbeError α

namespace CacheEvent

/-- A request checks the key. -/
def isProbe (key : String) : CacheEvent → Bool
  | probed .request key' => key' == key
  | _ => false

/-- A disturbance of the key. -/
def isDisturbance (key : String) : CacheEvent → Bool
  | disturbed _ key' => key' == key
  | _ => false

end CacheEvent

namespace CacheWorld

variable {T Text : Type}

/-- Keeping an event. -/
def record (w : CacheWorld T Text) (e : CacheEvent) : CacheWorld T Text :=
  { w with history := w.history ++ [e] }

/-- The result that `model_validate_json` reads under the key. -/
def result? [ResultCodec Text] (w : CacheWorld T Text) (key : String) : Option CapabilityResult :=
  (w.entries key).bind ResultCodec.validate

/-- The checks of the key by requests. -/
def probes (w : CacheWorld T Text) (key : String) : ℕ := w.history.countP (CacheEvent.isProbe key)

/-- The disturbances of the key. -/
def disturbances (w : CacheWorld T Text) (key : String) : ℕ :=
  w.history.countP (CacheEvent.isDisturbance key)

/-- What Redis holds under the key from now on. -/
def store (w : CacheWorld T Text) (key : String) (entry : Option Text) : CacheWorld T Text :=
  { w with entries := Function.update w.entries key entry }

end CacheWorld

section Operations

variable {T Text : Type} [DecidableEq T] [ResultCodec Text]

/-- Giving up the lock. -/
def releaseLock (t : T) (w : CacheWorld T Text) : CacheWorld T Text :=
  { w with recomputeLock := w.recomputeLock.filter fun l => decide (l.1 ≠ t) }

/-- The effect and the answer of an operation; `none` while it waits for the lock. -/
def execCache (t : T) (w : CacheWorld T Text) : (o : CacheOp Text) →
    Option (CacheWorld T Text × o.Res)
  | .get key raises =>
    some (if raises then (w.record (.disturbed .readFailed key), none) else (w, w.entries key))
  | .set key entry raises =>
    some (if raises then w.record (.disturbed .writeFailed key) else w.store key (some entry), ())
  | .acquire key =>
    match w.recomputeLock with
    | some _ => none
    | none => some ({ w with recomputeLock := some (t, key) }, ())
  | .release => some (releaseLock t w, ())
  | .getModels caller key => some (w.record (.probed caller key), ())
  | .postCompletion => some (w, ())
  | .warnRaised key => some (w.record (.disturbed .raised key), ())
  | .answer baseUrl keySet result => some (w.record (.answered baseUrl keySet result), ())
  | .replace key entry =>
    let w' := w.store key entry
    some (if (w.result? key).isSome && (w'.result? key).isNone then w'.record (.disturbed .lost key)
      else w', ())

/-- The end of a request: a cancelled check gives up the lock. -/
def cancel (t : T) (w : CacheWorld T Text) : CacheWorld T Text :=
  match w.recomputeLock with
  | some (owner, key) =>
    if owner = t then (releaseLock t w).record (.disturbed .cancelled key) else w
  | none => w

end Operations

/-! ## The check -/

/-- What a check meets. -/
structure Endpoint (F : Type) where
  models : HttpAnswer F
  chat : HttpAnswer F
  functions : HttpAnswer F
  structured : HttpAnswer F
  testedAt : ℕ
  writeRaises : Bool := false

/-- The arguments of a request, and what it meets. -/
structure CapabilityRequest (F : Type) where
  baseUrl : String
  apiKey : Option String
  model : String
  endpoint : Endpoint F
  readRaises : Bool := false
  secondReadRaises : Bool := false

/-- `not api_key`. -/
def CapabilityRequest.keyMissing (r : CapabilityRequest F) : Bool := r.apiKey.all (· = "")

section Programs

variable {Text : Type} [ResultCodec Text] [PyFloat F]
variable (sha256 : String → String)

/-- What a probe answers, or its exception. -/
def ofProbe {α : Type} : Except ProbeError α → CapabilityTask Text α
  | .ok answer => pure answer
  | .error e => throw e

/-- A probe that posts to `/chat/completions`. -/
def postProbe (answer : Except ProbeError Bool) : CapabilityTask Text ProbeStatus := do
  Program.perform CacheOp.postCompletion
  let passed ← ofProbe answer
  pure (.ofBool passed)

/-- The last three probes. -/
def probeCompletions (endpoint : Endpoint F) :
    CapabilityTask Text (ProbeStatus × ProbeStatus × ProbeStatus) := do
  let chat ← postProbe (probeChatCompletion endpoint.chat)
  let functions ← postProbe (probeFunctionCalling endpoint.functions)
  let structured ← postProbe (probeStructuredOutput endpoint.structured)
  pure (chat, functions, structured)

/-- They are skipped when the first one fails. -/
def laterProbes (modelsOk : Bool) (endpoint : Endpoint F) :
    CapabilityTask Text (ProbeStatus × ProbeStatus × ProbeStatus) :=
  if modelsOk then probeCompletions endpoint else pure (.untested, .untested, .untested)

/-- The result of the probes. -/
def capabilityResult (baseUrl model : String) (testedAt : ℕ) (models : Bool × Option ℕ)
    (later : ProbeStatus × ProbeStatus × ProbeStatus) : CapabilityResult where
  baseUrl := baseUrl
  model := model
  modelsEndpoint := if models.1 then .ok else .fail
  chatCompletion := later.1
  functionCalling := later.2.1
  structuredOutput := later.2.2
  modelsEndpointStatusCode := models.2
  testedAt := testedAt

/-- `check_capabilities`. -/
def checkCapabilities (caller : Caller) (baseUrl model : String) (endpoint : Endpoint F) :
    CapabilityTask Text CapabilityResult := do
  Program.perform (CacheOp.getModels caller (cacheKey sha256 baseUrl))
  let models ← ofProbe (probeModelsEndpoint endpoint.models)
  let later ← laterProbes models.1 endpoint
  let result := capabilityResult baseUrl model endpoint.testedAt models later
  Program.perform
    (CacheOp.set (cacheKey sha256 baseUrl) (ResultCodec.dump result) endpoint.writeRaises)
  pure result

/-- `read_capability_result`. -/
def readCapabilityResult (baseUrl : String) (raises : Bool) :
    CapabilityTask Text (Option CapabilityResult) := do
  let raw ← (Program.perform (CacheOp.get (cacheKey sha256 baseUrl) raises) :
    CapabilityTask Text (Option Text))
  pure (raw.bind ResultCodec.validate)

/-- The check of a request, where any exception ends in a warning. -/
def checkOrWarn (r : CapabilityRequest F) : CapabilityTask Text (Option CapabilityResult) :=
  tryCatch (do
      let result ← checkCapabilities sha256 .request r.baseUrl r.model r.endpoint
      pure (some result))
    fun _ => do
      Program.perform (CacheOp.warnRaised (cacheKey sha256 r.baseUrl))
      pure none

/-- The body of `async with _RECOMPUTE_LOCK`. -/
def recompute (r : CapabilityRequest F) : CapabilityTask Text (Option CapabilityResult) := do
  let cached ← readCapabilityResult sha256 r.baseUrl r.secondReadRaises
  match cached with
  | some cached => pure (some cached)
  | none => checkOrWarn sha256 r

/-- What `read_or_recompute_capability_result` does after a miss. -/
def recomputeUnderLock (r : CapabilityRequest F) :
    CapabilityTask Text (Option CapabilityResult) :=
  if r.keyMissing then pure none
  else do
    Program.perform (CacheOp.acquire (cacheKey sha256 r.baseUrl))
    let result ← recompute sha256 r
    Program.perform CacheOp.release
    pure result

/-- `read_or_recompute_capability_result`. -/
def readOrRecomputeCapabilityResult (r : CapabilityRequest F) :
    CapabilityTask Text (Option CapabilityResult) := do
  let cached ← readCapabilityResult sha256 r.baseUrl r.readRaises
  match cached with
  | some cached => pure (some cached)
  | none => recomputeUnderLock sha256 r

/-- `run_capability_check_background`. -/
def runCapabilityCheckBackground (r : CapabilityRequest F) : CapabilityTask Text Unit :=
  if r.keyMissing then pure ()
  else tryCatch (do
      let _ ← checkCapabilities sha256 .startup r.baseUrl r.model r.endpoint
      pure ())
    fun _ => pure ()

/-- What runs beside one another: the requests of a worker process, its check at startup, and
what happens to Redis outside the process. -/
inductive CapabilityJob (F Text : Type) where
  | request (r : CapabilityRequest F)
  | startup (r : CapabilityRequest F)
  | outside (key : String) (entry : Option Text)

/-- The code of a job. -/
def CapabilityJob.code : CapabilityJob F Text → CapabilityTask Text Unit
  | .request r => do
    let result ← readOrRecomputeCapabilityResult sha256 r
    Program.perform (CacheOp.answer r.baseUrl (!r.keyMissing) result)
  | .startup r => runCapabilityCheckBackground sha256 r
  | .outside key entry => Program.perform (CacheOp.replace key entry)

/-- Another worker process writes what its own checks find. -/
def CapabilityJob.honest : CapabilityJob F Text → Bool
  | .outside key entry => (entry.bind ResultCodec.validate).all fun r =>
      decide (cacheKey sha256 r.baseUrl = key) && r.coherent
  | _ => true

/-- The requests of a worker process, and what happens beside them. -/
def capabilityTasks (T : Type) [DecidableEq T] :
    System T (CapabilityJob F Text) (CacheWorld T Text) (CacheOp Text) CacheOp.Res ProbeError where
  code := CapabilityJob.code sha256
  admits _ j := j.honest sha256
  exec := execCache
  reset := cancel

end Programs

end RelyLoop.Llm
