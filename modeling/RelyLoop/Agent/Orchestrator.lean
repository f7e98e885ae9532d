import RelyLoop.Agent.Confirmation

/-!
# A turn of the orchestrator

`run_turn`: up to ten completions, each answered by the results of its tool calls.
The model's answers and the outcomes of the tools are the script of the turn; the
run is the list of its events. A turn may be cut off after any of them.
-/

/-!
## Messages of a conversation

The rows of the `messages` table, the history that `send_user_message` builds from
them for the next completion, and what it reads off them for the confirmation guard.
-/

namespace RelyLoop.Agent

open Python

/-- A tool call as it is collected from the stream of a completion. -/
structure ToolCall where
  id : String
  name : String
  arguments : String
  deriving DecidableEq, Repr

/-- What a tool call is answered with; a result is its JSON text. -/
inductive ToolPayload where
  | result (json : String)
  | error (code message : String)
  deriving DecidableEq, Repr

/-- The role of a row with the columns that the role uses. -/
inductive Body where
  | user (text : String)
  /-- `notice` is the kind `system_notice`. -/
  | assistant (text : String) (notice : Bool) (calls : List ToolCall)
  | tool (callId : String) (payload : ToolPayload)
  deriving DecidableEq, Repr

/-- A row of the `messages` table. -/
structure Message where
  id : ℕ
  createdAt : ℕ
  body : Body
  deriving DecidableEq, Repr

/-- A message of the OpenAI chat history. Tool payloads are wrapped there. -/
inductive HistoryMessage where
  | system
  | user (text : String)
  | assistant (text : String) (calls : List ToolCall)
  | tool (callId : String) (payload : ToolPayload)
  deriving DecidableEq, Repr

/-- `HISTORY_MAX_MESSAGES`. -/
def historyMaxMessages : ℕ := 100

/-- `_row_to_openai_message`. -/
def rowToOpenaiMessage (message : Message) : HistoryMessage :=
  match message.body with
  | .user text => .user text
  | .assistant text _ calls => .assistant text calls
  | .tool callId payload => .tool callId payload

/-- A row at which the history may begin: a user message or a plain reply. -/
def isBoundary (message : Message) : Bool :=
  match message.body with
  | .user _ => true
  | .assistant _ _ calls => calls.isEmpty
  | .tool _ _ => false

/-- `_truncate_preserving_tool_groups`. -/
def truncatePreservingToolGroups (messages : List Message) (maxKept : ℕ) : List Message :=
  if messages.length ≤ maxKept then messages
  else (messages.drop (messages.length - maxKept)).dropWhile fun message => !isBoundary message

/-- The rows that `send_user_message` works with. -/
def keptMessages (allMessages : List Message) : List Message :=
  if allMessages.length > historyMaxMessages then
    truncatePreservingToolGroups allMessages historyMaxMessages
  else allMessages

/-- The history for the next completion. -/
def buildHistory (allMessages : List Message) : List HistoryMessage :=
  .system :: (keptMessages allMessages).map rowToOpenaiMessage

/-- `last_assistant_text`: the text of the message right before the user's, when it
is a reply that is not blank. -/
def lastAssistantText (allMessages : List Message) : Option String :=
  match (keptMessages allMessages).dropLast.getLast? with
  | some ⟨_, _, .assistant text _ _⟩ => if (strip text.toList).isEmpty then none else some text
  | _ => none

/-- `degraded_notice_already_sent`. -/
def degradedNoticeAlreadySent (allMessages : List Message) : Bool :=
  (keptMessages allMessages).dropLast.any fun message =>
    match message.body with
    | .assistant _ notice _ => notice
    | _ => false

end RelyLoop.Agent

/-! ## The turn -/

namespace RelyLoop.Agent

open Python

/-- `TOOL_ARG_MODELS`. -/
def toolNames : List String :=
  ["list_clusters", "get_cluster", "get_schema", "list_templates", "get_template",
    "list_query_sets", "create_query_set", "import_queries_from_csv", "generate_judgments_llm",
    "generate_judgments_from_ubi", "get_calibration", "run_query", "propose_search_space",
    "create_study", "get_study", "cancel_study", "list_proposals", "get_proposal",
    "create_proposal_from_study", "create_proposal_manual", "open_pr"]

/-- `MAX_LOOP_ITERATIONS`. -/
def maxLoopIterations : ℕ := 10

/-- `DEGRADED_NOTICE_TEXT`. -/
def degradedNoticeText : String :=
  "Tool dispatch is unavailable on this LLM provider (capability probe failed " ++
    "or unsupported). I can answer questions, but I can't create studies, open " ++
    "PRs, or run other tools right now. Use the UI to perform mutating actions."

/-- An exception of a tool: its text, and `error_code` and `message` of its `detail`
when that is a dictionary. -/
structure ToolException where
  text : String
  detail : Option (Option String × Option String)
  deriving DecidableEq, Repr

/-- The answer to a call whose tool has raised. -/
def ToolException.payload (exc : ToolException) : ToolPayload :=
  match exc.detail with
  | some (code, message) =>
    .error (code.getD "internal_error") (message.getD exc.text)
  | none => .error "internal_error" exc.text

/-- What a tool does with the session of the turn. -/
inductive SessionStep where
  | statement
  | commit
  deriving DecidableEq, Repr

/-- A tool call of a completion with what comes of it: the answer of
`model_validate_json`, and the run of the implementation if it is invoked. -/
structure AnsweredCall where
  call : ToolCall
  validationError : Option String
  session : List SessionStep
  outcome : Except ToolException String

/-- One iteration of the loop: the budget check, the request and its stream. -/
inductive Completion where
  | overBudget
  | rateLimited
  /-- The request or its stream raises. -/
  | breaks (deltas : List String)
  | answer (deltas : List String) (calls : List AnsweredCall)

/-- The arguments of `run_turn`, and what the texts of the turn are read with. -/
structure TurnInput where
  table : CharacterTable
  /-- `repr` of a text. -/
  quote : String → String
  lastUserText : String
  lastAssistantText : Option String
  degradedNoticeAlreadySent : Bool
  toolsEnabled : Bool

/-- What a turn does. -/
inductive Event where
  | token (text : String)
  | toolCall (call : ToolCall)
  | toolResult (callId toolName : String) (payload : ToolPayload)
  | done (error : Option String) (iterations : ℕ)
  | persistAssistant (text : String) (notice : Bool) (calls : List ToolCall)
  | persistTool (callId : String) (payload : ToolPayload)
  /-- A completion is requested. -/
  | request (history : List HistoryMessage)
  /-- A tool implementation is invoked. -/
  | invoke (toolName : String) (session : List SessionStep)
  /-- An exception leaves the turn. -/
  | raised
  deriving DecidableEq, Repr

variable (input : TurnInput)

/-- The reason why a call is not dispatched, `none` when it is: the validation gate
and the confirmation guard. -/
def refusal (mutatingDispatched : Bool) (c : AnsweredCall) : Option ToolPayload :=
  if c.call.name ∉ toolNames then
    some (.error "unknown_tool"
      ("tool " ++ input.quote c.call.name ++ " is not in TOOL_ARG_MODELS"))
  else match c.validationError with
    | some detail => some (.error "validation_failed" detail)
    | none =>
      if c.call.name ∉ mutatingToolNames then none
      else if mutatingDispatched then
        some (.error "confirmation_required"
          ("Confirmation required for " ++ c.call.name ++ ". Only one mutating " ++
            "action may run per confirmation; propose this action " ++
            "again so the user can confirm it specifically."))
      else if !isAuthorizedMutation input.table c.call.name input.lastAssistantText
          input.lastUserText then
        some (.error "confirmation_required"
          ("Confirmation required for " ++ c.call.name ++ ". The assistant must " ++
            "explicitly propose this tool, and the user must affirmatively " ++
            "confirm, before dispatch."))
      else none

/-- The events that report the answer to a call. -/
def reports (call : ToolCall) (payload : ToolPayload) : List Event :=
  [.toolResult call.id call.name payload, .persistTool call.id payload]

/-- The state of the loop. -/
structure TurnState where
  history : List HistoryMessage
  mutatingDispatched : Bool := false

/-- One tool call: its events, and the state after it. -/
def answerCall (state : TurnState) (c : AnsweredCall) : List Event × TurnState :=
  let append (payload : ToolPayload) := state.history ++ [.tool c.call.id payload]
  match refusal input state.mutatingDispatched c with
  | some payload =>
    (.toolCall c.call :: reports c.call payload, { state with history := append payload })
  | none =>
    match c.outcome with
    | .error exc =>
      (.toolCall c.call :: .invoke c.call.name c.session :: reports c.call exc.payload,
        { state with history := append exc.payload })
    | .ok json =>
      (.toolCall c.call :: .invoke c.call.name c.session :: reports c.call (.result json),
        { history := append (.result json)
          mutatingDispatched := state.mutatingDispatched || c.call.name ∈ mutatingToolNames })

/-- The tool calls of a completion, in order. -/
def answerCalls : TurnState → List AnsweredCall → List Event × TurnState
  | state, [] => ([], state)
  | state, c :: cs =>
    let (events, state') := answerCall input state c
    let (rest, state'') := answerCalls state' cs
    (events ++ rest, state'')

/-- The loop of `run_turn`, with the number of iterations left and done; it waits
for its next completion when the script ends. -/
def turnLoop : ℕ → ℕ → TurnState → List Completion → List Event
  | 0, iterations, _, _ => [.done (some "tool_loop_limit_exceeded") iterations]
  | _ + 1, _, _, [] => []
  | _ + 1, iterations, _, .overBudget :: _ =>
    [.done (some "openai_budget_exceeded") (iterations + 1)]
  | _ + 1, iterations, state, .rateLimited :: _ =>
    [.request state.history, .done (some "openai_rate_limited") (iterations + 1)]
  | _ + 1, _, state, .breaks deltas :: _ =>
    .request state.history :: deltas.map .token ++ [.raised]
  | left + 1, iterations, state, .answer deltas calls :: script =>
    let fullText := String.join deltas
    let toolCalls := calls.map AnsweredCall.call
    .request state.history :: deltas.map .token ++
      .persistAssistant fullText false toolCalls ::
        if calls.isEmpty then [.done none (iterations + 1)]
        else
          let asked := { state with history := state.history ++ [.assistant fullText toolCalls] }
          let (events, state') := answerCalls input asked calls
          events ++ turnLoop left (iterations + 1) state' script

/-- `run_turn`. -/
def runTurn (history : List HistoryMessage) (script : List Completion) : List Event :=
  (if !input.toolsEnabled && !input.degradedNoticeAlreadySent then
      [.persistAssistant degradedNoticeText true [], .token degradedNoticeText]
    else []) ++ turnLoop input maxLoopIterations 0 { history := history } script

/-- The arguments that `send_user_message` passes to `run_turn`. -/
def turnInput (table : CharacterTable) (quote : String → String) (toolsEnabled : Bool)
    (userText : String) (allMessages : List Message) : TurnInput where
  table := table
  quote := quote
  lastUserText := userText
  lastAssistantText := lastAssistantText allMessages
  degradedNoticeAlreadySent := degradedNoticeAlreadySent allMessages
  toolsEnabled := toolsEnabled

end RelyLoop.Agent
