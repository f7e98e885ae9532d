import RelyLoop.Agent.Orchestrator

/-!
# Tool-call groups

What the provider asks of a history: a message with tool calls is followed at once by
one result for each call, and there are no other results. The rows of a conversation
are read from left to right with the calls that wait for their results, and so are the
rows that a turn writes.
-/

namespace RelyLoop.Agent

variable {rows : List Message} {bodies bodies' : List Body} {owed owed' : List String}

/-- A message that is neither a request for tools nor the result of one. -/
def IsPlain : HistoryMessage → Prop
  | .system => True
  | .user _ => True
  | .assistant _ calls => calls = []
  | .tool _ _ => False

/-- Exactly one result for each call id, and no other result. -/
def Answers (calls : List ToolCall) (results : List (String × ToolPayload)) : Prop :=
  (results.map Prod.fst).Nodup ∧ ∀ id, id ∈ results.map Prod.fst ↔ id ∈ calls.map ToolCall.id

/-- The message of a result. -/
def resultMessage (result : String × ToolPayload) : HistoryMessage := .tool result.1 result.2

/-- Every message with tool calls is immediately followed by exactly one tool message
for each call id, and every tool message belongs to such a group. -/
inductive WellFormed : List HistoryMessage → Prop
  | nil : WellFormed []
  | plain {message : HistoryMessage} {rest : List HistoryMessage} (hplain : IsPlain message)
      (hrest : WellFormed rest) : WellFormed (message :: rest)
  | group {text : String} {calls : List ToolCall} {results : List (String × ToolPayload)}
      {rest : List HistoryMessage} (hanswers : Answers calls results) (hrest : WellFormed rest) :
      WellFormed (.assistant text calls :: (results.map resultMessage ++ rest))

/-- The ids of the tool calls of a row. -/
def callIds : Body → List String
  | .assistant _ _ calls => calls.map ToolCall.id
  | _ => []

/-- The calls that wait for their results after a further row. -/
def owes (owed : List String) (body : Body) : List String :=
  match body with
  | .tool callId _ => owed.erase callId
  | body => owed ++ callIds body

/-- The calls of the rows that no later row is the result of. -/
def outstanding (rows : List Message) : List String :=
  (rows.map Message.body).foldl owes []

/-- The calls that wait after a further row, `none` when the row does not fit: results
come in the order of the calls, and before anything else. -/
def follow (owed : List String) (body : Body) : Option (List String) :=
  match body, owed with
  | .tool callId _, next :: rest => if callId = next then some rest else none
  | .tool _ _, [] => none
  | body, [] => some (callIds body)
  | _, _ => none

/-- The calls that wait after the rows, when all of them fit. -/
def followAll (owed : List String) (bodies : List Body) : Option (List String) :=
  bodies.foldlM follow owed

@[simp] theorem followAll_nil : followAll owed [] = some owed := rfl

@[simp] theorem followAll_cons {body : Body} :
    followAll owed (body :: bodies) = (follow owed body).bind (followAll · bodies) := rfl

@[simp] theorem followAll_append :
    followAll owed (bodies ++ bodies') = (followAll owed bodies).bind (followAll · bodies') :=
  List.foldlM_append

/-- What a row that fits is. -/
theorem follow_eq_some {body : Body} (h : follow owed body = some owed') :
    (∃ callId payload, body = .tool callId payload ∧ owed = callId :: owed') ∨
      ((∀ callId payload, body ≠ .tool callId payload) ∧ owed = [] ∧ owed' = callIds body) := by
  cases body with
  | user text =>
    cases owed with
    | nil => exact Or.inr ⟨by simp, rfl, (Option.some.inj h).symm⟩
    | cons next rest => cases h
  | assistant text notice calls =>
    cases owed with
    | nil => exact Or.inr ⟨by simp, rfl, (Option.some.inj h).symm⟩
    | cons next rest => cases h
  | tool callId payload =>
    cases owed with
    | nil => cases h
    | cons next rest =>
      simp only [follow, Option.ite_none_right_eq_some, Option.some.injEq] at h
      obtain ⟨rfl, rfl⟩ := h
      exact Or.inl ⟨callId, payload, rfl, rfl⟩

/-- A row that is no result fits when nothing waits. -/
theorem follow_nil {body : Body} (h : ∀ callId payload, body ≠ .tool callId payload) :
    follow [] body = some (callIds body) := by
  cases body with
  | user text => rfl
  | assistant text notice calls => rfl
  | tool callId payload => exact absurd rfl (h callId payload)

theorem owes_of_follow {body : Body} (h : follow owed body = some owed') :
    owes owed body = owed' := by
  rcases follow_eq_some h with ⟨callId, payload, rfl, rfl⟩ | ⟨hbody, rfl, rfl⟩
  · simp [owes]
  · cases body with
    | user text => rfl
    | assistant text notice calls => rfl
    | tool callId payload => exact absurd rfl (hbody callId payload)

theorem foldl_owes (h : followAll owed bodies = some owed') : bodies.foldl owes owed = owed' := by
  induction bodies generalizing owed with
  | nil => exact Option.some.inj h
  | cons body bodies ih =>
    obtain ⟨next, hnext, hrest⟩ := Option.bind_eq_some_iff.mp h
    rw [List.foldl_cons, owes_of_follow hnext]
    exact ih hrest

/-- Rows that fit leave the calls outstanding that wait for their results. -/
theorem outstanding_of_followAll (h : followAll [] (rows.map Message.body) = some owed) :
    outstanding rows = owed := foldl_owes h

/-! ## Histories -/

/-- What a well-formed history begins with. -/
theorem WellFormed.head {message : HistoryMessage} {rest : List HistoryMessage}
    (h : WellFormed (message :: rest)) :
    (IsPlain message ∧ WellFormed rest) ∨ ∃ text calls results rest',
      message = .assistant text calls ∧ rest = results.map resultMessage ++ rest' ∧
        Answers calls results ∧ WellFormed rest' := by
  cases h with
  | plain hplain hrest => exact Or.inl ⟨hplain, hrest⟩
  | group hanswers hrest => exact Or.inr ⟨_, _, _, _, rfl, rfl, hanswers, hrest⟩

theorem WellFormed.tail_of_plain {message : HistoryMessage} {rest : List HistoryMessage}
    (h : WellFormed (message :: rest)) (hplain : IsPlain message) : WellFormed rest := by
  rcases h.head with ⟨-, hrest⟩ | ⟨text, calls, results, rest', rfl, rfl, hanswers, hrest⟩
  · exact hrest
  · obtain rfl : calls = [] := hplain
    have hnone : results = [] := by simpa [List.eq_nil_iff_forall_not_mem] using hanswers.2
    simpa [hnone] using hrest

/-- Calls that are followed by something else than a result. -/
theorem not_wellFormed_of_unanswered {text : String} {calls : List ToolCall}
    {next : HistoryMessage} {rest : List HistoryMessage} (hcalls : calls ≠ [])
    (hnext : ∀ callId payload, next ≠ .tool callId payload) :
    ¬ WellFormed (.assistant text calls :: next :: rest) := by
  intro h
  rcases h.head with ⟨hplain, -⟩ | ⟨text', calls', results, rest', hsame, hrest, hanswers, -⟩
  · exact hcalls hplain
  · obtain ⟨-, rfl⟩ := HistoryMessage.assistant.inj hsame
    cases results with
    | nil =>
      obtain ⟨call, hcall⟩ := List.exists_mem_of_ne_nil calls hcalls
      have hmissing := (hanswers.2 call.id).mpr (List.mem_map_of_mem hcall)
      cases hmissing
    | cons result results => exact hnext _ _ (List.cons.inj hrest).1

/-- One result for each call, in order, answers calls with distinct ids. -/
theorem answers_of_map_eq {calls : List ToolCall} {results : List (String × ToolPayload)}
    (hids : results.map Prod.fst = calls.map ToolCall.id)
    (hdistinct : (calls.map ToolCall.id).Nodup) : Answers calls results := by
  refine ⟨by rwa [hids], fun id => ?_⟩
  rw [hids]

/-- Rows that fit begin with the results that wait, and go on well formed. -/
theorem wellFormed_after (hdistinct : ∀ message ∈ rows, (callIds message.body).Nodup)
    (h : followAll owed (rows.map Message.body) = some []) :
    ∃ (results : List (String × ToolPayload)) (rest : List HistoryMessage),
      rows.map rowToOpenaiMessage = results.map resultMessage ++ rest ∧
        results.map Prod.fst = owed ∧ WellFormed rest := by
  induction rows generalizing owed with
  | nil =>
    obtain rfl : owed = [] := Option.some.inj h
    exact ⟨[], [], rfl, rfl, .nil⟩
  | cons message rows ih =>
    obtain ⟨hmessage, hrows⟩ := List.forall_mem_cons.mp hdistinct
    rw [List.map_cons, followAll_cons] at h
    obtain ⟨next, hnext, hrest⟩ := Option.bind_eq_some_iff.mp h
    obtain ⟨results, rest, hmap, hids, hwell⟩ := ih hrows hrest
    rw [List.map_cons, hmap]
    rcases follow_eq_some hnext with ⟨callId, payload, hbody, rfl⟩ | ⟨hbody, rfl, rfl⟩
    · refine ⟨(callId, payload) :: results, rest, ?_, by simp [hids], hwell⟩
      simp [rowToOpenaiMessage, hbody, resultMessage]
    · refine ⟨[], rowToOpenaiMessage message :: (results.map resultMessage ++ rest), rfl, rfl, ?_⟩
      cases hcase : message.body with
      | tool callId payload => exact absurd hcase (hbody callId payload)
      | user text =>
        have hempty : results = [] := by simpa [hcase, callIds] using hids
        have huser : IsPlain (.user text) := trivial
        simpa [rowToOpenaiMessage, hcase, hempty] using WellFormed.plain huser hwell
      | assistant text notice calls =>
        have hanswers : Answers calls results := by
          apply answers_of_map_eq
          · simpa [hcase, callIds] using hids
          · simpa [hcase, callIds] using hmessage
        simpa [rowToOpenaiMessage, hcase] using WellFormed.group hanswers hwell

/-- Rows that fit, with no call left waiting, are a well-formed history. -/
theorem wellFormed_of_followAll (hdistinct : ∀ message ∈ rows, (callIds message.body).Nodup)
    (h : followAll [] (rows.map Message.body) = some []) :
    WellFormed (rows.map rowToOpenaiMessage) := by
  obtain ⟨results, rest, hmap, hids, hwell⟩ := wellFormed_after hdistinct h
  obtain rfl : results = [] := by simpa using hids
  rw [hmap]
  exact hwell

/-- The rows that are kept are a suffix, which begins at a boundary if it is a proper one. -/
theorem keptMessages_suffix (allMessages : List Message) :
    ∃ cut, allMessages = cut ++ keptMessages allMessages ∧
      (cut = [] ∨ ∀ message ∈ (keptMessages allMessages).head?, isBoundary message = true) := by
  unfold keptMessages truncatePreservingToolGroups
  split_ifs with hlong hshort
  · exact ⟨[], rfl, Or.inl rfl⟩
  · let tail := allMessages.drop (allMessages.length - historyMaxMessages)
    let skipped := tail.takeWhile fun message => !isBoundary message
    refine ⟨allMessages.take (allMessages.length - historyMaxMessages) ++ skipped, ?_, Or.inr ?_⟩
    · rw [List.append_assoc, List.takeWhile_append_dropWhile, List.take_append_drop]
    · intro message hhead
      have hstop := List.head?_dropWhile_not (fun message => !isBoundary message) tail
      rw [Option.mem_def.mp hhead] at hstop
      simpa using hstop
  · exact ⟨[], rfl, Or.inl rfl⟩

/-- The truncation does not cut a group in half. -/
theorem wellFormed_buildHistory (hdistinct : ∀ message ∈ rows, (callIds message.body).Nodup)
    (h : followAll [] (rows.map Message.body) = some []) : WellFormed (buildHistory rows) := by
  refine WellFormed.plain trivial ?_
  obtain ⟨cut, hrows, hcut⟩ := keptMessages_suffix rows
  have hkept : ∀ message ∈ keptMessages rows, (callIds message.body).Nodup := by
    intro message hmem
    apply hdistinct
    rw [hrows]
    exact List.mem_append_right cut hmem
  apply wellFormed_of_followAll hkept
  rw [hrows, List.map_append, followAll_append] at h
  obtain ⟨owed, howed, hrest⟩ := Option.bind_eq_some_iff.mp h
  rcases hcut with rfl | hhead
  · obtain rfl : owed = [] := (Option.some.inj howed).symm
    exact hrest
  · cases hlist : keptMessages rows with
    | nil => rfl
    | cons message rest =>
      rw [hlist, List.map_cons, followAll_cons] at hrest
      obtain ⟨next, hnext, -⟩ := Option.bind_eq_some_iff.mp hrest
      have hboundary : isBoundary message = true := hhead message (by simp [hlist])
      rcases follow_eq_some hnext with ⟨callId, payload, hbody, -⟩ | ⟨-, rfl, -⟩
      · simp [isBoundary, hbody] at hboundary
      · exact hrest

/-! ## What a turn writes -/

/-- The row that `send_user_message` writes for an event of the turn. -/
def eventRow : Event → Option Body
  | .persistAssistant text notice calls => some (.assistant text notice calls)
  | .persistTool callId payload => some (.tool callId payload)
  | _ => none

variable (input : TurnInput) (state : TurnState)

/-- A call is answered by one result. -/
theorem rows_answerCall (c : AnsweredCall) : ∃ payload,
    (answerCall input state c).1.filterMap eventRow = [.tool c.call.id payload] := by
  unfold answerCall
  cases refusal input state.mutatingDispatched c with
  | some payload => exact ⟨payload, rfl⟩
  | none =>
    cases c.outcome with
    | error exc => exact ⟨exc.payload, rfl⟩
    | ok json => exact ⟨.result json, rfl⟩

/-- The calls of a completion are answered in order. -/
theorem rows_answerCalls (cs : List AnsweredCall) :
    followAll (cs.map (·.call.id)) ((answerCalls input state cs).1.filterMap eventRow) =
      some [] := by
  induction cs generalizing state with
  | nil => rfl
  | cons c cs ih =>
    obtain ⟨payload, hrow⟩ := rows_answerCall input state c
    simp [answerCalls, List.filterMap_append, hrow, follow, ih]

theorem rows_deltas (deltas : List String) (history : List HistoryMessage) (events : List Event) :
    (.request history :: deltas.map Event.token ++ events).filterMap eventRow =
      events.filterMap eventRow := by
  simp [List.filterMap_cons, eventRow]

@[simp] theorem rows_persistAssistant (text : String) (notice : Bool) (calls : List ToolCall)
    (events : List Event) :
    (.persistAssistant text notice calls :: events).filterMap eventRow =
      .assistant text notice calls :: events.filterMap eventRow := rfl

theorem rows_turnLoop (left iterations : ℕ) (script : List Completion) :
    followAll [] ((turnLoop input left iterations state script).filterMap eventRow) = some [] := by
  induction left generalizing iterations state script with
  | zero => rfl
  | succ left ih =>
    cases script with
    | nil => rfl
    | cons completion script =>
      cases completion with
      | overBudget => rfl
      | rateLimited => rfl
      | breaks deltas =>
        rw [turnLoop, rows_deltas]
        rfl
      | answer deltas calls =>
        rw [turnLoop, rows_deltas, rows_persistAssistant]
        by_cases hcalls : calls = []
        · subst hcalls
          rfl
        · have hanswered := rows_answerCalls input { state with
            history := state.history ++
              [.assistant (String.join deltas) (calls.map AnsweredCall.call)] } calls
          simp [hcalls, follow, callIds, Function.comp_def, hanswered, ih]

/-- A turn that is not cut off answers every call that it writes. -/
theorem rows_runTurn (history : List HistoryMessage) (script : List Completion) :
    followAll [] ((runTurn input history script).filterMap eventRow) = some [] := by
  have hnotice : followAll [] ((if !input.toolsEnabled && !input.degradedNoticeAlreadySent then
      [.persistAssistant degradedNoticeText true [], .token degradedNoticeText] else
        []).filterMap eventRow) = some [] := by
    split <;> rfl
  rw [runTurn, List.filterMap_append, followAll_append, hnotice]
  exact rows_turnLoop input _ maxLoopIterations 0 script

/-! ## What a turn requests -/

theorem WellFormed.append {history history' : List HistoryMessage} (h : WellFormed history)
    (h' : WellFormed history') : WellFormed (history ++ history') := by
  induction h with
  | nil => exact h'
  | plain hplain hrest ih => exact .plain hplain ih
  | group hanswers hrest ih =>
    rw [List.cons_append, List.append_assoc]
    exact .group hanswers ih

/-- A call adds its result to the history. -/
theorem history_answerCall (c : AnsweredCall) : ∃ payload,
    (answerCall input state c).2.history = state.history ++ [.tool c.call.id payload] := by
  unfold answerCall
  cases refusal input state.mutatingDispatched c with
  | some payload => exact ⟨payload, rfl⟩
  | none =>
    cases c.outcome with
    | error exc => exact ⟨exc.payload, rfl⟩
    | ok json => exact ⟨.result json, rfl⟩

theorem history_answerCalls (cs : List AnsweredCall) : ∃ results : List (String × ToolPayload),
    (answerCalls input state cs).2.history = state.history ++ results.map resultMessage ∧
      results.map Prod.fst = cs.map (·.call.id) := by
  induction cs generalizing state with
  | nil => exact ⟨[], by simp [answerCalls], rfl⟩
  | cons c cs ih =>
    obtain ⟨payload, hfirst⟩ := history_answerCall input state c
    obtain ⟨results, hrest, hids⟩ := ih (answerCall input state c).2
    refine ⟨(c.call.id, payload) :: results, ?_, by simp [hids]⟩
    simp [answerCalls, hrest, hfirst, resultMessage]

theorem request_not_mem_answerCalls (cs : List AnsweredCall) (history : List HistoryMessage) :
    .request history ∉ (answerCalls input state cs).1 := by
  induction cs generalizing state with
  | nil => simp [answerCalls]
  | cons c cs ih =>
    have hfirst : .request history ∉ (answerCall input state c).1 := by
      unfold answerCall
      cases refusal input state.mutatingDispatched c with
      | some payload => simp [reports]
      | none => cases c.outcome <;> simp [reports]
    simp [answerCalls, hfirst, ih]

/-- No completion of the script repeats a call id. -/
def DistinctCalls (script : List Completion) : Prop :=
  ∀ deltas calls, Completion.answer deltas calls ∈ script → (calls.map (·.call.id)).Nodup

variable {input} {state}

theorem request_turnLoop {left iterations : ℕ} {script : List Completion}
    (hdistinct : DistinctCalls script) (hwell : WellFormed state.history)
    {history : List HistoryMessage}
    (h : .request history ∈ turnLoop input left iterations state script) : WellFormed history := by
  induction left generalizing iterations state script with
  | zero => simp [turnLoop] at h
  | succ left ih =>
    cases script with
    | nil => simp [turnLoop] at h
    | cons completion script =>
      cases completion with
      | overBudget => simp [turnLoop] at h
      | rateLimited =>
        obtain rfl : history = state.history := by simpa [turnLoop] using h
        exact hwell
      | breaks deltas =>
        obtain rfl : history = state.history := by simpa [turnLoop] using h
        exact hwell
      | answer deltas calls =>
        by_cases hcalls : calls = []
        · obtain rfl : history = state.history := by simpa [turnLoop, hcalls] using h
          exact hwell
        · let asked : TurnState := { state with
            history := state.history ++
              [.assistant (String.join deltas) (calls.map AnsweredCall.call)] }
          have hcases : history = state.history ∨ .request history ∈
              turnLoop input left (iterations + 1) (answerCalls input asked calls).2 script := by
            simpa [turnLoop, hcalls, request_not_mem_answerCalls, asked] using h
          rcases hcases with rfl | hlater
          · exact hwell
          · refine ih (fun deltas' calls' hmem => ?_) ?_ hlater
            · exact hdistinct deltas' calls' (List.mem_cons_of_mem _ hmem)
            · obtain ⟨results, hhistory, hids⟩ :=
                history_answerCalls input asked calls
              have hanswers : Answers (calls.map AnsweredCall.call) results := by
                apply answers_of_map_eq
                · simpa [Function.comp_def] using hids
                · simpa [Function.comp_def] using hdistinct deltas calls List.mem_cons_self
              have hgroup : WellFormed (.assistant (String.join deltas)
                  (calls.map AnsweredCall.call) :: (results.map resultMessage ++ [])) :=
                .group hanswers .nil
              rw [hhistory]
              simpa [asked] using hwell.append hgroup

/-- From a well-formed history on, a turn requests completions for well-formed
histories only, if the model does not repeat a call id. -/
theorem requests_wellFormed {script : List Completion} (hdistinct : DistinctCalls script)
    {history : List HistoryMessage} (hwell : WellFormed history) {request : List HistoryMessage}
    (h : .request request ∈ runTurn input history script) : WellFormed request := by
  have hloop : .request request ∈
      turnLoop input maxLoopIterations 0 { history := history } script := by
    rcases List.mem_append.mp h with hnotice | hloop
    · split at hnotice <;> simp at hnotice
    · exact hloop
  exact request_turnLoop hdistinct hwell hloop

/-- A turn that confirms nothing. -/
def askingTurn : TurnInput where
  table := Python.asciiTable
  quote := id
  lastUserText := "Which clusters are there?"
  lastAssistantText := none
  degradedNoticeAlreadySent := false
  toolsEnabled := true

/-- A call of a tool that only reads. -/
def clustersCall : AnsweredCall where
  call := ⟨"c1", "list_clusters", ""⟩
  validationError := none
  session := []
  outcome := .ok "[]"

/-- The history of the second request. -/
def askedHistory : List HistoryMessage :=
  [.user "Which clusters are there?", .assistant "" [clustersCall.call], .tool "c1" (.result "[]")]

/-- The result of a call stands in the next request. -/
theorem requests_wellFormed_clusters :
    .request askedHistory ∈ runTurn askingTurn [.user "Which clusters are there?"]
        [.answer [] [clustersCall], .answer ["None."] []] ∧ WellFormed askedHistory := by
  have hrequest : .request askedHistory ∈ runTurn askingTurn [.user "Which clusters are there?"]
      [.answer [] [clustersCall], .answer ["None."] []] := by decide
  have hasked : WellFormed [.user "Which clusters are there?"] :=
    .plain (show IsPlain (.user _) from trivial) .nil
  refine ⟨hrequest, requests_wellFormed (fun deltas calls hcalls => ?_) hasked hrequest⟩
  simp only [List.mem_cons, Completion.answer.injEq, List.not_mem_nil, or_false] at hcalls
  rcases hcalls with ⟨-, rfl⟩ | ⟨-, rfl⟩
  · decide
  · decide

end RelyLoop.Agent
