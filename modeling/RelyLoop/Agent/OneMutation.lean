import RelyLoop.Agent.Orchestrator

/-!
# One mutation for one confirmation

Which mutating tools a turn invokes. The flag of the loop is set when a mutating
tool has returned, so a tool that raises leaves the confirmation unspent: the turn
invokes one mutating tool at most exactly when the first confirmed call returns, or
is the only one.
-/

namespace RelyLoop.Agent

open Python

/-- The mutating tools that a turn invokes. -/
def mutations (events : List Event) : List String :=
  events.filterMap fun event =>
    match event with
    | .invoke toolName _ => if toolName ∈ mutatingToolNames then some toolName else none
    | _ => none

/-- The tool calls that a turn comes to, in order. -/
def processedCalls : ℕ → List Completion → List AnsweredCall
  | left + 1, .answer _ calls :: script =>
    if calls.isEmpty then [] else calls ++ processedCalls left script
  | _, _ => []

/-- The call passes the validation gate, names a mutating tool, and its tool is
the one that the user has confirmed. -/
def isConfirmedMutation (input : TurnInput) (c : AnsweredCall) : Bool :=
  decide (c.call.name ∈ toolNames) && c.validationError.isNone &&
    decide (c.call.name ∈ mutatingToolNames) &&
    isAuthorizedMutation input.table c.call.name input.lastAssistantText input.lastUserText

/-- The calls up to the first one whose tool returns. -/
def throughSuccess : List AnsweredCall → List AnsweredCall
  | [] => []
  | c :: cs => if c.outcome.isOk then [c] else c :: throughSuccess cs

/-- The first confirmed call of a mutating tool returns, if there is another one. -/
def FirstMutationReturns (input : TurnInput) (script : List Completion) : Prop :=
  ∀ c c' rest, (processedCalls maxLoopIterations script).filter (isConfirmedMutation input) =
    c :: c' :: rest → c.outcome.isOk = true

/-- The message right before the user's is a reply that names the tool and no other
mutating tool and does not negate it, and the user's message is affirmative. -/
def ConfirmedBy (table : CharacterTable) (toolName : String) (allMessages : List Message)
    (userText : String) : Prop :=
  ∃ previous text notice calls, (keptMessages allMessages).dropLast.getLast? = some previous ∧
    previous.body = .assistant text notice calls ∧ Confirmed table toolName text userText

variable {input : TurnInput} {state : TurnState} {c : AnsweredCall} {cs cs' : List AnsweredCall}

@[simp] theorem mutations_append (events events' : List Event) :
    mutations (events ++ events') = mutations events ++ mutations events' := by
  simp [mutations]

@[simp] theorem mutations_tokens (deltas : List String) : mutations (deltas.map .token) = [] := by
  simp [mutations]

/-! ## The calls of a completion -/

/-- A mutating tool is invoked when its call is confirmed and the confirmation unspent. -/
theorem refusal_eq_none_iff (hmutating : c.call.name ∈ mutatingToolNames) (spent : Bool) :
    refusal input spent c = none ↔ spent = false ∧ isConfirmedMutation input c = true := by
  unfold refusal isConfirmedMutation
  by_cases hknown : c.call.name ∈ toolNames
  · cases herror : c.validationError with
    | some detail => simp [hknown]
    | none => cases spent <;> simp [hknown, hmutating]
  · simp [hknown]

theorem mutations_answerCall : mutations (answerCall input state c).1 =
    if state.mutatingDispatched = false ∧ isConfirmedMutation input c = true then [c.call.name]
    else [] := by
  by_cases hmutating : c.call.name ∈ mutatingToolNames
  · rw [← if_congr (refusal_eq_none_iff hmutating state.mutatingDispatched) rfl rfl]
    unfold answerCall
    cases hrefusal : refusal input state.mutatingDispatched c with
    | some payload => simp [mutations, reports]
    | none => cases c.outcome <;> simp [mutations, reports, hmutating]
  · have hother : isConfirmedMutation input c = false := by simp [isConfirmedMutation, hmutating]
    unfold answerCall
    cases refusal input state.mutatingDispatched c with
    | some payload => simp [mutations, reports, hother]
    | none => cases c.outcome <;> simp [mutations, reports, hmutating, hother]

theorem mutatingDispatched_answerCall : (answerCall input state c).2.mutatingDispatched =
    (state.mutatingDispatched || (isConfirmedMutation input c && c.outcome.isOk)) := by
  by_cases hmutating : c.call.name ∈ mutatingToolNames
  · have hiff : refusal input state.mutatingDispatched c = none ↔
        state.mutatingDispatched = false ∧ isConfirmedMutation input c = true :=
      refusal_eq_none_iff hmutating state.mutatingDispatched
    unfold answerCall
    cases hrefusal : refusal input state.mutatingDispatched c with
    | some payload =>
      cases hspent : state.mutatingDispatched with
      | true => simp
      | false =>
        rw [hspent] at hrefusal hiff
        have hunconfirmed : isConfirmedMutation input c = false := by
          simpa [hrefusal] using hiff
        simp [hunconfirmed]
    | none =>
      obtain ⟨hspent, hconfirmed⟩ := hiff.mp hrefusal
      cases c.outcome <;> simp [hspent, hconfirmed, hmutating, Except.isOk, Except.toBool]
  · have hother : isConfirmedMutation input c = false := by simp [isConfirmedMutation, hmutating]
    unfold answerCall
    cases refusal input state.mutatingDispatched c with
    | some payload => simp [hother]
    | none => cases c.outcome <;> simp [hmutating, hother]

/-- The confirmed calls that are invoked, with the confirmation spent or not. -/
def invoked (input : TurnInput) (spent : Bool) (cs : List AnsweredCall) : List AnsweredCall :=
  if spent then [] else throughSuccess (cs.filter (isConfirmedMutation input))

/-- The calls of a completion invoke the confirmed calls through the first that
returns, and leave the confirmation spent if one has returned. -/
theorem mutations_answerCalls :
    mutations (answerCalls input state cs).1 =
        (invoked input state.mutatingDispatched cs).map (·.call.name) ∧
      (answerCalls input state cs).2.mutatingDispatched = (state.mutatingDispatched ||
        (cs.filter (isConfirmedMutation input)).any (·.outcome.isOk)) := by
  induction cs generalizing state with
  | nil => simp [answerCalls, mutations, invoked, throughSuccess]
  | cons c cs ih =>
    obtain ⟨hmutations, hspent⟩ := @ih (answerCall input state c).2
    rw [mutatingDispatched_answerCall] at hmutations hspent
    simp only [answerCalls, mutations_append, mutations_answerCall, hmutations, hspent]
    cases state.mutatingDispatched with
    | true => simp [invoked]
    | false =>
      cases hconfirmed : isConfirmedMutation input c with
      | false => simp [invoked, hconfirmed]
      | true => cases hok : c.outcome.isOk <;> simp [invoked, hconfirmed, throughSuccess, hok]

theorem throughSuccess_append (h : cs.any (·.outcome.isOk) = false) :
    throughSuccess (cs ++ cs') = throughSuccess cs ++ throughSuccess cs' := by
  induction cs with
  | nil => simp [throughSuccess]
  | cons c cs ih =>
    simp only [List.any_cons, Bool.or_eq_false_iff] at h
    simp [throughSuccess, h.1, ih h.2]

theorem throughSuccess_append_of_any (h : cs.any (·.outcome.isOk) = true) :
    throughSuccess (cs ++ cs') = throughSuccess cs := by
  induction cs with
  | nil => simp at h
  | cons c cs ih =>
    cases hok : c.outcome.isOk with
    | true => simp [throughSuccess, hok]
    | false =>
      simp only [List.any_cons, hok, Bool.false_or] at h
      simp [throughSuccess, hok, ih h]

/-- What is invoked of two lists of calls, one after the other. -/
theorem invoked_append (spent : Bool) : invoked input spent (cs ++ cs') = invoked input spent cs ++
    invoked input (spent || (cs.filter (isConfirmedMutation input)).any (·.outcome.isOk)) cs' := by
  unfold invoked
  cases spent with
  | true => simp
  | false =>
    rw [List.filter_append]
    cases hany : (cs.filter (isConfirmedMutation input)).any (·.outcome.isOk) with
    | true => simp [throughSuccess_append_of_any hany]
    | false => simp [throughSuccess_append hany]

/-! ## The turn -/

/-- The loop invokes the confirmed calls through the first that returns. -/
theorem mutations_turnLoop (left iterations : ℕ) (script : List Completion) :
    mutations (turnLoop input left iterations state script) =
      (invoked input state.mutatingDispatched (processedCalls left script)).map (·.call.name) := by
  induction left generalizing iterations state script with
  | zero => simp [turnLoop, processedCalls, mutations, invoked, throughSuccess]
  | succ left ih =>
    cases script with
    | nil => simp [turnLoop, processedCalls, mutations, invoked, throughSuccess]
    | cons completion script =>
      cases completion with
      | overBudget => simp [turnLoop, processedCalls, mutations, invoked, throughSuccess]
      | rateLimited => simp [turnLoop, processedCalls, mutations, invoked, throughSuccess]
      | breaks deltas => simp [turnLoop, processedCalls, mutations, invoked, throughSuccess]
      | answer deltas calls =>
        by_cases hcalls : calls = []
        · simp [turnLoop, processedCalls, mutations, invoked, throughSuccess, hcalls]
        · let asked : TurnState := { state with
            history := state.history ++
              [.assistant (String.join deltas) (calls.map AnsweredCall.call)] }
          obtain ⟨hmutations, hspent⟩ :=
            @mutations_answerCalls input asked calls
          have hrest := @ih (answerCalls input asked calls).2 (iterations + 1) script
          have hloop : mutations (turnLoop input (left + 1) iterations state
              (.answer deltas calls :: script)) = mutations (answerCalls input asked calls).1 ++
                mutations (turnLoop input left (iterations + 1) (answerCalls input asked calls).2
                  script) := by
            simp [turnLoop, hcalls, mutations, asked]
          rw [hloop, hmutations, hrest, hspent]
          simp [processedCalls, hcalls, invoked_append, asked]

/-- Exactly when the first one returns, one call at most is invoked. -/
theorem length_throughSuccess_le_one_iff :
    (throughSuccess cs).length ≤ 1 ↔
      ∀ c c' rest, cs = c :: c' :: rest → c.outcome.isOk = true := by
  cases cs with
  | nil => simp [throughSuccess]
  | cons c cs =>
    cases cs with
    | nil => cases hok : c.outcome.isOk <;> simp [throughSuccess, hok]
    | cons c' cs =>
      cases hok : c.outcome.isOk with
      | true => simp [throughSuccess, hok]
      | false => cases hok' : c'.outcome.isOk <;> simp [throughSuccess, hok, hok']

theorem mutations_runTurn (history : List HistoryMessage) (script : List Completion) :
    mutations (runTurn input history script) =
      (throughSuccess ((processedCalls maxLoopIterations script).filter
        (isConfirmedMutation input))).map (·.call.name) := by
  have hnotice : mutations (if !input.toolsEnabled && !input.degradedNoticeAlreadySent then
      [.persistAssistant degradedNoticeText true [], .token degradedNoticeText] else []) = [] := by
    split <;> rfl
  rw [runTurn, mutations_append, hnotice, List.nil_append, mutations_turnLoop]
  simp [invoked]

theorem mem_of_mem_throughSuccess (h : c ∈ throughSuccess cs) : c ∈ cs := by
  induction cs with
  | nil => exact h
  | cons c' cs ih =>
    unfold throughSuccess at h
    split at h
    · exact List.mem_cons.mpr (Or.inl (List.mem_singleton.mp h))
    · rcases List.mem_cons.mp h with rfl | hrest
      · exact List.mem_cons_self
      · exact List.mem_cons_of_mem c' (ih hrest)

/-- The text that the guard reads is the message right before the user's. -/
theorem lastAssistantText_eq_some {allMessages : List Message} {text : String}
    (h : lastAssistantText allMessages = some text) :
    ∃ previous notice calls, (keptMessages allMessages).dropLast.getLast? = some previous ∧
      previous.body = .assistant text notice calls := by
  unfold lastAssistantText at h
  split at h
  · rename_i id createdAt text' notice calls hprevious
    split at h
    · cases h
    · obtain rfl := Option.some.inj h
      exact ⟨_, notice, calls, hprevious, rfl⟩
  · cases h

/-- For every conversation, script of completions and outcome of the tools: the turn
invokes one mutating tool at most, and only a confirmed one, exactly when the first
confirmed call of a mutating tool returns or is the only one. -/
theorem one_mutation_iff (table : CharacterTable) (quote : String → String) (toolsEnabled : Bool)
    (userText : String) (allMessages : List Message) (script : List Completion) :
    ((mutations (runTurn (turnInput table quote toolsEnabled userText allMessages)
          (buildHistory allMessages) script)).length ≤ 1 ∧
      ∀ toolName ∈ mutations (runTurn (turnInput table quote toolsEnabled userText allMessages)
          (buildHistory allMessages) script), ConfirmedBy table toolName allMessages userText) ↔
      FirstMutationReturns (turnInput table quote toolsEnabled userText allMessages) script := by
  rw [mutations_runTurn, List.length_map, length_throughSuccess_le_one_iff]
  refine ⟨fun h => h.1, fun h => ⟨h, fun toolName hmem => ?_⟩⟩
  obtain ⟨c, hc, rfl⟩ := List.mem_map.mp hmem
  have hconfirmed := (List.mem_filter.mp (mem_of_mem_throughSuccess hc)).2
  simp only [isConfirmedMutation, Bool.and_eq_true] at hconfirmed
  obtain ⟨text, htext, hguard⟩ := confirmed_of_isAuthorizedMutation hconfirmed.2
  obtain ⟨previous, notice, calls, hprevious, hbody⟩ := lastAssistantText_eq_some htext
  exact ⟨previous, text, notice, calls, hprevious, hbody, hguard⟩

/-- A conversation in which the user confirms a pull request. -/
def confirmedConversation : List Message :=
  [⟨1, 1, .user "Open the pull request."⟩, ⟨2, 2, .assistant "Shall I call open_pr now?" false []⟩,
    ⟨3, 3, .user "yes"⟩]

/-- A call of `open_pr`. -/
def openPr (id proposalId : String) (outcome : Except ToolException String) : AnsweredCall where
  call := ⟨id, "open_pr", proposalId⟩
  validationError := none
  session := [.statement, .commit]
  outcome := outcome

/-- A tool that raises does not spend the confirmation: two pull requests are opened
for one answer. -/
theorem raising_mutation_is_repeated :
    ¬ (mutations (runTurn (turnInput asciiTable id true "yes" confirmedConversation)
      (buildHistory confirmedConversation)
      [.answer [] [openPr "a" "1" (.error ⟨"connection lost", none⟩),
        openPr "b" "2" (.ok "opened")]])).length ≤ 1 := by
  decide +kernel

end RelyLoop.Agent
