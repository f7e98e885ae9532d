import RelyLoop.Agent.ToolGroups

/-!
# The truncation of a history

A history over the cap is cut, and the cut moves on to the next user message or plain
reply. What is kept is a well-formed end of the history. More is lost than the group in
which the cut lands when another group follows it.
-/

namespace RelyLoop.Agent

variable {messages kept before group after : List Message} {cap : ℕ}

/-- A message with tool calls, and one result for each of them. -/
def IsToolGroup (group : List Message) : Prop :=
  ∃ text calls results, calls ≠ [] ∧ Answers calls results ∧
    group.map rowToOpenaiMessage = .assistant text calls :: results.map resultMessage

/-- The message with a number is one of a group. -/
structure LandsIn (messages : List Message) (index : ℕ) (before group after : List Message) :
    Prop where
  split : messages = before ++ (group ++ after)
  isToolGroup : IsToolGroup group
  start_le : before.length ≤ index
  lt_end : index < before.length + group.length

/-- What is kept is a well-formed end of the messages, no longer than the cap and with the
same last message. Of the last messages under the cap it lacks none, or only such of the
group in which the cut lands. -/
structure LosesOneGroup (messages : List Message) (cap : ℕ) (kept : List Message) : Prop where
  suffix : kept <:+ messages
  length_le : kept.length ≤ cap
  wellFormed : WellFormed (kept.map rowToOpenaiMessage)
  last : kept.getLast? = messages.getLast?
  lost : kept = messages.drop (messages.length - cap) ∨
    ∃ before group after, LandsIn messages (messages.length - cap) before group after ∧
      after <:+ kept

/-- Nothing is cut, the cut lands on a user message or a plain reply, or such a message
follows the group in which it lands. -/
def CutsOneGroup (messages : List Message) (cap : ℕ) : Prop :=
  messages.length ≤ cap ∨
    (∃ message ∈ messages[messages.length - cap]?, isBoundary message = true) ∨
    ∃ before group after, LandsIn messages (messages.length - cap) before group after ∧
      ∃ message ∈ after.head?, isBoundary message = true

/-! ## Boundaries -/

theorem isBoundary_iff {message : Message} :
    isBoundary message = true ↔ IsPlain (rowToOpenaiMessage message) := by
  unfold isBoundary rowToOpenaiMessage IsPlain
  cases message.body with
  | user text => simp
  | assistant text notice calls => simp
  | tool callId payload => simp

/-- No message of a group is a boundary. -/
theorem IsToolGroup.not_isBoundary (h : IsToolGroup group) :
    ∀ message ∈ group, isBoundary message = false := by
  obtain ⟨text, calls, results, hcalls, -, hmap⟩ := h
  intro message hmem
  have hrow : rowToOpenaiMessage message ∈ group.map rowToOpenaiMessage :=
    List.mem_map_of_mem hmem
  rw [Bool.eq_false_iff, Ne, isBoundary_iff]
  rw [hmap] at hrow
  rcases List.mem_cons.mp hrow with heq | hresult
  · rw [heq]
    exact hcalls
  · obtain ⟨result, -, heq⟩ := List.mem_map.mp hresult
    rw [← heq]
    exact id

/-- A well-formed history is so from any plain message on. -/
theorem WellFormed.drop_before_plain {history earlier rest : List HistoryMessage}
    {message : HistoryMessage} (h : WellFormed history) (hplain : IsPlain message)
    (hsplit : history = earlier ++ message :: rest) : WellFormed (message :: rest) := by
  induction h generalizing earlier with
  | nil => simp at hsplit
  | plain hfirst hrest ih =>
    cases earlier with
    | nil =>
      obtain ⟨rfl, rfl⟩ := List.cons.inj hsplit
      exact .plain hfirst hrest
    | cons first earlier => exact ih (List.cons.inj hsplit).2
  | @group text calls results rest' hanswers hrest ih =>
    cases earlier with
    | nil =>
      obtain ⟨rfl, rfl⟩ := List.cons.inj hsplit
      exact .group hanswers hrest
    | cons first earlier =>
      -- the plain message is not one of the results
      rcases List.append_eq_append_iff.mp (List.cons.inj hsplit).2 with
        ⟨middle, -, hmiddle⟩ | ⟨middle, hresults, hmiddle⟩
      · exact ih hmiddle
      · cases middle with
        | nil =>
          have hrest' : rest' = [] ++ message :: rest := hmiddle.symm
          exact ih hrest'
        | cons result middle =>
          obtain ⟨rfl, -⟩ := List.cons.inj hmiddle
          have hmem : message ∈ results.map resultMessage := by
            rw [hresults]
            exact List.mem_append_right _ List.mem_cons_self
          obtain ⟨result, -, rfl⟩ := List.mem_map.mp hmem
          exact hplain.elim

/-! ## What is kept -/

/-- A user's message is a boundary. -/
theorem isBoundary_of_user {message : Message} {text : String} (h : message.body = .user text) :
    isBoundary message = true := by
  rw [isBoundary, h]

theorem getLast?_of_isSuffix (h : kept <:+ messages) (hne : kept ≠ []) :
    kept.getLast? = messages.getLast? := by
  obtain ⟨earlier, rfl⟩ := h
  rw [List.getLast?_append_of_ne_nil earlier hne]

/-- The cut moves on to the first boundary. -/
theorem truncate_of_lt (h : cap < messages.length) :
    truncatePreservingToolGroups messages cap =
      (messages.drop (messages.length - cap)).dropWhile fun message => !isBoundary message :=
  if_neg (by omega)

theorem truncate_isSuffix (messages : List Message) (cap : ℕ) :
    truncatePreservingToolGroups messages cap <:+ messages := by
  unfold truncatePreservingToolGroups
  split
  · exact List.suffix_refl messages
  · exact (List.dropWhile_suffix _).trans (List.drop_suffix _ messages)

theorem length_truncate_le (messages : List Message) (cap : ℕ) :
    (truncatePreservingToolGroups messages cap).length ≤ cap := by
  unfold truncatePreservingToolGroups
  split
  · assumption
  · have hlength := (List.dropWhile_suffix (l := messages.drop (messages.length - cap))
      fun message => !isBoundary message).length_le
    rw [List.length_drop] at hlength
    omega

/-- Something is kept of messages that end with a boundary. -/
theorem truncate_ne_nil {last : Message} (hlast : messages.getLast? = some last)
    (hboundary : isBoundary last = true) (hcap : 1 ≤ cap) :
    truncatePreservingToolGroups messages cap ≠ [] := by
  have hne : messages ≠ [] := by
    rintro rfl
    cases hlast
  by_cases hshort : messages.length ≤ cap
  · rwa [truncatePreservingToolGroups, if_pos hshort]
  · rw [truncate_of_lt (by omega)]
    intro hnil
    have htail : messages.drop (messages.length - cap) ≠ [] := by
      rw [Ne, List.drop_eq_nil_iff]
      omega
    have hmem : last ∈ messages.drop (messages.length - cap) := by
      apply List.mem_of_getLast?
      rw [getLast?_of_isSuffix (List.drop_suffix _ messages) htail, hlast]
    have hskipped := List.dropWhile_eq_nil_iff.mp hnil last hmem
    rw [hboundary] at hskipped
    cases hskipped

/-- The truncation of a well-formed history is well formed. -/
theorem wellFormed_truncate (h : WellFormed (messages.map rowToOpenaiMessage)) (cap : ℕ) :
    WellFormed ((truncatePreservingToolGroups messages cap).map rowToOpenaiMessage) := by
  by_cases hshort : messages.length ≤ cap
  · rwa [truncatePreservingToolGroups, if_pos hshort]
  · cases hkept : truncatePreservingToolGroups messages cap with
    | nil => exact .nil
    | cons message rest =>
      obtain ⟨earlier, hsplit⟩ := truncate_isSuffix messages cap
      rw [hkept] at hsplit
      have hboundary : isBoundary message = true := by
        have hstop := List.head?_dropWhile_not (fun message => !isBoundary message)
          (messages.drop (messages.length - cap))
        rw [← truncate_of_lt (by omega), hkept] at hstop
        simpa using hstop
      rw [List.map_cons]
      apply h.drop_before_plain (isBoundary_iff.mp hboundary)
      rw [← hsplit, List.map_append, List.map_cons]

/-! ## What is lost -/

/-- Rows that begin with a boundary are kept as they are. -/
theorem dropWhile_eq_self_iff (rows : List Message) :
    (rows.dropWhile fun message => !isBoundary message) = rows ↔
      rows = [] ∨ ∃ message ∈ rows.head?, isBoundary message = true := by
  cases rows with
  | nil => simp
  | cons message rows =>
    cases hboundary : isBoundary message with
    | true => simp [hboundary]
    | false =>
      have hlength := (List.dropWhile_suffix (l := rows) fun message => !isBoundary message).length_le
      have hshorter : (message :: rows).dropWhile (fun message => !isBoundary message) ≠
          message :: rows := by
        intro heq
        rw [List.dropWhile_cons_of_pos (by simp [hboundary])] at heq
        rw [heq, List.length_cons] at hlength
        omega
      apply iff_of_false hshorter
      simp [hboundary]

/-- Nothing is kept of the group in which the cut lands. -/
theorem LandsIn.truncate_eq (h : LandsIn messages (messages.length - cap) before group after)
    (hlong : cap < messages.length) : truncatePreservingToolGroups messages cap =
      after.dropWhile fun message => !isBoundary message := by
  obtain ⟨hsplit, hgroup, hstart, hend⟩ := h
  rw [truncate_of_lt hlong]
  generalize messages.length - cap = index at hstart hend
  have hafter : index - before.length - group.length = 0 := by omega
  rw [hsplit, List.drop_append, List.drop_append, List.drop_eq_nil_of_le hstart, hafter,
    List.nil_append, List.drop_zero, List.dropWhile_append_of_pos]
  intro message hmem
  rw [hgroup.not_isBoundary message (List.mem_of_mem_drop hmem)]
  rfl

/-- Of the last messages under the cap one group is lost at most. -/
theorem lost_iff (hne : truncatePreservingToolGroups messages cap ≠ []) :
    (truncatePreservingToolGroups messages cap = messages.drop (messages.length - cap) ∨
      ∃ before group after, LandsIn messages (messages.length - cap) before group after ∧
        after <:+ truncatePreservingToolGroups messages cap) ↔ CutsOneGroup messages cap := by
  by_cases hshort : messages.length ≤ cap
  · apply iff_of_true
    · left
      rw [truncatePreservingToolGroups, if_pos hshort, Nat.sub_eq_zero_of_le hshort, List.drop_zero]
    · exact Or.inl hshort
  have hlong : cap < messages.length := by omega
  constructor
  · rintro (hall | ⟨before, group, after, hlands, hsuffix⟩)
    · right
      left
      rw [truncate_of_lt hlong] at hall hne
      rcases (dropWhile_eq_self_iff _).mp hall with hnil | ⟨message, hhead, hboundary⟩
      · exact absurd (hall.trans hnil) hne
      · rw [List.head?_drop] at hhead
        exact ⟨message, hhead, hboundary⟩
    · right
      right
      rw [hlands.truncate_eq hlong] at hsuffix hne
      have heq := (List.dropWhile_suffix _).eq_of_length_le hsuffix.length_le
      rcases (dropWhile_eq_self_iff after).mp heq with hnil | hhead
      · exact absurd (heq.trans hnil) hne
      · exact ⟨before, group, after, hlands, hhead⟩
  · rintro (hle | ⟨message, hmem, hboundary⟩ | ⟨before, group, after, hlands, hhead⟩)
    · omega
    · left
      rw [truncate_of_lt hlong, dropWhile_eq_self_iff]
      exact Or.inr ⟨message, by rwa [List.head?_drop], hboundary⟩
    · right
      have hkept := (hlands.truncate_eq hlong).trans
        ((dropWhile_eq_self_iff after).mpr (Or.inr hhead))
      exact ⟨before, group, after, hlands, [], hkept.symm⟩

/-- The truncation of a well-formed history that ends with the user's message loses one
group exactly when no further group follows the one in which the cut lands. -/
theorem losesOneGroup_truncate_iff (hwell : WellFormed (messages.map rowToOpenaiMessage))
    {last : Message} {text : String} (hlast : messages.getLast? = some last)
    (huser : last.body = .user text) (hcap : 1 ≤ cap) :
    LosesOneGroup messages cap (truncatePreservingToolGroups messages cap) ↔
      CutsOneGroup messages cap := by
  have hne := truncate_ne_nil hlast (isBoundary_of_user huser) hcap
  constructor
  · exact fun h => (lost_iff hne).mp h.lost
  · intro h
    constructor
    · exact truncate_isSuffix messages cap
    · exact length_truncate_le messages cap
    · exact wellFormed_truncate hwell cap
    · exact getLast?_of_isSuffix (truncate_isSuffix messages cap) hne
    · exact (lost_iff hne).mpr h

/-- A turn that calls a tool twice, one call after the other's result, and the next
message of the user. -/
def twoGroups : List Message :=
  [⟨0, 0, .user "Start the study."⟩,
    ⟨1, 1, .assistant "" false [⟨"call-a", "list_query_sets", ""⟩]⟩,
    ⟨2, 2, .tool "call-a" (.result "[]")⟩,
    ⟨3, 3, .assistant "" false [⟨"call-b", "list_templates", ""⟩]⟩,
    ⟨4, 4, .tool "call-b" (.result "[]")⟩,
    ⟨5, 5, .user "Go on."⟩]

theorem wellFormed_twoGroups : WellFormed (twoGroups.map rowToOpenaiMessage) := by
  apply wellFormed_of_followAll
  · simp [twoGroups, callIds]
  · rfl

theorem losesOneGroup_truncate_iff_twoGroups :
    LosesOneGroup twoGroups 2 (truncatePreservingToolGroups twoGroups 2) ↔
      CutsOneGroup twoGroups 2 :=
  losesOneGroup_truncate_iff wellFormed_twoGroups rfl rfl (by omega)

/-- Behind its first message a group has results only. -/
theorem IsToolGroup.body_of_mem_tail (h : IsToolGroup group) {message : Message}
    (hmem : message ∈ group.tail) : ∃ callId payload, message.body = .tool callId payload := by
  obtain ⟨text, calls, results, -, -, hmap⟩ := h
  have hrow : rowToOpenaiMessage message ∈ results.map resultMessage := by
    have htail := congrArg List.tail hmap
    rw [← List.map_tail, List.tail_cons] at htail
    rw [← htail]
    exact List.mem_map_of_mem hmem
  obtain ⟨result, -, hresult⟩ := List.mem_map.mp hrow
  unfold rowToOpenaiMessage resultMessage at hresult
  cases hbody : message.body with
  | user text => simp [hbody] at hresult
  | assistant text notice calls => simp [hbody] at hresult
  | tool callId payload => exact ⟨callId, payload, rfl⟩

/-- The messages of a group behind the first one are results. -/
theorem LandsIn.body_of_getElem? {index : ℕ} (h : LandsIn messages index before group after)
    {i : ℕ} (hstart : before.length < i) (hend : i < before.length + group.length)
    {message : Message} (hi : messages[i]? = some message) :
    ∃ callId payload, message.body = .tool callId payload := by
  apply h.isToolGroup.body_of_mem_tail
  rw [h.split, List.getElem?_append_right hstart.le, List.getElem?_append_left (by omega)] at hi
  apply List.mem_of_getElem? (i := i - before.length - 1)
  rwa [List.getElem?_tail, Nat.sub_add_cancel (by omega)]

/-- The cut lands in the first group, and the second is lost as well. -/
theorem second_group_lost : WellFormed (twoGroups.map rowToOpenaiMessage) ∧
    (∃ last text, twoGroups.getLast? = some last ∧ last.body = .user text) ∧
      ¬ LosesOneGroup twoGroups 4 (truncatePreservingToolGroups twoGroups 4) := by
  refine ⟨wellFormed_twoGroups, ⟨_, _, rfl, rfl⟩, fun h => ?_⟩
  rcases h.lost with hall | ⟨before, group, after, hlands, hsuffix⟩
  · exact absurd hall (by decide)
  · have hlength : before.length + (group.length + after.length) = 6 := by
      have hsplit := congrArg List.length hlands.split
      rw [List.length_append, List.length_append] at hsplit
      exact hsplit.symm
    have hafter : after.length ≤ 1 := hsuffix.length_le
    have hstart : before.length ≤ 2 := hlands.start_le
    obtain ⟨callId, payload, hbody⟩ :=
      hlands.body_of_getElem? (i := 3) (by omega) (by omega) rfl
    cases hbody

end RelyLoop.Agent
