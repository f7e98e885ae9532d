import RelyLoop.Agent.Chat

/-!
# Groups stay whole

The rows of a conversation, in the order of `list_messages`, stay complete tool-call
groups but for one at the end that a running turn still answers, as long as no row is
stamped into a group and no group is left behind. Only the turn that has written the
calls answers them, and its results are stamped after everything else.
-/

namespace RelyLoop.Agent

open Concurrency Python

variable {T : Type} [DecidableEq T] {t : T} {w w' : ChatWorld T}

namespace ChatWorld

/-- The rows that are listed before a new row. -/
def listedBefore (w : ChatWorld T) (row : Message) : List Message :=
  w.listing.takeWhile fun message => ¬ Precedes row message

/-- The rows that are listed after a new row. -/
def listedAfter (w : ChatWorld T) (row : Message) : List Message :=
  w.listing.dropWhile fun message => ¬ Precedes row message

omit [DecidableEq T] in
@[simp] theorem mem_listing {message : Message} : message ∈ w.listing ↔ message ∈ w.rows :=
  List.mem_insertionSort Precedes

omit [DecidableEq T] in
theorem listing_eq (w : ChatWorld T) (row : Message) :
    w.listing = w.listedBefore row ++ w.listedAfter row := List.takeWhile_append_dropWhile.symm

/-- A new row takes its place in the listing. -/
theorem listing_createMessage (body : Body) (title : Option String) :
    (w.createMessage t body title).listing =
      w.listedBefore (w.newRow t body) ++ w.newRow t body :: w.listedAfter (w.newRow t body) :=
  List.orderedInsert_eq_take_drop Precedes (w.newRow t body) w.listing

omit [DecidableEq T] in
/-- A row that is stamped later than all others is listed last. -/
theorem listedAfter_eq_nil {row : Message} (h : ∀ message ∈ w.rows, message.createdAt < row.createdAt) :
    w.listedAfter row = [] := by
  apply List.dropWhile_eq_nil_iff.mpr
  intro message hmem
  have hlater := h message (mem_listing.mp hmem)
  have hnot : ¬ Precedes row message := by
    unfold Precedes
    omega
  simpa using hnot

omit [DecidableEq T] in
/-- A row that is not listed last is stamped no later than another one. -/
theorem exists_createdAt_le {row : Message} (h : w.listedAfter row ≠ []) :
    ∃ message ∈ w.rows, row.createdAt ≤ message.createdAt := by
  by_contra hnone
  apply h
  apply listedAfter_eq_nil
  intro message hmem
  by_contra hle
  exact hnone ⟨message, hmem, by omega⟩

end ChatWorld

/-- No row is stamped into a group or behind an unanswered one, the calls of a row are
written at the end of the listing under distinct ids, and no history is read while
calls are unanswered. -/
def Orderly (t : T) (w : ChatWorld T) : ChatOp → Prop
  | .createMessage (.tool _ _) _ => True
  | .createMessage body _ =>
    outstanding (w.listedBefore (w.newRow t body)) = [] ∧
      (callIds body ≠ [] →
        w.listedAfter (w.newRow t body) = [] ∧ (callIds body).Nodup)
  | .listMessages => outstanding w.listing = []
  | _ => True

instance (o : ChatOp) : Decidable (Orderly t w o) :=
  match o with
  | .getConversation => inferInstanceAs (Decidable True)
  | .createMessage (.user _) _ => inferInstanceAs (Decidable (_ ∧ (_ → _)))
  | .createMessage (.assistant _ _ _) _ => inferInstanceAs (Decidable (_ ∧ (_ → _)))
  | .createMessage (.tool _ _) _ => inferInstanceAs (Decidable True)
  | .listMessages => inferInstanceAs (Decidable (_ = _))
  | .session _ => inferInstanceAs (Decidable True)

/-- The listed rows are complete groups, but for the calls of one turn at the end. -/
structure ChatInv (w : ChatWorld T) : Prop where
  grouped : followAll [] (w.listing.map Message.body) = some (outstanding w.listing)
  distinct : ∀ message ∈ w.rows, (callIds message.body).Nodup
  stamped : ∀ message ∈ w.rows, message.createdAt < w.clock
  began : ∀ t s, w.began t = some s → s < w.clock
  /-- A turn that owes answers owes those that are outstanding, and its transaction
  has begun after all rows were stamped. -/
  owner : ∀ t, w.unanswered t ≠ [] → w.unanswered t = outstanding w.listing ∧
    ∀ s, w.began t = some s → ∀ message ∈ w.rows, message.createdAt < s
  single : ∀ t t', w.unanswered t ≠ [] → w.unanswered t' ≠ [] → t = t'

namespace ChatInv

omit [DecidableEq T] in
/-- The row of a turn that owes answers is stamped later than all others. -/
theorem newRow_later (h : ChatInv w) (howes : w.unanswered t ≠ []) (body : Body) :
    ∀ message ∈ w.rows, message.createdAt < (w.newRow t body).createdAt := by
  intro message hmem
  cases hbegan : w.began t with
  | none => simpa [ChatWorld.newRow, hbegan] using h.stamped message hmem
  | some s => simpa [ChatWorld.newRow, hbegan] using (h.owner t howes).2 s hbegan message hmem

omit [DecidableEq T] in
theorem newRow_stamped (h : ChatInv w) (body : Body) :
    (w.newRow t body).createdAt < w.clock + 1 := by
  cases hbegan : w.began t with
  | none => simp [ChatWorld.newRow, hbegan]
  | some s =>
    have hs := h.began t s hbegan
    simp only [ChatWorld.newRow, hbegan, Option.getD_some]
    omega

/-! ## Statements and commits -/

theorem statement (h : ChatInv w) : ChatInv (w.statement t) where
  grouped := h.grouped
  distinct := h.distinct
  stamped message hmem := Nat.lt_succ_of_lt (h.stamped message hmem)
  began t' s hs := by
    by_cases hne : t' = t
    · subst hne
      obtain rfl : (w.began t').getD w.clock = s := by simpa [ChatWorld.statement] using hs
      exact h.newRow_stamped (.user "")
    · have hs' : w.began t' = some s := by simpa [ChatWorld.statement, hne] using hs
      exact Nat.lt_succ_of_lt (h.began t' s hs')
  owner t' howes := by
    refine ⟨(h.owner t' howes).1, fun s hs => ?_⟩
    by_cases hne : t' = t
    · subst hne
      obtain rfl : (w.began t').getD w.clock = s := by simpa [ChatWorld.statement] using hs
      exact h.newRow_later howes (.user "")
    · have hs' : w.began t' = some s := by simpa [ChatWorld.statement, hne] using hs
      exact (h.owner t' howes).2 s hs'
  single := h.single

theorem commit (h : ChatInv w) : ChatInv (w.commit t) where
  grouped := h.grouped
  distinct := h.distinct
  stamped message hmem := Nat.lt_succ_of_lt (h.stamped message hmem)
  began t' s hs := by
    by_cases hne : t' = t
    · simp [ChatWorld.commit, hne] at hs
    · have hs' : w.began t' = some s := by simpa [ChatWorld.commit, hne] using hs
      exact Nat.lt_succ_of_lt (h.began t' s hs')
  owner t' howes := by
    refine ⟨(h.owner t' howes).1, fun s hs => ?_⟩
    by_cases hne : t' = t
    · simp [ChatWorld.commit, hne] at hs
    · have hs' : w.began t' = some s := by simpa [ChatWorld.commit, hne] using hs
      exact (h.owner t' howes).2 s hs'
  single := h.single

theorem discard (h : ChatInv w) : ChatInv (w.discard t) where
  grouped := h.grouped
  distinct := h.distinct
  stamped := h.stamped
  began t' s hs := by
    by_cases hne : t' = t
    · simp [ChatWorld.discard, hne] at hs
    · exact h.began t' s (by simpa [ChatWorld.discard, hne] using hs)
  owner t' howes := by
    by_cases hne : t' = t
    · simp [ChatWorld.discard, hne] at howes
    · have howes' : w.unanswered t' ≠ [] := by simpa [ChatWorld.discard, hne] using howes
      have hsame : (w.discard t).unanswered t' = w.unanswered t' := by
        simp [ChatWorld.discard, hne]
      rw [hsame]
      refine ⟨(h.owner t' howes').1, fun s hs => ?_⟩
      exact (h.owner t' howes').2 s (by simpa [ChatWorld.discard, hne] using hs)
  single t₁ t₂ h₁ h₂ := by
    by_cases hne₁ : t₁ = t
    · simp [ChatWorld.discard, hne₁] at h₁
    · by_cases hne₂ : t₂ = t
      · simp [ChatWorld.discard, hne₂] at h₂
      · apply h.single
        · simpa [ChatWorld.discard, hne₁] using h₁
        · simpa [ChatWorld.discard, hne₂] using h₂

/-! ## New rows -/

variable {body : Body} {title : Option String}

theorem createMessage (h : ChatInv w) (owed : List String)
    (hfit : followAll [] ((w.createMessage t body title).listing.map Message.body) = some owed)
    (hdistinct : (callIds body).Nodup)
    (howner : ∀ t', (w.createMessage t body title).unanswered t' ≠ [] →
      (w.createMessage t body title).unanswered t' = owed ∧
        (t' ≠ t → ∀ s, w.began t' = some s → (w.newRow t body).createdAt < s))
    (hsingle : ∀ t' t'', (w.createMessage t body title).unanswered t' ≠ [] →
      (w.createMessage t body title).unanswered t'' ≠ [] → t' = t'') :
    ChatInv (w.createMessage t body title) where
  grouped := by rw [outstanding_of_followAll hfit, hfit]
  distinct := List.forall_mem_cons.mpr ⟨hdistinct, h.distinct⟩
  stamped := List.forall_mem_cons.mpr
    ⟨h.newRow_stamped body, fun message hmem => Nat.lt_succ_of_lt (h.stamped message hmem)⟩
  began := (h.commit (t := t)).began
  owner t' howes := by
    obtain ⟨howed, hlater⟩ := howner t' howes
    refine ⟨by rw [howed, outstanding_of_followAll hfit], fun s hs => ?_⟩
    by_cases hne : t' = t
    · simp [ChatWorld.createMessage, ChatWorld.commit, hne] at hs
    · have hs' : w.began t' = some s := by
        simpa [ChatWorld.createMessage, ChatWorld.commit, hne] using hs
      have howes' : w.unanswered t' ≠ [] := by
        simpa [ChatWorld.createMessage, hne] using howes
      exact List.forall_mem_cons.mpr ⟨hlater hne s hs', (h.owner t' howes').2 s hs'⟩
  single := hsingle

/-- The turn that owes answers writes the next one at the end of the listing. -/
theorem createMessage_tool (h : ChatInv w) {callId : String} {payload : ToolPayload}
    {rest : List String} (howes : w.unanswered t = callId :: rest) :
    ChatInv (w.createMessage t (.tool callId payload) title) := by
  have hne : w.unanswered t ≠ [] := by simp [howes]
  have hlast : w.listedAfter (w.newRow t (.tool callId payload)) = [] :=
    ChatWorld.listedAfter_eq_nil (h.newRow_later hne _)
  have hbefore : w.listing = w.listedBefore (w.newRow t (.tool callId payload)) := by
    simpa [hlast] using w.listing_eq (w.newRow t (.tool callId payload))
  have hothers : ∀ t', t' ≠ t → w.unanswered t' = [] := by
    intro t' hother
    by_contra howes'
    exact hother (h.single t' t howes' hne)
  have hgrouped := h.grouped
  rw [← (h.owner t hne).1, howes] at hgrouped
  apply h.createMessage rest
  · rw [ChatWorld.listing_createMessage, hlast, ← hbefore]
    simp [hgrouped, follow, ChatWorld.newRow]
  · exact List.nodup_nil
  · intro t' howes'
    by_cases hself : t' = t
    · subst hself
      refine ⟨?_, fun hother => absurd rfl hother⟩
      simp [ChatWorld.createMessage, howes, owes]
    · simp [ChatWorld.createMessage, hself, hothers t' hself] at howes'
  · intro t₁ t₂ h₁ h₂
    by_cases hself₁ : t₁ = t
    · by_cases hself₂ : t₂ = t
      · rw [hself₁, hself₂]
      · simp [ChatWorld.createMessage, hself₂, hothers t₂ hself₂] at h₂
    · simp [ChatWorld.createMessage, hself₁, hothers t₁ hself₁] at h₁

/-- A row without calls that does not split a group. -/
theorem createMessage_plain (h : ChatInv w) (hresult : ∀ callId payload, body ≠ .tool callId payload)
    (hcalls : callIds body = []) (hbefore : outstanding (w.listedBefore (w.newRow t body)) = []) :
    ChatInv (w.createMessage t body title) := by
  have hgrouped : followAll [] ((w.listedBefore (w.newRow t body) ++
      w.listedAfter (w.newRow t body)).map Message.body) = some (outstanding w.listing) := by
    rw [← w.listing_eq (w.newRow t body)]
    exact h.grouped
  rw [List.map_append, followAll_append] at hgrouped
  obtain ⟨owed, howed, hafter⟩ := Option.bind_eq_some_iff.mp hgrouped
  obtain rfl : owed = [] := by rw [← outstanding_of_followAll howed, hbefore]
  have hsame : (w.createMessage t body title).unanswered = w.unanswered := by
    have howes : owes (w.unanswered t) body = w.unanswered t := by
      cases body with
      | tool callId payload => exact absurd rfl (hresult callId payload)
      | user text => simp [owes, callIds]
      | assistant text notice calls => simp [owes, hcalls]
    simp [ChatWorld.createMessage, howes]
  apply h.createMessage (outstanding w.listing)
  · have hfollow : follow [] (w.newRow t body).body = some [] := by
      have hfits : follow [] body = some (callIds body) := follow_nil hresult
      rwa [hcalls] at hfits
    simp [ChatWorld.listing_createMessage, howed, hfollow, hafter]
  · simp [hcalls]
  · rw [hsame]
    intro t' howes'
    refine ⟨(h.owner t' howes').1, fun _ s hs => ?_⟩
    have hnotlast : w.listedAfter (w.newRow t body) ≠ [] := by
      intro hlast
      have hall := w.listing_eq (w.newRow t body)
      rw [hlast, List.append_nil] at hall
      rw [← hall, ← (h.owner t' howes').1] at hbefore
      exact howes' hbefore
    obtain ⟨message, hmem, hle⟩ := ChatWorld.exists_createdAt_le hnotlast
    exact lt_of_le_of_lt hle ((h.owner t' howes').2 s hs message hmem)
  · rw [hsame]
    exact h.single

/-- Calls that are written at the end of the listing, when none waits. -/
theorem createMessage_calls (h : ChatInv w) (hresult : ∀ callId payload, body ≠ .tool callId payload)
    (hbefore : outstanding (w.listedBefore (w.newRow t body)) = [])
    (hlast : w.listedAfter (w.newRow t body) = []) (hdistinct : (callIds body).Nodup) :
    ChatInv (w.createMessage t body title) := by
  have hall : w.listing = w.listedBefore (w.newRow t body) := by
    simpa [hlast] using w.listing_eq (w.newRow t body)
  rw [← hall] at hbefore
  have hgrouped := h.grouped
  rw [hbefore] at hgrouped
  have hnone : ∀ t', w.unanswered t' = [] := by
    intro t'
    by_contra howes
    exact howes ((h.owner t' howes).1.trans hbefore)
  have hothers : ∀ t', t' ≠ t → (w.createMessage t body title).unanswered t' = [] := by
    intro t' hother
    simp [ChatWorld.createMessage, hother, hnone t']
  apply h.createMessage (callIds body) _ hdistinct
  · intro t' howes
    by_cases hself : t' = t
    · subst hself
      refine ⟨?_, fun hother => absurd rfl hother⟩
      cases body with
      | tool callId payload => exact absurd rfl (hresult callId payload)
      | user text => simp [ChatWorld.createMessage, hnone, owes]
      | assistant text notice calls => simp [ChatWorld.createMessage, hnone, owes]
    · exact absurd (hothers t' hself) howes
  · intro t₁ t₂ h₁ h₂
    by_contra hdiff
    by_cases hself : t₁ = t
    · exact h₂ (hothers t₂ fun h₂' => hdiff (hself.trans h₂'.symm))
    · exact h₁ (hothers t₁ hself)
  · rw [ChatWorld.listing_createMessage, hlast, ← hall]
    simp [hgrouped, follow_nil hresult, ChatWorld.newRow]

/-- What a turn owes before a row that it may write next. -/
theorem createMessage_of_orderly (h : ChatInv w) (hfollow : (follow (w.unanswered t) body).isSome)
    (hcond : Orderly t w (.createMessage body title)) :
    ChatInv (w.createMessage t body title) := by
  obtain ⟨owed, howed⟩ := Option.isSome_iff_exists.mp hfollow
  rcases follow_eq_some howed with ⟨callId, payload, rfl, howes⟩ | ⟨hresult, -, -⟩
  · exact h.createMessage_tool howes
  · have horderly : outstanding (w.listedBefore (w.newRow t body)) = [] ∧ (callIds body ≠ [] →
        w.listedAfter (w.newRow t body) = [] ∧ (callIds body).Nodup) := by
      cases body with
      | tool callId payload => exact absurd rfl (hresult callId payload)
      | user text => exact hcond
      | assistant text notice calls => exact hcond
    obtain ⟨hbefore, hcalls⟩ := horderly
    by_cases hnone : callIds body = []
    · exact h.createMessage_plain hresult hnone hbefore
    · obtain ⟨hlast, hdistinct⟩ := hcalls hnone
      exact h.createMessage_calls hresult hbefore hlast hdistinct

end ChatInv

/-! ## The turn -/

/-- The turns agree to keep the groups whole and to answer their own calls only. -/
def chatContract (T : Type) [DecidableEq T] : Contract T ChatTurn (ChatWorld T) ChatOp where
  inv := ChatInv
  change _ _ _ := True
  rely t w w' := w'.unanswered t = w.unanswered t
  cond := Orderly
  rely_refl _ _ := rfl
  rely_trans _ _ _ _ h h' := h'.trans h

section Code

variable (table : CharacterTable) (quote : String → String) {turn : ChatTurn} {owed : List String}

omit [DecidableEq T] in
/-- An operation that writes no row begins a transaction or ends it. -/
theorem exec_of_reads [DecidableEq T] {o : ChatOp} {r : o.Res}
    (hreads : ∀ body title, o ≠ .createMessage body title) (h : w.exec t o = some (w', r)) :
    w' = w.statement t ∨ w' = w.commit t := by
  cases o with
  | getConversation => exact Or.inl (Prod.mk.inj (Option.some.inj h)).1.symm
  | createMessage body title => exact absurd rfl (hreads body title)
  | listMessages => exact Or.inl (Prod.mk.inj (Option.some.inj h)).1.symm
  | session step =>
    cases step with
    | statement => exact Or.inl (Prod.mk.inj (Option.some.inj h)).1.symm
    | commit => exact Or.inr (Prod.mk.inj (Option.some.inj h)).1.symm

theorem safe_reads {o : ChatOp} (hreads : ∀ body title, o ≠ .createMessage body title)
    (howed : w.unanswered t = owed) :
    Safe (chatSystem table quote T) (chatContract T) t turn
      (fun _ w' => w'.unanswered t = owed) (fun _ _ => True)
      (Program.perform o : ChatProgram o.Res) w := by
  intro w₁ hrely hinv _ w₂ r hexec
  have howed₁ : w₁.unanswered t = owed := Eq.trans hrely howed
  rcases exec_of_reads hreads hexec with rfl | rfl
  · exact ⟨⟨hinv.statement, trivial, fun _ _ => rfl⟩, howed₁⟩
  · exact ⟨⟨hinv.commit, trivial, fun _ _ => rfl⟩, howed₁⟩

/-- A row that the turn may write next, given what it owes. -/
theorem safe_createMessage {body : Body} {title : Option String} {owed' : List String}
    (hfollow : follow owed body = some owed') (howed : w.unanswered t = owed) :
    Safe (chatSystem table quote T) (chatContract T) t turn
      (fun _ w' => w'.unanswered t = owed') (fun _ _ => True) (createMessage body title) w := by
  intro w₁ hrely hinv hcond w₂ r hexec
  have howed₁ : w₁.unanswered t = owed := Eq.trans hrely howed
  obtain ⟨rfl, -⟩ := Prod.mk.inj (Option.some.inj hexec)
  refine ⟨⟨hinv.createMessage_of_orderly (by simp [howed₁, hfollow]) hcond, trivial,
    fun t' hother => ?_⟩, ?_⟩
  · exact Function.update_of_ne hother _ _
  · simp [ChatWorld.createMessage, howed₁, owes_of_follow hfollow]

theorem safe_persistEvent {event : Event} {owed' : List String}
    (hfollow : followAll owed (eventRow event).toList = some owed')
    (howed : w.unanswered t = owed) :
    Safe (chatSystem table quote T) (chatContract T) t turn
      (fun _ w' => w'.unanswered t = owed') (fun _ _ => True) (persistEvent event) w := by
  cases hrow : eventRow event with
  | some body =>
    have hbody : follow owed body = some owed' := by simpa [hrow] using hfollow
    have hcode : persistEvent event = createMessage body none := by
      cases event with
      | invoke toolName session => cases hrow
      | _ => simp [persistEvent, hrow]
    rw [hcode]
    exact safe_createMessage table quote hbody howed
  | none =>
    obtain rfl : owed = owed' := by simpa [hrow] using hfollow
    cases event with
    | invoke toolName session =>
      refine Safe.each (I := fun w' : ChatWorld T => w'.unanswered t = owed) (fun step _ w' howed' => ?_) howed
      exact safe_reads table quote (by simp) howed'
    | persistAssistant text notice calls => cases hrow
    | persistTool callId payload => cases hrow
    | _ => exact howed

/-- The events of a turn, when its rows fit one after the other. -/
theorem safe_persistEvents {events : List Event} {owed' : List String}
    (hfollow : followAll owed (events.filterMap eventRow) = some owed')
    (howed : w.unanswered t = owed) :
    Safe (chatSystem table quote T) (chatContract T) t turn
      (fun _ w' => w'.unanswered t = owed') (fun _ _ => True)
      (Program.each persistEvent events) w := by
  induction events generalizing owed w with
  | nil =>
    obtain rfl : owed = owed' := Option.some.inj hfollow
    exact howed
  | cons event events ih =>
    have hsplit : (event :: events).filterMap eventRow =
        (eventRow event).toList ++ events.filterMap eventRow := by
      cases hrow : eventRow event <;> simp [hrow]
    rw [hsplit, followAll_append] at hfollow
    obtain ⟨next, hnext, hrest⟩ := Option.bind_eq_some_iff.mp hfollow
    refine Safe.seq (safe_persistEvent table quote hnext howed) fun _ w₁ howed₁ => ?_
    exact ih hrest howed₁

/-- Whatever the other turns do, a turn answers its own calls, in order. -/
theorem safe_sendUserMessage (howed : w.unanswered t = []) :
    Safe (chatSystem table quote T) (chatContract T) t turn (fun _ w' => w'.unanswered t = [])
      (fun _ _ => True) (sendUserMessage table quote turn) w := by
  refine Safe.seq (safe_reads table quote (by simp) howed) fun found w₁ howed₁ => ?_
  cases found with
  | none => trivial
  | some conversation =>
    refine Safe.seq (safe_reads table quote (by simp) howed₁) fun found w₂ howed₂ => ?_
    cases found with
    | none => trivial
    | some _ =>
      have huser : follow [] (.user turn.userText) = some [] := rfl
      refine Safe.seq (safe_createMessage table quote huser howed₂) fun _ w₃ howed₃ => ?_
      refine Safe.seq (safe_reads table quote (by simp) howed₃) fun allMessages w₄ howed₄ => ?_
      exact safe_persistEvents table quote (rows_runTurn _ _ turn.script) howed₄

theorem chatContract_met : (chatContract T).Met (chatSystem table quote T) where
  code t turn w _ _ :=
    (safe_sendUserMessage table quote (by simp [chatSystem, ChatWorld.discard])).post
      fun _ _ _ => trivial
  reset t turn w hinv := ⟨hinv.discard, trivial, fun t' hother => Function.update_of_ne hother _ _⟩

end Code

end RelyLoop.Agent
