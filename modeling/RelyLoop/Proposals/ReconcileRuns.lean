import RelyLoop.Concurrency.RowVersions
import RelyLoop.Proposals.Reconcile

/-!
# What a tick leaves after any webhooks

The webhooks and the earlier ticks leave a proposal with an opened pull request open
or closed, whatever their order. A tick that observes GitHub's state of the pull
request then brings the row in line with it, but for one case: a row that is closed
stays closed when the pull request is open.
-/

namespace RelyLoop.Proposals

open Concurrency

/-! ## The rows before the tick -/

/-- The pull request of a row that has one opened is open or closed. -/
def PullSound (row : Proposal) : Prop :=
  row.status = .prOpened → row.prState = some .opened ∨ row.prState = some .closed

/-- All versions of all rows are sound. -/
def PullsSound {T : Type} (w : Tables T ℕ ConfigRepo ℕ Proposal) : Prop :=
  ∀ k, ∀ row ∈ w.second.versions k, PullSound row

/-- What the deliveries do to proposals: conditional updates that leave a sound row. -/
def LeavesSound : TablesOp ℕ ConfigRepo ℕ Proposal → Prop
  | .second (.updateWhere _ condition values) =>
    ∀ row, condition row = true → PullSound (values row)
  | .second (.update _ _) => False
  | .second (.insert _ _) => False
  | _ => True

section Deliveries

variable {env : MergeEnv} {proposalId configRepoId prMergedAt : ℕ}

theorem leavesSound_conditionalUpdate {condition : Proposal → Bool}
    {values : Proposal → Proposal}
    (h : ∀ row, condition row = true → PullSound (values row)) :
    ((conditionalUpdate proposalId condition values).onSecond MergeError.proposal).Every
      LeavesSound := by
  refine Program.Every.onSecond (Program.Every.bind ⟨h, fun _ => trivial⟩ fun matched => ?_)
  cases matched
  · trivial
  · exact ⟨trivial, fun _ => trivial⟩

theorem leavesSound_markMerged (state : PrState) :
    ((conditionalUpdate proposalId
      (fun row => row.status = .prOpened ∧ row.prState = some state) fun row =>
        { row with status := .prMerged, prState := some .merged,
                   prMergedAt := some prMergedAt }).onSecond MergeError.proposal).Every
      LeavesSound :=
  leavesSound_conditionalUpdate fun _ _ hopened => by cases hopened

theorem leavesSound_markClosed :
    ((markProposalPrClosed proposalId).onSecond MergeError.proposal).Every LeavesSound :=
  leavesSound_conditionalUpdate fun _ _ _ => Or.inr rfl

theorem leavesSound_markReopened :
    ((markProposalPrReopened proposalId).onSecond MergeError.proposal).Every LeavesSound :=
  leavesSound_conditionalUpdate fun _ _ _ => Or.inl rfl

theorem leavesSound_stamp :
    ((stampProposalLastPolledAt proposalId).onSecond MergeError.proposal).Every LeavesSound :=
  leavesSound_conditionalUpdate fun _ hcondition _ => Or.inr (of_decide_eq_true hcondition).2

theorem leavesSound_updatePointer :
    (updateConfigRepoLastMergedPointer configRepoId proposalId prMergedAt).Every LeavesSound := by
  refine Program.Every.bind ⟨trivial, fun _ => trivial⟩ fun row => ?_
  cases row with
  | none => trivial
  | some row =>
    have hlater : (mergedLater row prMergedAt).Every LeavesSound := by
      unfold mergedLater
      cases row.lastMergedProposalId
      · trivial
      · exact ⟨trivial, fun _ => trivial⟩
    refine hlater.bind fun later => ?_
    cases later
    · trivial
    · exact ⟨trivial, fun _ => trivial⟩

theorem leavesSound_applyMerge {mark : Db (Option Proposal)}
    (hmark : (mark.onSecond MergeError.proposal).Every LeavesSound) :
    (applyMerge env mark proposalId prMergedAt).Every LeavesSound := by
  refine hmark.bind fun updated => ?_
  split
  · split
    · exact leavesSound_updatePointer.bind fun _ => trivial
    · trivial
  · trivial

theorem leavesSound_mutate (mutation : Mutation) :
    (mutate env proposalId mutation).Every LeavesSound := by
  cases mutation with
  | none => trivial
  | merged prMergedAt =>
    cases prMergedAt with
    | none => exact leavesSound_markClosed.bind fun _ => trivial
    | some prMergedAt => exact leavesSound_applyMerge (leavesSound_markMerged .opened)
  | closed => exact leavesSound_markClosed.bind fun _ => trivial
  | reopened => exact leavesSound_markReopened.bind fun _ => trivial

theorem leavesSound_githubWebhook (event : WebhookEvent) :
    (githubWebhook env event).Every LeavesSound := by
  have hlookup : ((lookupConfigRepoByOwnerRepo env event.ownerRepo).onFirst
      (id : MergeError → MergeError)).Every LeavesSound := by
    refine Program.Every.onFirst (Program.Every.bind ⟨trivial, fun _ => trivial⟩ fun rows => ?_)
    exact (Program.every_each fun _ _ => Program.every_perform trivial).bind fun _ => trivial
  refine hlookup.bind fun found => ?_
  cases found with
  | none => trivial
  | some row =>
    dsimp only
    split
    · trivial
    split
    · trivial
    have hread : ((lookupProposalByPrUrl event.prUrl).onSecond MergeError.proposal).Every
        LeavesSound := Program.Every.onSecond (Program.every_perform trivial)
    refine hread.bind fun rows => ?_
    split
    · trivial
    · exact (leavesSound_mutate event.mutation).bind fun _ => ⟨trivial, fun _ => trivial⟩
    · trivial

theorem leavesSound_reconcileCandidate (c : Candidate) :
    (reconcileCandidate env c).Every LeavesSound := by
  have hsession : ∀ {body : MergeDb Unit}, body.Every LeavesSound →
      (inOwnSession body).Every LeavesSound := fun h =>
    h.bind fun _ => ⟨trivial, fun _ => ⟨trivial, fun _ => trivial⟩⟩
  unfold reconcileCandidate
  cases c.answer with
  | merged mergedAt =>
    refine hsession (leavesSound_applyMerge ?_)
    split
    · exact leavesSound_markMerged .closed
    · exact leavesSound_markMerged .opened
  | closed =>
    refine hsession (Program.Every.bind ?_ fun _ => trivial)
    split
    · exact leavesSound_stamp
    · exact leavesSound_markClosed
  | opened => trivial
  | failed => trivial
  | rateLimited => trivial

theorem leavesSound_code (delivery : Delivery) : (delivery.code env).Every LeavesSound := by
  cases delivery with
  | webhook event => exact leavesSound_githubWebhook event
  | reconcile candidates =>
    exact Program.every_each fun c _ => leavesSound_reconcileCandidate c

end Deliveries

section Runs

variable {T : Type} [DecidableEq T] {t : T} {env : MergeEnv}
variable {w w' : Tables T ℕ ConfigRepo ℕ Proposal}

/-- Such an operation keeps the rows sound. -/
theorem pullsSound_exec {o : TablesOp ℕ ConfigRepo ℕ Proposal} {a : o.Res} (ho : LeavesSound o)
    (hsound : PullsSound w) (hexec : w.exec t o = some (w', a)) : PullsSound w' := by
  cases o with
  | first o =>
    obtain ⟨s, -, rfl⟩ := Tables.exec_first hexec
    exact hsound
  | second o =>
    obtain ⟨s, hstatement, rfl⟩ := Tables.exec_second hexec
    intro k row hrow
    rcases Store.mem_versions_exec hstatement hrow with hold | hwrite
    · exact hsound k row hold
    · cases o with
      | updateWhere k' condition values =>
        obtain ⟨-, v, -, hcondition, rfl⟩ := hwrite
        exact ho v hcondition
      | update k' f => exact ho.elim
      | insert k' row' => exact ho.elim
      | _ => exact hwrite.elim
  | column k =>
    obtain ⟨rfl, -⟩ := Prod.mk.inj (Option.some.inj hexec)
    exact hsound
  | commit =>
    obtain ⟨rfl, -⟩ := Prod.mk.inj (Option.some.inj hexec)
    exact fun k row hrow => hsound k row (Store.mem_versions_of_commit hrow)
  | rollback =>
    obtain ⟨rfl, -⟩ := Prod.mk.inj (Option.some.inj hexec)
    exact fun k row hrow => hsound k row (Store.mem_versions_of_rollback hrow)

/-- The contract that keeps the rows sound. -/
def pullContract (T : Type) :
    Contract T Delivery (Tables T ℕ ConfigRepo ℕ Proposal) (TablesOp ℕ ConfigRepo ℕ Proposal) where
  inv := PullsSound
  change _ _ _ := True
  rely _ _ _ := True
  cond _ _ _ := True
  rely_refl _ _ := trivial
  rely_trans _ _ _ _ _ _ := trivial

theorem pullContract_met (env : MergeEnv) : (pullContract T).Met (mergeSystem T env) where
  code _ j _ _ _ := Safe.of_every (P := LeavesSound)
    (fun _ ho _ _ _ hinv hexec => ⟨pullsSound_exec ho hinv hexec, trivial, fun _ _ => trivial⟩)
    (leavesSound_code j)
  reset _ _ _ hinv :=
    ⟨fun k row hrow => hinv k row (Store.mem_versions_of_rollback hrow), trivial,
      fun _ _ => trivial⟩

/-- Whatever was delivered, in whatever order, the rows are sound. -/
theorem pullsSound_run {c : Config T Delivery (Tables T ℕ ConfigRepo ℕ Proposal)
    (TablesOp ℕ ConfigRepo ℕ Proposal) TablesOp.Res MergeError} (hw : PullsSound w)
    (hrun : (mergeSystem T env).Run (fun _ _ _ => True) (System.idle w) c) :
    PullsSound c.world :=
  ((pullContract_met env).run (Contract.sound_idle hw) hrun).1

end Runs

/-! ## The tick -/

/-- GitHub's state of a pull request. -/
inductive PullState where
  | opened
  | closed
  | merged (mergedAt : ℕ)
  deriving DecidableEq, Repr

/-- The answer that a tick makes of it. -/
def PullState.answer : PullState → PullAnswer
  | opened => .opened
  | closed => .closed
  | merged mergedAt => .merged mergedAt

/-- A body that reports the state. -/
def PullState.Reported (env : PollEnv) : PullState → PullPayload → Prop
  | opened, payload => payload.merged = false ∧ payload.state = some "open"
  | closed, payload => payload.merged = false ∧ payload.state = some "closed"
  | merged mergedAt, payload =>
    payload.merged = true ∧ coerceMergedAt env payload.mergedAt = some mergedAt

/-- What the state denotes in the table. -/
def PullState.Denotes : PullState → Proposal → Prop
  | opened, row => row.status = .prOpened ∧ row.prState = some .opened
  | closed, row => row.status = .prOpened ∧ row.prState = some .closed
  | merged mergedAt, row =>
    row.status = .prMerged ∧ row.prState = some .merged ∧ row.prMergedAt = some mergedAt

theorem pullAnswer_of_reported {env : PollEnv} {state : PullState} {payload : PullPayload}
    (h : state.Reported env payload) : pullAnswer env (.response 200 payload) = state.answer := by
  cases state with
  | opened =>
    obtain ⟨hmerged, hstate⟩ := h
    simp [pullAnswer, hmerged, hstate, PullState.answer]
  | closed =>
    obtain ⟨hmerged, hstate⟩ := h
    simp [pullAnswer, hmerged, hstate, PullState.answer]
  | merged mergedAt =>
    obtain ⟨hmerged, hat⟩ := h
    simp [pullAnswer, hmerged, hat, PullState.answer]

section Tick

variable {T : Type} [DecidableEq T] {t : T} {env : PollEnv} {tick : PollTick}
variable {w : Tables T ℕ ConfigRepo ℕ Proposal} {proposalId : ℕ} {row : Proposal}
variable {state : PullState}

open Tables

/-- The candidates of a tick, up to a rate limit. -/
def polled (env : PollEnv) (tick : PollTick) (t : T) (w : Tables T ℕ ConfigRepo ℕ Proposal) :
    List Candidate :=
  ((w.second.hits t (reconcilable tick) (createdBefore tick)).map (candidateOf env)).takeWhile
    (·.answer ≠ .rateLimited)

/-- The tick selects the proposal, with this row, and GitHub's answer reports the state. -/
structure Observes (env : PollEnv) (tick : PollTick) (t : T)
    (w : Tables T ℕ ConfigRepo ℕ Proposal) (proposalId : ℕ) (row : Proposal)
    (state : PullState) : Prop where
  selected : (proposalId, row) ∈ w.second.hits t (reconcilable tick) (createdBefore tick)
  polled : candidateOf env (proposalId, row) ∈ polled env tick t w
  reported : ∃ owner repo number token payload,
    row.prUrl.bind (parsePrUrl env) = some (owner, repo, number) ∧
      env.tokenOf owner repo = some token ∧
      env.github token owner repo number = .response 200 payload ∧ state.Reported env payload

theorem Observes.answer (h : Observes env tick t w proposalId row state) :
    (candidateOf env (proposalId, row)).answer = state.answer := by
  obtain ⟨owner, repo, number, token, payload, hurl, htoken, hgithub, hreported⟩ := h.reported
  simp only [candidateOf, observe, hurl, htoken, hgithub]
  exact pullAnswer_of_reported hreported

/-- A fresh session. -/
structure FreshSession (t : T) (w : Tables T ℕ ConfigRepo ℕ Proposal) : Prop where
  free : w.Free t
  clean : w.second.Clean t
  nothingLoaded : ∀ k, w.second.identity t k = none

/-- The selection of the candidates. -/
theorem returns_selection (hfresh : FreshSession t w) :
    Returns t (fun found w' => found = w.second.hits t (reconcilable tick) (createdBefore tick) ∧
        w'.second.visible t = w.second.visible t ∧ w'.second.Clean t)
      ((Transaction.selectWhere (reconcilable tick) (createdBefore tick)).onSecond
        MergeError.proposal) w := by
  have hloaded : ∀ (found : List (ℕ × Proposal)) (s : Store T ℕ Proposal),
      (found.foldl (fun s' x => s'.load t x.1) s).visible t = s.visible t := by
    intro found
    induction found with
    | nil => exact fun s => rfl
    | cons x found ih => exact fun s => (ih (s.load t x.1)).trans (by simp)
  have hexec : w.exec t (.second (.selectWhere (reconcilable tick) (createdBefore tick))) =
      some (⟨w.first, (w.second.hits t (reconcilable tick) (createdBefore tick)).foldl
        (fun s' x => s'.load t x.1) w.second⟩,
        w.second.hits t (reconcilable tick) (createdBefore tick)) := by
    simp [Tables.exec, Store.exec, hfresh.nothingLoaded]
  refine Returns.perform hexec ⟨hfresh.free.1, hfresh.free.2.foldl_load _⟩
    ⟨rfl, hloaded _ _, fun k => ?_⟩
  rw [Store.held_foldl_load]
  exact hfresh.clean k

/-- The tick settles the row of a candidate that it comes to. -/
theorem returns_reconcileTick (hfresh : FreshSession t w)
    (hselected : (proposalId, row) ∈ w.second.hits t (reconcilable tick) (createdBefore tick))
    (hpolled : candidateOf env (proposalId, row) ∈ polled env tick t w) :
    Returns t (fun _ w' => w'.second.committed proposalId =
        some ((candidateOf env (proposalId, row)).settle row)) (reconcileTick env tick) w := by
  have hrow : w.second.visible t proposalId = some row := (Store.mem_hits hselected).1
  refine Returns.seq (returns_selection hfresh) ?_
  rintro found w₁ hfree₁ ⟨rfl, hrows₁, hclean₁⟩
  refine Returns.seq (Returns.rollback hclean₁ hfree₁) ?_
  rintro _ w₂ hfree₂ ⟨hrows₂, hclean₂⟩
  -- two candidates of one proposal are made of the same row
  have hsame : ∀ c ∈ polled env tick t w, c.proposalId = proposalId →
      c = candidateOf env (proposalId, row) := by
    intro c hc hid
    obtain ⟨⟨proposalId', row'⟩, hmem, rfl⟩ := List.mem_map.mp ((List.takeWhile_sublist _).subset hc)
    obtain rfl : proposalId' = proposalId := hid
    have hrow' : w.second.visible t proposalId' = some row' := (Store.mem_hits hmem).1
    rw [Option.some.inj (hrow.symm.trans hrow')]
  have hrow₂ : w₂.second.visible t proposalId = some row := by rw [hrows₂, hrows₁, hrow]
  refine (returns_candidates (candidateOf env (proposalId, row)) _ hsame hrow₂ hclean₂
    hfree₂).post ?_
  rintro _ w₃ ⟨hclean₃, hsettled⟩
  rw [hclean₃.visible, if_pos hpolled] at hsettled
  exact hsettled

/-- The settled row is the one that the state denotes, unless an open pull request was
stored as closed. -/
theorem denotes_settle_iff (hopened : row.status = .prOpened) (hsound : PullSound row)
    {c : Candidate} (hstate : c.prState = row.prState) (hanswer : c.answer = state.answer) :
    state.Denotes (c.settle row) ↔ ¬(row.prState = some .closed ∧ state = .opened) := by
  rcases hsound hopened with hprState | hprState <;> cases state <;>
    simp [PullState.Denotes, Candidate.settle, Candidate.applies, Candidate.change, hanswer,
      PullState.answer, hopened, hprState, hstate]

/-- A tick that runs from `w` leaves the row as the state denotes it. -/
def Settles (env : PollEnv) (tick : PollTick) (t : T) (w : Tables T ℕ ConfigRepo ℕ Proposal)
    (proposalId : ℕ) (state : PullState) : Prop :=
  ∃ w', (reconcileTick env tick).alone (Tables.exec t) w = some (w', .ok ()) ∧
    ∃ row, w'.second.committed proposalId = some row ∧ state.Denotes row

/-- No transaction is open. -/
def Quiet (w : Tables T ℕ ConfigRepo ℕ Proposal) : Prop :=
  (∀ k, w.first.lock k = none) ∧ ∀ k, w.second.lock k = none

omit [DecidableEq T] in
theorem unlock_eq_none {K R : Type} [DecidableEq T] {s : Store T K R}
    (h : ∀ k, s.lock k = none) (k : K) : (s.rollback t).lock k = none := by
  simp [Store.rollback, Store.unlock, h k]

theorem freshSession_of_quiet (h : Quiet w) : FreshSession t (w.rollback t) where
  free := ⟨Store.Free.of_unlocked (unlock_eq_none h.1), Store.Free.of_unlocked (unlock_eq_none h.2)⟩
  clean _ := Store.held_rollback
  nothingLoaded _ := Store.identity_rollback

/-- The tick of a fresh session on sound rows. -/
theorem settles_iff (hfresh : FreshSession t w) (hsound : PullsSound w)
    (hobserves : Observes env tick t w proposalId row state) :
    Settles env tick t w proposalId state ↔ ¬(row.prState = some .closed ∧ state = .opened) := by
  obtain ⟨hvisible, hreconcilable⟩ := Store.mem_hits hobserves.selected
  have hopened : row.status = .prOpened := by
    simp only [reconcilable, Bool.and_eq_true, decide_eq_true_eq] at hreconcilable
    exact hreconcilable.1.1.1
  have hcommitted : w.second.committed proposalId = some row := by
    rwa [hfresh.clean.visible] at hvisible
  have hrow : PullSound row :=
    hsound proposalId row (Store.mem_versions.mpr (Or.inl hcommitted))
  have hdenotes := denotes_settle_iff hopened hrow (c := candidateOf env (proposalId, row)) rfl
    hobserves.answer
  obtain ⟨w', a, halone, -, hsettled⟩ := returns_reconcileTick hfresh hobserves.selected
    hobserves.polled
  constructor
  · rintro ⟨w'', halone', row', hrow', hstate⟩
    obtain ⟨rfl, -⟩ := Prod.mk.inj (Option.some.inj (halone.symm.trans halone'))
    obtain rfl := Option.some.inj (hsettled.symm.trans hrow')
    exact hdenotes.mp hstate
  · intro hnot
    exact ⟨w', halone, _, hsettled, hdenotes.mpr hnot⟩

theorem pullsSound_rollback (h : PullsSound w) : PullsSound (w.rollback t) :=
  fun k row hrow => h k row (Store.mem_versions_of_rollback hrow)

/-- After any run of deliveries, a tick that observes GitHub's state of a pull request
brings the row in line with it exactly when it is not a closed row of an open pull
request. -/
theorem reconcile_settles_iff {w₀ : Tables T ℕ ConfigRepo ℕ Proposal} (hw₀ : PullsSound w₀)
    {c : Config T Delivery (Tables T ℕ ConfigRepo ℕ Proposal) (TablesOp ℕ ConfigRepo ℕ Proposal)
      TablesOp.Res MergeError}
    (hrun : (mergeSystem T env.merge).Run (fun _ _ _ => True) (System.idle w₀) c)
    (hquiet : Quiet c.world)
    (hobserves : Observes env tick t (c.world.rollback t) proposalId row state) :
    Settles env tick t (c.world.rollback t) proposalId state ↔
      ¬(row.prState = some .closed ∧ state = .opened) := by
  have hfresh : FreshSession t (c.world.rollback t) := freshSession_of_quiet hquiet
  have hsound : PullsSound c.world := pullsSound_run hw₀ hrun
  exact settles_iff hfresh (pullsSound_rollback hsound) hobserves

end Tick

/-! ## A lost webhook -/

open Tables

/-- A proposal whose pull request has been opened. -/
def openedProposal : Proposal where
  configDiff := "boost: 2"
  status := .prOpened
  prUrl := some "https://github.com/acme/search/pull/7"
  prState := some .opened

/-- Its config repo, and its row. -/
def openedPull : Tables Unit ℕ ConfigRepo ℕ Proposal where
  first := {
    keys := [3]
    committed k := if k = 3 then some ⟨"https://github.com/acme/search", some "hook", none⟩ else none
    lock _ := none
    identity _ _ := none }
  second := {
    keys := [1]
    committed k := if k = 1 then some openedProposal else none
    lock _ := none
    identity _ _ := none }

/-- The cluster of the proposal has this repo. -/
def acmeRepo : MergeEnv where
  ownerRepoOf url :=
    if url = "https://github.com/acme/search" then some ("acme", "search") else none
  configRepoOf _ := some 3

/-- GitHub answers with this body. -/
def githubReports (payload : PullPayload) : PollEnv where
  merge := acmeRepo
  decimalDigit c := if c.isDigit then some (c.toNat - 48) else none
  fromIsoFormat text := if text = "2026-05-12T11:00:00+00:00" then some 1778583600 else none
  tokenOf _ _ := some "token"
  github _ _ _ _ := .response 200 payload

/-- A tick an hour after the proposal was created. -/
def nextTick : PollTick where
  now := 3600
  createdAt _ := 0
  lastPolledAt _ := none

/-- The pull request is closed without a merge. -/
def closedEvent : WebhookEvent where
  ownerRepo := ("acme", "search")
  signatureValid := true
  mutation := .closed
  prUrl := "https://github.com/acme/search/pull/7"

theorem pullsSound_openedPull : PullsSound openedPull := by
  intro k row hrow _
  have hcommitted : (if k = 1 then some openedProposal else none) = some row :=
    (Store.mem_versions_of_unlocked (s := openedPull.second) fun _ => rfl).mp hrow
  obtain ⟨-, rfl⟩ := by simpa using hcommitted
  exact Or.inl rfl

/-- The row after the delivery. -/
def closedProposal : Proposal := { openedProposal with prState := some .closed }

/-- A session that is alone and has ended leaves no lock. -/
theorem quiet_rollback (w : Tables Unit ℕ ConfigRepo ℕ Proposal) : Quiet (w.rollback ()) := by
  constructor
  · intro k
    have hfree : (w.first.rollback ()).lockedByOther () k = false := by simp [Store.lockedByOther]
    exact (Store.held_or_free hfree).resolve_left fun h => h Store.held_rollback
  · intro k
    have hfree : (w.second.rollback ()).lockedByOther () k = false := by
      simp [Store.lockedByOther]
    exact (Store.held_or_free hfree).resolve_left fun h => h Store.held_rollback

/-- The delivery of the closing: it leaves a closed row, which the next tick selects. -/
theorem run_closed :
    ∃ c, (mergeSystem Unit acmeRepo).Run (fun _ _ _ => True)
        (System.idle openedPull) c ∧ Quiet c.world ∧
      (c.world.rollback ()).second.hits () (reconcilable nextTick) (createdBefore nextTick) =
        [(1, closedProposal)] := by
  have hrun : (((mergeSystem Unit acmeRepo).guard fun _ _ _ => true).schedule (System.idle openedPull)
      (.start () (.webhook closedEvent) :: List.replicate 5 (.call ()))).bind (fun c =>
        (((mergeSystem Unit acmeRepo).guard fun _ _ _ => true).step c (.stop ())).map fun c' =>
          (c'.world.rollback ()).second.hits () (reconcilable nextTick) (createdBefore nextTick)) =
      some [(1, closedProposal)] := by decide +kernel
  obtain ⟨c, hc, hrest⟩ := Option.bind_eq_some_iff.mp hrun
  obtain ⟨c', hc', hhits⟩ := Option.map_eq_some_iff.mp hrest
  refine ⟨c', ?_, ?_, hhits⟩
  · exact Relation.ReflTransGen.tail ((mergeSystem Unit acmeRepo).run_of_guarded (fun _ _ _ _ => trivial) hc)
      ((mergeSystem Unit acmeRepo).step_of_guarded (fun _ _ _ _ => trivial) hc')
  · rcases System.step_cases _ hc' with ⟨t, j, h, -⟩ | ⟨t, j, o, next, w, r, h, -⟩ | ⟨t, -, -, rfl⟩
    · cases h
    · cases h
    · exact quiet_rollback c.world

theorem parsePrUrl_congr {env env' : PollEnv} (h : env.decimalDigit = env'.decimalDigit) :
    parsePrUrl env = parsePrUrl env' := by
  have hnumber : parseNumber env = parseNumber env' := by
    funext text
    simp only [parseNumber, h]
  funext prUrl
  simp only [parsePrUrl, hnumber]

/-- The tick sees what GitHub reports of the closed row. -/
theorem observes_closed {payload : PullPayload} {state : PullState}
    {w : Tables Unit ℕ ConfigRepo ℕ Proposal}
    (hhits : w.second.hits () (reconcilable nextTick) (createdBefore nextTick) =
      [(1, closedProposal)])
    (hreported : state.Reported (githubReports payload) payload) :
    Observes (githubReports payload) nextTick () w 1 closedProposal state := by
  have hparse : closedProposal.prUrl.bind (parsePrUrl (githubReports payload)) =
      some ("acme", "search", 7) := by
    have hdigits : (githubReports payload).decimalDigit =
        (githubReports ⟨false, none, none⟩).decimalDigit := rfl
    rw [parsePrUrl_congr hdigits]
    decide +kernel
  have hanswer : (candidateOf (githubReports payload) (1, closedProposal)).answer =
      state.answer := by
    simp only [candidateOf, observe, hparse]
    exact pullAnswer_of_reported hreported
  refine ⟨by simp [hhits], ?_, ⟨"acme", "search", 7, "token", payload, hparse, rfl, rfl, hreported⟩⟩
  have hnotLimited : state.answer ≠ .rateLimited := by cases state <;> simp [PullState.answer]
  simp [polled, hhits, hanswer, hnotLimited]

/-- The body of a merged pull request. -/
def mergedBody : PullPayload := ⟨true, some "closed", some "2026-05-12T11:00:00Z"⟩

theorem reported_mergedBody :
    (PullState.merged 1778583600).Reported (githubReports mergedBody) mergedBody := by
  refine ⟨rfl, ?_⟩
  decide +kernel

/-- The merge of a pull request whose row is closed is recovered. -/
theorem reconcile_settles_merged :
    ∃ c, (mergeSystem Unit (githubReports mergedBody).merge).Run (fun _ _ _ => True)
        (System.idle openedPull) c ∧
      Settles (githubReports mergedBody) nextTick () (c.world.rollback ()) 1
        (.merged 1778583600) := by
  obtain ⟨c, hrun, hquiet, hhits⟩ := run_closed
  have hrun' : (mergeSystem Unit (githubReports mergedBody).merge).Run (fun _ _ _ => True)
      (System.idle openedPull) c := hrun
  have hobserves : Observes (githubReports mergedBody) nextTick () (c.world.rollback ()) 1
      closedProposal (.merged 1778583600) := observes_closed hhits reported_mergedBody
  have hmerged : ¬(closedProposal.prState = some .closed ∧
      PullState.merged 1778583600 = .opened) := fun h => by cases h.2
  exact ⟨c, hrun',
    (reconcile_settles_iff pullsSound_openedPull hrun' hquiet hobserves).mpr hmerged⟩

/-- The body of an open pull request. -/
def openBody : PullPayload := ⟨false, some "open", none⟩

/-- The pull request was closed and opened again, and the second webhook was lost: the
tick sees that it is open, and leaves the row closed. -/
theorem lost_reopening_stays_closed :
    ∃ c, (mergeSystem Unit (githubReports openBody).merge).Run (fun _ _ _ => True)
        (System.idle openedPull) c ∧ Quiet c.world ∧
      Observes (githubReports openBody) nextTick () (c.world.rollback ()) 1 closedProposal
        .opened ∧
      ¬Settles (githubReports openBody) nextTick () (c.world.rollback ()) 1 .opened := by
  obtain ⟨c, hrun, hquiet, hhits⟩ := run_closed
  have hobserves : Observes (githubReports openBody) nextTick () (c.world.rollback ()) 1
      closedProposal .opened := observes_closed hhits ⟨rfl, rfl⟩
  refine ⟨c, hrun, hquiet, hobserves, fun hsettles => ?_⟩
  have hsound := pullsSound_run pullsSound_openedPull hrun
  have hnot := (settles_iff (freshSession_of_quiet hquiet) (pullsSound_rollback hsound)
    hobserves).mp hsettles
  exact hnot ⟨rfl, rfl⟩

end RelyLoop.Proposals
